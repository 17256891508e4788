import Policyd.CNumbers

namespace Policyd

/-!
# YAML nodes and their typed readers

A parsed rules file is a tree of nodes, each with its source line.  Readers of
one kind return nothing on nodes of another kind, as in the source class, where
one object carries items, fields and text.  Numbers go through the C library
readers after `_` and blanks are removed, and the arithmetic of unit suffixes
is rounded to binary64 like that of the source.
-/

/-- A YAML node. -/
inductive Node where
  | null (line : Nat)
  | scalar (line : Nat) (text : Str)
  | seq (line : Nat) (items : List Node)
  | map (line : Nat) (fields : List (Str × Node))

namespace Node

/-- The line a node starts at; `0` when it is not tied to one. -/
def line : Node → Nat
  | null line => line
  | scalar line _ => line
  | seq line _ => line
  | map line _ => line

/-- Whether the node is a scalar. -/
def isScalar : Node → Bool
  | scalar _ _ => true
  | _ => false

/-- Whether the node is a sequence. -/
def isSeq : Node → Bool
  | seq _ _ => true
  | _ => false

/-- Whether the node is a mapping. -/
def isMap : Node → Bool
  | map _ _ => true
  | _ => false

/-- The text of a scalar. -/
def text : Node → Str
  | scalar _ text => text
  | _ => []

/-- The items of a sequence. -/
def items : Node → List Node
  | seq _ items => items
  | _ => []

/-- The fields of a mapping, in file order. -/
def fields : Node → List (Str × Node)
  | map _ fields => fields
  | _ => []

/-- The first field with a key. -/
def find (node : Node) (key : Str) : Option Node :=
  (node.fields.find? (·.1 == key)).map Prod.snd

/-- Whether a field with a key exists. -/
def has (node : Node) (key : Str) : Bool :=
  (node.find key).isSome

/-- The text of a scalar node only. -/
def scalar? : Node → Option Str
  | scalar _ text => some text
  | _ => none

/-- The items of a sequence, or the node itself as the only item. -/
def asList (node : Node) : List Node :=
  if node.isSeq then
    node.items
  else
    [node]

mutual

/-- Whether two nodes are equal. -/
def equal : Node → Node → Bool
  | null line, null other => line == other
  | scalar line text, scalar other otherText =>
    line == other && text == otherText
  | seq line items, seq other others =>
    line == other && equalItems items others
  | map line fields, map other others =>
    line == other && equalFields fields others
  | _, _ => false

/-- Whether two lists of nodes are equal. -/
def equalItems : List Node → List Node → Bool
  | [], [] => true
  | item :: later, other :: others =>
    equal item other && equalItems later others
  | _, _ => false

/-- Whether two lists of fields are equal. -/
def equalFields : List (Str × Node) → List (Str × Node) → Bool
  | [], [] => true
  | (key, value) :: later, (otherKey, otherValue) :: others =>
    key == otherKey && equal value otherValue &&
      equalFields later others
  | _, _ => false

end

mutual

theorem eq_of_equal :
    ∀ {node other : Node}, node.equal other = true → node = other
  | null _, null _, same => by simpa [equal] using same
  | scalar _ _, scalar _ _, same => by simpa [equal] using same
  | seq _ _, seq _ _, same => by
    simp only [equal, Bool.and_eq_true, beq_iff_eq] at same
    rw [same.1, eq_of_equalItems same.2]
  | map _ _, map _ _, same => by
    simp only [equal, Bool.and_eq_true, beq_iff_eq] at same
    rw [same.1, eq_of_equalFields same.2]

theorem eq_of_equalItems :
    ∀ {items others : List Node},
      equalItems items others = true → items = others
  | [], [], _ => rfl
  | _ :: _, _ :: _, same => by
    simp only [equalItems, Bool.and_eq_true] at same
    rw [eq_of_equal same.1, eq_of_equalItems same.2]

theorem eq_of_equalFields :
    ∀ {fields others : List (Str × Node)},
      equalFields fields others = true → fields = others
  | [], [], _ => rfl
  | (_, _) :: _, (_, _) :: _, same => by
    simp only [equalFields, Bool.and_eq_true, beq_iff_eq] at same
    rw [same.1.1, eq_of_equal same.1.2, eq_of_equalFields same.2]

end

mutual

theorem equal_refl : ∀ node : Node, node.equal node = true
  | null _ => by simp [equal]
  | scalar _ _ => by simp [equal]
  | seq _ items => by simp [equal, equalItems_refl items]
  | map _ fields => by simp [equal, equalFields_refl fields]

theorem equalItems_refl : ∀ items : List Node, equalItems items items = true
  | [] => rfl
  | item :: later => by
    simp [equalItems, equal_refl item, equalItems_refl later]

theorem equalFields_refl :
    ∀ fields : List (Str × Node), equalFields fields fields = true
  | [] => rfl
  | (key, value) :: later => by
    simp [equalFields, equal_refl value, equalFields_refl later]

end

instance : DecidableEq Node := fun node other =>
  decidable_of_iff (node.equal other = true)
    ⟨eq_of_equal, fun same => same ▸ equal_refl node⟩

end Node

/-- Remove the separators operators write in large numbers. -/
def despace (text : Str) : Str :=
  text.filter fun char => char != '_' && char != ' '

/-- A finite number and its suffix. -/
def parseNumber (text : Str) : Option (Rat × Str) :=
  let digits := despace text
  if digits = [] then
    none
  else
    match strtod (Str.cString digits) with
    | .finite value suffix => some (value, suffix)
    | .noConversion => none
    | .notFinite => none

/-- A finite number that is not negative, and its suffix. -/
def parseMagnitude (text : Str) : Option (Rat × Str) :=
  (parseNumber text).filter fun (value, _) => 0 ≤ value

/-- A signed integer in any C base, without a suffix. -/
def intOfText (text : Str) : Option Int :=
  let digits := despace text
  if digits = [] then
    none
  else
    match strtoll 0 (Str.cString digits) with
    | some (value, []) => some value
    | _ => none

/-- An unsigned integer without a suffix. -/
def uintOfText (text : Str) : Option UInt64 :=
  (intOfText text).bind fun value =>
    if value < 0 then
      none
    else
      some (UInt64.ofNat value.toNat)

/-- A truth value. -/
def boolOfText (text : Str) : Option Bool :=
  if Str.iequals text "true".toList ∨ Str.iequals text "yes".toList ∨
      Str.iequals text "on".toList ∨ text = "1".toList then
    some true
  else if Str.iequals text "false".toList ∨ Str.iequals text "no".toList ∨
      Str.iequals text "off".toList ∨ text = "0".toList then
    some false
  else
    none

/-- The multiplier of a byte-size suffix. -/
def byteUnit (suffix : Str) : Option Rat :=
  if suffix = [] ∨ Str.iequals suffix "B".toList then
    some 1
  else if Str.iequals suffix "KB".toList then
    some 1000
  else if Str.iequals suffix "MB".toList then
    some 1000000
  else if Str.iequals suffix "GB".toList then
    some 1000000000
  else if Str.iequals suffix "TB".toList then
    some 1000000000000
  else if Str.iequals suffix "KiB".toList then
    some 1024
  else if Str.iequals suffix "MiB".toList then
    some (1024 * 1024)
  else if Str.iequals suffix "GiB".toList then
    some (1024 * 1024 * 1024)
  else if Str.iequals suffix "TiB".toList then
    some (1024 * 1024 * 1024 * 1024)
  else
    none

/-- The scale of a bit-rate suffix, relative to kilobits per second. -/
def kbpsOf (value : Rat) (suffix : Str) : Option (Option Rat) :=
  if suffix = [] ∨ Str.iequals suffix "kbps".toList ∨
      Str.iequals suffix "kb/s".toList then
    some (some value)
  else if Str.iequals suffix "bps".toList then
    some (Binary64.round (value / 1000))
  else if Str.iequals suffix "Mbps".toList ∨
      Str.iequals suffix "Mb/s".toList then
    some (Binary64.round (value * 1000))
  else if Str.iequals suffix "Gbps".toList ∨
      Str.iequals suffix "Gb/s".toList then
    some (Binary64.round (value * 1000000))
  else
    none

/-- The seconds of a duration suffix. -/
def secondUnit (suffix : Str) : Option Rat :=
  if suffix = [] ∨ suffix = "s".toList ∨
      Str.iequals suffix "sec".toList then
    some 1
  else if suffix = "m".toList ∨ Str.iequals suffix "min".toList then
    some 60
  else if suffix = "h".toList ∨ Str.iequals suffix "hr".toList then
    some 3600
  else if suffix = "d".toList ∨ Str.iequals suffix "day".toList then
    some 86400
  else
    none

/-- Truncate a scaled number unless it exceeds a limit or overflowed. -/
def truncateUpTo (limit : Rat) (scaled : Option Rat) : Option Nat :=
  match scaled with
  | none => none
  | some value =>
    if limit < value then
      none
    else
      some value.floor.toNat

/-- A byte size such as `20GB` or `512MiB`. -/
def bytesOfText (text : Str) : Option UInt64 := do
  let (value, suffix) ← parseMagnitude text
  let unit ← byteUnit suffix
  let bytes ←
    truncateUpTo 18000000000000000000 (Binary64.round (value * unit))
  return UInt64.ofNat bytes

/-- A bit rate such as `50Mbps`, in kilobits per second. -/
def kbpsOfText (text : Str) : Option UInt32 := do
  let (value, suffix) ← parseMagnitude text
  let kbps ← kbpsOf value suffix
  let whole ← truncateUpTo 4290000000 kbps
  return UInt32.ofNat whole

/-- A duration such as `30d`, in seconds. -/
def secondsOfText (text : Str) : Option UInt32 := do
  let (value, suffix) ← parseMagnitude text
  let unit ← secondUnit suffix
  let seconds ←
    truncateUpTo 4290000000 (Binary64.round (value * unit))
  return UInt32.ofNat seconds

/-- `strtol` of a text as the time reader calls it: no conversion reads `0`. -/
def looseInteger (text : Str) : Int :=
  match strtoll 10 (Str.cString text) with
  | some (value, _) => value
  | none => 0

/-- A time of day `HH:MM`, in minutes since midnight. -/
def timeOfDayOfText (text : Str) : Option Nat :=
  match Str.findChar ':' text with
  | none => none
  | some colon =>
    let hour := looseInteger (text.take colon)
    let minute := looseInteger (text.drop (colon + 1))
    if hour < 0 ∨ 23 < hour ∨ minute < 0 ∨ 59 < minute then
      none
    else
      some (hour * 60 + minute).toNat

/-- A percentage, in thousandths: `80%`, `0.8` and `80` all read `800`. -/
def permilleOfText (text : Str) : Option Nat := do
  let (value, suffix) ← parseMagnitude text
  let scale : Rat ←
    if suffix = "%".toList then
      some 10
    else if suffix = [] ∧ value ≤ 1 then
      some 1000
    else if suffix = [] then
      some 10
    else
      none
  let permille ← Binary64.round (value * scale)
  if 100000 < permille then
    none
  else
    let shifted ← Binary64.round (permille + 1 / 2)
    return shifted.floor.toNat

example : permilleOfText "80%".toList = some 800 := by
  decide +kernel

namespace Node

/-- An unsigned integer. -/
def asUint (node : Node) : Option UInt64 :=
  node.scalar?.bind uintOfText

/-- A truth value. -/
def asBool (node : Node) : Option Bool :=
  node.scalar?.bind boolOfText

/-- A byte size. -/
def asBytes (node : Node) : Option UInt64 :=
  node.scalar?.bind bytesOfText

/-- A bit rate in kilobits per second. -/
def asKbps (node : Node) : Option UInt32 :=
  node.scalar?.bind kbpsOfText

/-- A duration in seconds. -/
def asSeconds (node : Node) : Option UInt32 :=
  node.scalar?.bind secondsOfText

/-- A time of day in minutes since midnight. -/
def asTimeOfDay (node : Node) : Option Nat :=
  node.scalar?.bind timeOfDayOfText

/-- A percentage in thousandths. -/
def asPermille (node : Node) : Option Nat :=
  node.scalar?.bind permilleOfText

end Node

theorem Node.asTimeOfDay_lt
    {node : Node} {minute : Nat} (read : node.asTimeOfDay = some minute) :
    minute < 1440 := by
  obtain ⟨text, _, readText⟩ := Option.bind_eq_some_iff.mp read
  unfold timeOfDayOfText at readText
  split at readText
  · cases readText
  · dsimp only at readText
    split at readText
    · cases readText
    · cases readText
      omega

end Policyd
