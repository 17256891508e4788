import Policyd.FlatSet
import Policyd.Imsi

namespace Policyd

/-!
# The subscriber store

An open-addressing table of subscriber records on the packed IMSI, and the
roster loader that fills it.  A probe visits at most every slot once; the outer
`none` of a result means that the loop of the source would run forever.
`upsert` doubles the table before it exceeds its load factor and calls itself
for every record it carries over; `none` also stands for a recursion deeper
than a given bound.  The refinement module shows that neither case arises.
-/

open LinearProbing

/-- Subscriber states, in their stable numbering. -/
inductive SubscriberStatus where
  | active
  | suspended
  | barred
  deriving Repr, DecidableEq

/-- The number that carries a subscriber state. -/
def SubscriberStatus.code : SubscriberStatus → UInt32
  | .active => 0
  | .suspended => 1
  | .barred => 2

/-- Subscriber flag bits. -/
def kSubRoamingAllowed : UInt32 := 1

@[inherit_doc kSubRoamingAllowed]
def kSubTetheringAllowed : UInt32 := 2

@[inherit_doc kSubRoamingAllowed]
def kSubVolteEnabled : UInt32 := 4

@[inherit_doc kSubRoamingAllowed]
def kSubTestSubscriber : UInt32 := 8

/-- One subscriber; IMSI `0` marks an empty slot. -/
structure SubscriberRecord where
  imsi : UInt64 := 0
  imei : UInt64 := 0
  planId : UInt32 := 0
  status : UInt32 := 0
  bytesUsedPeriod : UInt64 := 0
  periodResetTs : UInt64 := 0
  homePlmn : UInt32 := 0
  flags : UInt32 := 0
  deriving Repr, DecidableEq

/-- The store: the probed table and the load factor at which it doubles. -/
structure SubscriberStore extends Table SubscriberRecord where
  maxLoadFactor : Rat
  deriving Repr, DecidableEq

/-- Round up to a power of two, at least eight. -/
def nextPow2 (needed : Nat) : Nat :=
  doubleTo needed needed 8

/-- Clamp a load factor to the supported range. -/
def clampLoadFactor (loadFactor : Rat) : Rat :=
  if loadFactor < 1 / 4 then
    1 / 4
  else if 9 / 10 < loadFactor then
    9 / 10
  else
    loadFactor

namespace SubscriberStore

/-- Slots needed for a number of subscribers at a load factor. -/
def slotsFor (count : Nat) (loadFactor : Rat) : Nat :=
  nextPow2 (((max count 4 : Nat) : Rat) / clampLoadFactor loadFactor).ceil.toNat

/-- A store sized for an expected number of subscribers. -/
def create (expectedSubscribers : Nat) (maxLoadFactor : Rat) :
    SubscriberStore :=
  let factor := clampLoadFactor maxLoadFactor
  { toTable := Table.blank {} (slotsFor expectedSubscribers factor)
    maxLoadFactor := factor }

/-- Number of slots. -/
def capacity (store : SubscriberStore) : Nat :=
  store.slots.length

/-- The probe loop shared by both lookups; the result is a slot position. -/
def findMutable (store : SubscriberStore) (imsi : UInt64) :
    Option (Option Nat) :=
  if imsi = 0 then
    some none
  else
    Table.position SubscriberRecord.imsi 0 splitmixIndex
      store.toTable imsi

/-- The record of a subscriber, if it is provisioned. -/
def find (store : SubscriberStore) (imsi : UInt64) :
    Option (Option SubscriberRecord) :=
  (store.findMutable imsi).map fun found =>
    found.bind fun index => store.slots[index]?

/-- One more record would push the table past its load factor. -/
def Overloaded (store : SubscriberStore) : Prop :=
  (store.capacity : Rat) * store.maxLoadFactor <
    ((store.size + 1 : Nat) : Rat)

instance (store : SubscriberStore) : Decidable store.Overloaded :=
  inferInstanceAs (Decidable (_ < _))

/-- The probing part of `upsert`: overwrite in place or fill a slot. -/
def place (store : SubscriberStore) (record : SubscriberRecord) :
    Option SubscriberStore :=
  (Table.put SubscriberRecord.imsi 0 splitmixIndex
      store.toTable record).map fun table =>
    { store with toTable := table }

/-- Replace the slot array by a blank one and reset the element count. -/
def assignBlank (store : SubscriberStore) (newCapacity : Nat) :
    SubscriberStore :=
  { store with toTable := Table.blank {} newCapacity }

/-- Carry every record over to a blank table of a new capacity. -/
def growWith
    (upsert : SubscriberStore → SubscriberRecord →
      Option (SubscriberStore × Bool))
    (store : SubscriberStore) (newCapacity : Nat) :
    Option SubscriberStore :=
  (store.slots.filter (·.imsi != 0)).foldlM
    (fun grown record => (upsert grown record).map Prod.fst)
    (store.assignBlank newCapacity)

/-- Insert or overwrite a record, following nested rehashes to a depth. -/
def upsertWithin :
    Nat → SubscriberStore → SubscriberRecord →
      Option (SubscriberStore × Bool)
  | 0, _, _ => none
  | depth + 1, store, record =>
    if record.imsi = 0 then
      some (store, false)
    else do
      let roomy ←
        if store.Overloaded then
          growWith (upsertWithin depth) store (store.capacity * 2)
        else
          some store
      let placed ← roomy.place record
      return (placed, true)

/-- Insert or overwrite a record; the rehash itself never rehashes. -/
def upsert (store : SubscriberStore) (record : SubscriberRecord) :
    Option (SubscriberStore × Bool) :=
  upsertWithin 2 store record

/-- Update the record a pointer from `findMutable` refers to. -/
def modifyAt
    (store : SubscriberStore) (index : Nat)
    (change : SubscriberRecord → SubscriberRecord) :
    SubscriberStore :=
  match store.slots[index]? with
  | none => store
  | some record =>
    { store with slots := store.slots.set index (change record) }

/-- Accumulate usage; unknown subscribers are ignored. -/
def addUsage (store : SubscriberStore) (imsi bytes : UInt64) :
    Option SubscriberStore :=
  (store.findMutable imsi).map fun found =>
    match found with
    | none => store
    | some index =>
      store.modifyAt index fun record =>
        { record with bytesUsedPeriod := record.bytesUsedPeriod + bytes }

/-- Start a new metering period of a subscriber. -/
def resetPeriod (store : SubscriberStore) (imsi newResetTs : UInt64) :
    Option (SubscriberStore × Bool) :=
  (store.findMutable imsi).map fun found =>
    match found with
    | none => (store, false)
    | some index =>
      (store.modifyAt index fun record =>
        { record with
          bytesUsedPeriod := 0
          periodResetTs := newResetTs }, true)

end SubscriberStore

/-- The blanks the roster loader trims. -/
def rosterBlanks : Str :=
  [' ', '\t', '\r']

/-- Trim a roster field on both sides. -/
def trimField (text : Str) : Str :=
  Str.trimRight rosterBlanks (Str.trimLeft rosterBlanks text)

/-- Cut a row at its commas into at most `maxFields` fields. -/
def splitFields (row : Str) (maxFields : Nat) : List Str :=
  (row.splitOn ',').take maxFields

/-- Read an unsigned number of any length, wrapping past `2 ^ 64`. -/
def parseU64 (text : Str) : Option UInt64 :=
  let digits := trimField text
  if digits = [] then
    none
  else
    digitLoop 0 digits

/-- Read a subscriber state. -/
def parseStatus (text : Str) : Option SubscriberStatus :=
  let name := trimField text
  if name = "ACTIVE".toList ∨ name = "active".toList ∨ name = "0".toList then
    some .active
  else if name = "SUSPENDED".toList ∨ name = "suspended".toList ∨
      name = "1".toList then
    some .suspended
  else if name = "BARRED".toList ∨ name = "barred".toList ∨
      name = "2".toList then
    some .barred
  else
    none

/-- The flag bit a roster flag name sets; unknown names set none. -/
def subFlagBit (name : Str) : UInt32 :=
  if name = "roaming".toList then
    kSubRoamingAllowed
  else if name = "tethering".toList then
    kSubTetheringAllowed
  else if name = "volte".toList then
    kSubVolteEnabled
  else if name = "test".toList then
    kSubTestSubscriber
  else
    0

/-- Read the flag names of a roster row. -/
def parseSubFlags (text : Str) : UInt32 :=
  (text.splitOn '|').foldl
    (fun flags name => flags ||| subFlagBit (trimField name)) 0

/-- The row error and success texts of the loader, and the capped report. -/
structure LoadResult where
  loaded : Nat := 0
  skipped : Nat := 0
  errors : List Str := []
  deriving Repr, DecidableEq

/-- Reported row errors before the rest is suppressed. -/
def kMaxReportedErrors : Nat := 32

/-- A roster load succeeded without any reported error. -/
def LoadResult.ok (result : LoadResult) : Bool :=
  result.errors.isEmpty

/-- Count a skipped row and report it while the report has room. -/
def LoadResult.note
    (result : LoadResult) (path : Str) (lineNo : Nat)
    (message : Str) : LoadResult :=
  { result with
    skipped := result.skipped + 1
    errors :=
      if result.errors.length < kMaxReportedErrors then
        result.errors ++
          [path ++ ":".toList ++ decimal lineNo ++ ": ".toList ++ message]
      else if result.errors.length = kMaxReportedErrors then
        result.errors ++ ["... further errors suppressed".toList]
      else
        result.errors }

/-- Quote a rejected field in an error text. -/
def quoted (what : String) (text : Str) : Str :=
  what.toList ++ " '".toList ++ text ++ "'".toList

/-- Read one roster row into a record, or say why it is rejected. -/
def parseRow (planNames : List Str) (row : Str) :
    Except Str SubscriberRecord :=
  let fields := splitFields row 8
  let field := fun (position : Nat) => fields.getD position []
  if fields.length < 7 then
    .error ("expected at least 7 comma-separated fields, got ".toList ++
      decimal fields.length)
  else
    let imsi := (parseImsi (trimField (field 0))).filter (· != 0)
    match imsi with
    | none => .error (quoted "invalid IMSI" (trimField (field 0)))
    | some imsi =>
    match parseImei (trimField (field 1)) with
    | none => .error (quoted "invalid IMEI" (trimField (field 1)))
    | some imei =>
    match planNames.findIdx? (· == trimField (field 2)) with
    | none => .error (quoted "unknown plan" (trimField (field 2)))
    | some planIndex =>
    match parseStatus (field 3) with
    | none => .error (quoted "invalid status" (trimField (field 3)))
    | some status =>
    match parseU64 (field 4), parseU64 (field 5),
        parsePlmn (trimField (field 6)) with
    | some used, some resetTs, some plmn =>
      .ok
        { imsi := imsi
          imei := imei
          planId := UInt32.ofNat planIndex
          status := status.code
          bytesUsedPeriod := used
          periodResetTs := resetTs
          homePlmn := plmn
          flags :=
            if 8 ≤ fields.length then parseSubFlags (field 7) else 0 }
    | _, _, _ => .error "invalid usage/reset/plmn field".toList

/-- The loader between two rows. -/
structure LoadState where
  store : SubscriberStore
  result : LoadResult := {}
  lineNo : Nat := 0
  headerSeen : Bool := false

/-- Process one line of the roster. -/
def loadLine
    (path : Str) (planNames : List Str) (state : LoadState) (line : Str) :
    Option LoadState :=
  let state := { state with lineNo := state.lineNo + 1 }
  let row := trimField line
  if row = [] ∨ row.head? = some '#' then
    some state
  else if state.headerSeen = false ∧ row.take 4 = "imsi".toList then
    some { state with headerSeen := true }
  else
    let state := { state with headerSeen := true }
    match parseRow planNames row with
    | .error message =>
      some { state with
        result := state.result.note path state.lineNo message }
    | .ok record =>
      (state.store.upsert record).map fun (store, _) =>
        { state with
          store := store
          result :=
            { state.result with loaded := state.result.loaded + 1 } }

/-- The lines `std::getline` yields: a final empty piece is not a line. -/
def getlines (text : Str) : List Str :=
  let pieces := text.splitOn '\n'
  if pieces.getLast? = some [] then
    pieces.dropLast
  else
    pieces

/-- Load a roster; `none` as contents means that the file cannot be opened. -/
def SubscriberStore.loadCsv
    (store : SubscriberStore) (path : Str) (contents : Option Str)
    (planNames : List Str) :
    Option (SubscriberStore × LoadResult) :=
  match contents with
  | none =>
    some (store,
      { errors := ["cannot open subscriber file: ".toList ++ path] })
  | some text =>
    ((getlines text).foldlM (loadLine path planNames)
        { store := store }).map fun state =>
      (state.store, state.result)

end Policyd
