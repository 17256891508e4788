import Policyd.ByteText

namespace Policyd.Query

/-!
# Query strings

A query string is cut at every `&`, empty pieces are dropped and each remaining
piece is cut at its first `=`.  A handler folds over the pairs: a field written
under one key holds what the last pair with that key wrote, and a flag raised
under one key is up when some pair with that key raised it.
-/

/-- Cut a piece at its first `=`. -/
def splitPair (piece : Str) : Str × Str :=
  match Str.findChar '=' piece with
  | none => (piece, [])
  | some position => (piece.take position, piece.drop (position + 1))

/-- The pairs of a query string, in order. -/
def params (query : Str) : List (Str × Str) :=
  ((query.splitOn '&').filter (· ≠ [])).map splitPair

/-- One pair as text. -/
def printPair (pair : Str × Str) : Str :=
  pair.1 ++ '=' :: pair.2

/-- Pairs as a query string. -/
def print (pairs : List (Str × Str)) : Str :=
  ['&'].intercalate (pairs.map printPair)

/-- Every pair behind the first is printed behind an ampersand. -/
theorem print_cons (pair : Str × Str) (later : List (Str × Str)) :
    print (pair :: later) =
      printPair pair ++ later.flatMap fun other => '&' :: printPair other := by
  induction later generalizing pair with
  | nil => simp [print, List.intercalate]
  | cons next rest inductionHypothesis =>
    have unfolded :
        print (pair :: next :: rest) =
          printPair pair ++ '&' :: print (next :: rest) := by
      simp [print, List.intercalate]
    rw [unfolded, inductionHypothesis, List.flatMap_cons, List.cons_append]

/-- A pair whose text can be cut back into its key and its value. -/
structure Plain (pair : Str × Str) : Prop where
  keyWithoutEquals : '=' ∉ pair.1
  keyWithoutAmpersand : '&' ∉ pair.1
  valueWithoutAmpersand : '&' ∉ pair.2

theorem splitPair_printPair {pair : Str × Str} (plain : Plain pair) :
    splitPair (printPair pair) = pair := by
  have found : Str.findChar '=' (printPair pair) = some pair.1.length :=
    Str.findChar_append_cons plain.keyWithoutEquals pair.2
  rw [splitPair, found]
  simp [printPair]

/-- Reading a printed query string gives its pairs. -/
theorem params_print {pairs : List (Str × Str)}
    (nonempty : pairs ≠ []) (plain : ∀ pair ∈ pairs, Plain pair) :
    params (print pairs) = pairs := by
  have pieces : (print pairs).splitOn '&' = pairs.map printPair := by
    refine List.splitOn_intercalate '&' ?_ ?_
    · intro piece member
      obtain ⟨pair, pairMember, rfl⟩ := List.mem_map.mp member
      have pairPlain := plain pair pairMember
      simp only [printPair, List.mem_append, List.mem_cons, not_or]
      exact ⟨pairPlain.keyWithoutAmpersand, by decide,
        pairPlain.valueWithoutAmpersand⟩
    · simpa using nonempty
  have kept : (pairs.map printPair).filter (· ≠ []) = pairs.map printPair := by
    rw [List.filter_eq_self]
    intro piece member
    obtain ⟨pair, _, rfl⟩ := List.mem_map.mp member
    simp [printPair]
  have readBack : (pairs.map printPair).map splitPair = pairs.map id := by
    rw [List.map_map]
    refine List.map_congr_left ?_
    intro pair member
    exact splitPair_printPair (plain pair member)
  rw [params, pieces, kept, readBack, List.map_id]

/-- The pieces of a text consist of bytes of the text. -/
theorem mem_of_mem_splitOn {separator : Char} {text piece : Str}
    (member : piece ∈ text.splitOn separator) :
    ∀ char ∈ piece, char ∈ text := by
  induction text generalizing piece with
  | nil =>
    intro char charMember
    simp only [List.splitOn_nil, List.mem_singleton] at member
    subst member
    cases charMember
  | cons head later inductionHypothesis =>
    intro char charMember
    rw [List.splitOn_cons_eq_if_modifyHead] at member
    split_ifs at member with isSeparator
    · rcases List.mem_cons.mp member with isEmpty | below
      · subst isEmpty
        cases charMember
      · exact List.mem_cons_of_mem head
          (inductionHypothesis below char charMember)
    · cases pieces : later.splitOn separator with
      | nil => exact (List.splitOn_ne_nil separator later pieces).elim
      | cons first others =>
        rw [pieces, List.modifyHead_cons] at member
        rw [pieces] at inductionHypothesis
        rcases List.mem_cons.mp member with isFirst | below
        · subst isFirst
          rcases List.mem_cons.mp charMember with same | deeper
          · exact same ▸ List.mem_cons_self
          · exact List.mem_cons_of_mem head
              (inductionHypothesis List.mem_cons_self char deeper)
        · exact List.mem_cons_of_mem head
            (inductionHypothesis (List.mem_cons_of_mem first below)
              char charMember)

theorem mem_of_mem_params
    {query : Str} {pair : Str × Str} (member : pair ∈ params query) :
    (∀ char ∈ pair.1, char ∈ query) ∧ ∀ char ∈ pair.2, char ∈ query := by
  obtain ⟨piece, pieceMember, rfl⟩ := List.mem_map.mp member
  have inQuery := mem_of_mem_splitOn (List.mem_of_mem_filter pieceMember)
  unfold splitPair
  split
  · exact ⟨inQuery, by simp⟩
  · exact ⟨fun char charMember => inQuery char (List.mem_of_mem_take charMember),
      fun char charMember => inQuery char (List.mem_of_mem_drop charMember)⟩

section Folds

variable {State Key Value Error : Type}

variable {step : State → Key × Value → Except Error State}
variable {pairs : List (Key × Value)}
variable {start final : State}

theorem foldlM_cons_ok
    {pair : Key × Value} (ran : (pair :: pairs).foldlM step start = .ok final) :
    ∃ middle, step start pair = .ok middle ∧
      pairs.foldlM step middle = .ok final := by
  rw [List.foldlM_cons] at ran
  cases first : step start pair with
  | error problem =>
    rw [first] at ran
    cases ran
  | ok middle =>
    rw [first] at ran
    exact ⟨middle, rfl, ran⟩

/-- A fold of fallible steps is a fold of steps on optional states. -/
theorem toOption_foldlM (step : State → Key × Value → Except Error State)
    (pairs : List (Key × Value)) (start : State) :
    (pairs.foldlM step start).toOption =
      pairs.foldl
        (fun state pair => state.bind fun before => (step before pair).toOption)
        (some start) := by
  have failed :
      pairs.foldl
        (fun state pair => state.bind fun before => (step before pair).toOption)
        none = none := by
    clear start
    induction pairs with
    | nil => rfl
    | cons pair later inductionHypothesis => exact inductionHypothesis
  induction pairs generalizing start with
  | nil => rfl
  | cons pair later inductionHypothesis =>
    rw [List.foldlM_cons, List.foldl_cons, Option.bind_some]
    cases step start pair with
    | error problem => exact failed.symm
    | ok middle => exact inductionHypothesis middle failed

/--
Pairs with distinct keys may be folded in any order when the steps of two pairs
with different keys commute.
-/
theorem toOption_foldlM_perm
    (commute : ∀ state first second,
      first.1 ≠ second.1 →
        ((step state first).toOption.bind fun middle =>
            (step middle second).toOption) =
          (step state second).toOption.bind fun middle =>
            (step middle first).toOption)
    {others : List (Key × Value)}
    (distinct : (pairs.map Prod.fst).Nodup) (permuted : others.Perm pairs) :
    (others.foldlM step start).toOption =
      (pairs.foldlM step start).toOption := by
  rw [toOption_foldlM, toOption_foldlM]
  refine (permuted.symm.foldl_eq' ?_ (some start)).symm
  intro first firstMember second secondMember state
  by_cases sameKey : first.1 = second.1
  · rw [List.inj_on_of_nodup_map distinct firstMember secondMember sameKey]
  · cases state with
    | none => rfl
    | some before => exact commute before first second sameKey

variable [DecidableEq Key]

/-- The value of the last pair with a key. -/
def lastValue (key : Key) : List (Key × Value) → Option Value
  | [] => none
  | (other, value) :: later =>
    (lastValue key later).or (if other = key then some value else none)

theorem lastValue_isSome (key : Key) (pairs : List (Key × Value)) :
    (lastValue key pairs).isSome =
      pairs.any fun pair => decide (pair.1 = key) := by
  induction pairs with
  | nil => rfl
  | cons pair later inductionHypothesis =>
    rw [lastValue, Option.isSome_or, inductionHypothesis, List.any_cons]
    by_cases same : pair.1 = key
    · simp [same]
    · simp [same]

/--
What a field holds after a fold: its initial content when no pair has its key,
and something read from the last value under the key otherwise.
-/
def LastRead {Field : Type} (Reads : Value → Field → Prop) (initial : Field) :
    Option Value → Field → Prop
  | none, final => final = initial
  | some value, final => Reads value final

/-- A field written under one key is read from the last value of the key. -/
theorem lastRead_of_foldlM {Field : Type} {field : State → Field} {key : Key}
    {Reads : Value → Field → Prop}
    (writes : ∀ state value next,
      step state (key, value) = .ok next → Reads value (field next))
    (keeps : ∀ state other value next,
      other ≠ key →
        step state (other, value) = .ok next → field next = field state)
    (ran : pairs.foldlM step start = .ok final) :
    LastRead Reads (field start) (lastValue key pairs) (field final) := by
  induction pairs generalizing start with
  | nil =>
    cases ran
    rfl
  | cons pair later inductionHypothesis =>
    obtain ⟨middle, first, rest⟩ := foldlM_cons_ok ran
    have laterRead := inductionHypothesis rest
    rw [lastValue]
    cases lastShape : lastValue key later with
    | some value =>
      rw [lastShape] at laterRead
      exact laterRead
    | none =>
      rw [lastShape] at laterRead
      by_cases same : pair.1 = key
      · have written : Reads pair.2 (field middle) := by
          apply writes start pair.2 middle
          rw [← same]
          exact first
        simpa [same, LastRead, laterRead.symm] using written
      · have kept := keeps start pair.1 pair.2 middle same first
        simpa [same, LastRead, ← kept] using laterRead

/-- A flag raised under one key is up when some pair with the key raised it. -/
theorem flag_of_foldlM {flag : State → Bool} {key : Key} {raises : Value → Bool}
    (writes : ∀ state value next,
      step state (key, value) = .ok next →
        flag next = (flag state || raises value))
    (keeps : ∀ state other value next,
      other ≠ key →
        step state (other, value) = .ok next → flag next = flag state)
    (ran : pairs.foldlM step start = .ok final) :
    flag final =
      (flag start ||
        pairs.any fun pair => decide (pair.1 = key) && raises pair.2) := by
  induction pairs generalizing start with
  | nil =>
    cases ran
    simp
  | cons pair later inductionHypothesis =>
    obtain ⟨middle, first, rest⟩ := foldlM_cons_ok ran
    rw [inductionHypothesis rest, List.any_cons, ← Bool.or_assoc]
    by_cases same : pair.1 = key
    · have written : flag middle = (flag start || raises pair.2) := by
        apply writes start pair.2 middle
        rw [← same]
        exact first
      simp [same, written]
    · simp [same, keeps start pair.1 pair.2 middle same first]

end Folds

end Policyd.Query
