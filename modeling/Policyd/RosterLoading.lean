import Policyd.Roster

namespace Policyd

/-!
# What loading a roster does

Every line that is neither blank nor a comment is a data row, a first one that
starts with `imsi` apart.  A data row is stored or counted and reported; the
report is cut off, the count is not.  A subscriber ends up with the record of
the last row stored for it.  Usage and reset time are accumulated without a
bound, so a numeral past 64 bits is stored wrapped.
-/

/-- Whether a trimmed line is neither blank nor a comment. -/
def isContentRow (row : Str) : Bool :=
  row != [] && row.head? != some '#'

/-- The trimmed lines that are neither blank nor comments. -/
def contentRows (lines : List Str) : List Str :=
  (lines.map trimField).filter isContentRow

/-- Rows less a first one that starts with `imsi`. -/
def withoutHeader : List Str → List Str
  | [] => []
  | first :: later =>
    if first.take 4 = "imsi".toList then later else first :: later

/-- The data rows of a roster; one that cannot be opened has none. -/
def dataRows (contents : Option Str) : List Str :=
  match contents with
  | none => []
  | some text => withoutHeader (contentRows (getlines text))

/-- The record built from a row that is accepted for an IMSI. -/
def acceptedRecord
    (planNames : List Str) (imsi : UInt64)
    (row : Str) : Option SubscriberRecord :=
  if parseImsi (rosterField row 0) = some imsi then
    (parseRow planNames row).toOption
  else
    none

/-- The record built from the last row accepted for an IMSI. -/
def lastAccepted
    (planNames rows : List Str)
    (imsi : UInt64) : Option SubscriberRecord :=
  (rows.filterMap (acceptedRecord planNames imsi)).getLast?

/-- What a data row does to the records of a store. -/
def absorbRow
    (planNames : List Str) (records : UInt64 → Option SubscriberRecord)
    (row : Str) : UInt64 → Option SubscriberRecord :=
  match parseRow planNames row with
  | .error _ => records
  | .ok record => upsertRecords records record

/-- One row replaces the record of the IMSI it is accepted for. -/
theorem absorbRow_eq
    (planNames : List Str) (records : UInt64 → Option SubscriberRecord)
    (row : Str) (imsi : UInt64) :
    absorbRow planNames records row imsi =
      (acceptedRecord planNames imsi row).or (records imsi) := by
  rw [absorbRow, acceptedRecord]
  cases read : parseRow planNames row with
  | error message => simp [Except.toOption]
  | ok record =>
    have rowRead := rowRead_of_ok read
    simp only [upsertRecords, if_neg rowRead.provisioned, rowRead.imsi,
      Except.toOption]
    by_cases same : imsi = record.imsi
    · subst same
      simp
    · rw [Function.update_of_ne same, if_neg]
      · rfl
      · exact fun other => same (Option.some.inj other).symm

/-- After all rows an IMSI has the record of the last row accepted for it. -/
theorem foldl_absorbRow_eq
    (planNames rows : List Str) (records : UInt64 → Option SubscriberRecord)
    (imsi : UInt64) :
    rows.foldl (absorbRow planNames) records imsi =
      (lastAccepted planNames rows imsi).or (records imsi) := by
  induction rows using List.reverseRecOn with
  | nil => rfl
  | append_singleton earlier row inductionHypothesis =>
    rw [List.foldl_append, List.foldl_cons, List.foldl_nil, absorbRow_eq,
      inductionHypothesis, lastAccepted, lastAccepted,
      List.filterMap_append]
    cases accepted : acceptedRecord planNames imsi row with
    | none => simp [accepted]
    | some record => simp [accepted]

/-- What the loader has done between two states in which it met some rows. -/
structure Absorbs
    (planNames rows : List Str)
    (state next : LoadState) : Prop where
  invariant : StoreInvariant next.store
  records :
    next.store.records =
      rows.foldl (absorbRow planNames) state.store.records
  counted :
    next.result.loaded + next.result.skipped =
      state.result.loaded + state.result.skipped + rows.length
  skipped_le : state.result.skipped ≤ next.result.skipped
  reported :
    next.result.errors = [] ↔
      state.result.errors = [] ∧
        next.result.skipped = state.result.skipped

namespace Absorbs

variable {planNames first second : List Str}
variable {state middle next : LoadState}

/-- Rows met one after the other. -/
theorem trans (earlier : Absorbs planNames first state middle)
    (later : Absorbs planNames second middle next) :
    Absorbs planNames (first ++ second) state next where
  invariant := later.invariant
  records := by
    rw [later.records, earlier.records, List.foldl_append]
  counted := by
    rw [later.counted, earlier.counted, List.length_append, Nat.add_assoc]
  skipped_le := earlier.skipped_le.trans later.skipped_le
  reported := by
    have earlierLe := earlier.skipped_le
    have laterLe := later.skipped_le
    rw [later.reported, earlier.reported]
    constructor
    · rintro ⟨⟨clean, same⟩, sameLater⟩
      exact ⟨clean, sameLater.trans same⟩
    · rintro ⟨clean, same⟩
      exact ⟨⟨clean, by omega⟩, by omega⟩

end Absorbs

variable {planNames : List Str} {state : LoadState}

theorem Absorbs.skip (invariant : StoreInvariant state.store) (lineNo : Nat)
    (headerSeen : Bool) :
    Absorbs planNames [] state
      { state with lineNo := lineNo, headerSeen := headerSeen } where
  invariant := invariant
  records := rfl
  counted := rfl
  skipped_le := le_rfl
  reported := (and_iff_left rfl).symm

/-- A report that a row was noted in is not empty. -/
theorem LoadResult.errors_note_ne_nil
    (result : LoadResult) (path : Str) (lineNo : Nat) (message : Str) :
    (result.note path lineNo message).errors ≠ [] := by
  simp only [LoadResult.note]
  split
  · simp
  · split
    · simp
    · rename_i full _
      rintro isEmpty
      rw [isEmpty] at full
      exact full (by decide)

/-- The data rows still to come. -/
def pendingRows (headerSeen : Bool) (lines : List Str) : List Str :=
  if headerSeen then
    contentRows lines
  else
    withoutHeader (contentRows lines)

/-- A rejected row is counted and reported. -/
theorem Absorbs.note (invariant : StoreInvariant state.store)
    {row message : Str}
    (rejected : parseRow planNames row = .error message) (path : Str)
    (lineNo : Nat) :
    Absorbs planNames [row] state
      { state with result := state.result.note path lineNo message } where
  invariant := invariant
  records := by
    rw [List.foldl_cons, List.foldl_nil, absorbRow, rejected]
  counted := (Nat.add_assoc _ _ _).symm
  skipped_le := Nat.le_succ _
  reported := by
    refine iff_of_false (LoadResult.errors_note_ne_nil _ _ _ _) ?_
    rintro ⟨_, same⟩
    exact Nat.succ_ne_self _ same

/-- An accepted row is stored and counted. -/
theorem Absorbs.store {row : Str} {record : SubscriberRecord}
    (accepted : parseRow planNames row = .ok record)
    {store : SubscriberStore}
    (effect :
      StoreEffect state.store store
        (upsertRecords state.store.records record)) :
    Absorbs planNames [row] state
      { state with
        store := store
        result :=
          { state.result with loaded := state.result.loaded + 1 } } where
  invariant := effect.invariant
  records := by
    rw [List.foldl_cons, List.foldl_nil, absorbRow, accepted, effect.records]
  counted := Nat.add_right_comm _ _ _
  skipped_le := le_rfl
  reported := (and_iff_left rfl).symm

/-- One line meets its data row, if it has one. -/
theorem exists_absorbs_line (path : Str) (planNames : List Str)
    (invariant : StoreInvariant state.store) (line : Str) :
    ∃ next rows,
      loadLine path planNames state line = some next ∧
        Absorbs planNames rows state next ∧
        ∀ later,
          pendingRows state.headerSeen (line :: later) =
            rows ++ pendingRows next.headerSeen later := by
  simp only [loadLine]
  split
  next empty =>
    refine ⟨_, [], rfl, Absorbs.skip invariant _ _, ?_⟩
    intro later
    have noContent : isContentRow (trimField line) = false := by
      rcases empty with blank | comment
      · simp [isContentRow, blank]
      · simp [isContentRow, comment]
    simp [pendingRows, contentRows, noContent]
  next content =>
    have isContent : isContentRow (trimField line) = true := by
      simpa [isContentRow] using content
    split
    next header =>
      refine ⟨_, [], rfl, Absorbs.skip invariant _ _, ?_⟩
      intro later
      simp [pendingRows, contentRows, isContent, header.1, withoutHeader,
        header.2]
    next noHeader =>
      have pending (later : List Str) :
          pendingRows state.headerSeen (line :: later) =
            [trimField line] ++ pendingRows true later := by
        cases headerSeen : state.headerSeen with
        | true => simp [pendingRows, contentRows, isContent]
        | false =>
          have notImsi : (trimField line).take 4 ≠ "imsi".toList :=
            fun isImsi => noHeader ⟨headerSeen, isImsi⟩
          simpa [pendingRows, contentRows, isContent, withoutHeader]
            using notImsi
      have moved :
          Absorbs planNames [] state
            { state with
              lineNo := state.lineNo + 1
              headerSeen := true } :=
        Absorbs.skip invariant _ _
      split
      next message rejected =>
        exact ⟨_, _, rfl,
          moved.trans (Absorbs.note moved.invariant rejected _ _), pending⟩
      next record accepted =>
        obtain ⟨store, upserted, effect⟩ :=
          SubscriberStore.upsert_spec invariant record
        rw [upserted]
        exact ⟨_, _, rfl, moved.trans (Absorbs.store accepted effect), pending⟩

/-- All lines meet their data rows in order. -/
theorem exists_absorbs_lines
    (path : Str) (planNames : List Str) (lines : List Str)
    (invariant : StoreInvariant state.store) :
    ∃ next,
      lines.foldlM (loadLine path planNames) state = some next ∧
        Absorbs planNames (pendingRows state.headerSeen lines)
          state next := by
  induction lines generalizing state with
  | nil =>
    refine ⟨state, rfl, ?_⟩
    have nothing : pendingRows state.headerSeen [] = [] := by
      cases state.headerSeen <;> rfl
    rw [nothing]
    exact Absorbs.skip invariant _ _
  | cons line later inductionHypothesis =>
    obtain ⟨middle, rows, loaded, absorbed, split⟩ :=
      exists_absorbs_line path planNames invariant line
    obtain ⟨next, rest, absorbedLater⟩ := inductionHypothesis absorbed.invariant
    refine ⟨next, ?_, ?_⟩
    · rw [List.foldlM_cons, loaded]
      exact rest
    · rw [split later]
      exact absorbed.trans absorbedLater

/-- Loading a roster into a valid store. -/
theorem exists_absorbs_csv {store : SubscriberStore}
    (invariant : StoreInvariant store) (path : Str) (contents : Option Str)
    (planNames : List Str) :
    ∃ after result,
      store.loadCsv path contents planNames = some (after, result) ∧
        StoreInvariant after ∧
        after.records =
          (dataRows contents).foldl (absorbRow planNames) store.records ∧
        result.loaded + result.skipped = (dataRows contents).length ∧
        (result.errors = [] ↔ contents.isSome = true ∧ result.skipped = 0) := by
  cases contents with
  | none => exact ⟨store, _, rfl, invariant, rfl, rfl, by simp⟩
  | some text =>
    have startInvariant :
        StoreInvariant ({ store := store } : LoadState).store :=
      invariant
    obtain ⟨next, loaded, absorbed⟩ :=
      exists_absorbs_lines path planNames (getlines text) startInvariant
    refine ⟨next.store, next.result, ?_, absorbed.invariant,
      absorbed.records, ?_, ?_⟩
    · rw [SubscriberStore.loadCsv, loaded]
      rfl
    · rw [absorbed.counted]
      exact Nat.zero_add _
    · rw [absorbed.reported]
      simp

/-- The stores a program can hold: made, called on and loaded into. -/
inductive SubscriberStore.Constructed : SubscriberStore → Prop
  | create (expectedSubscribers : Nat) (maxLoadFactor : Rat) :
      Constructed (create expectedSubscribers maxLoadFactor)
  | call
      {store next : SubscriberStore}
      {op : StoreOp}
      (constructed : Constructed store)
      (called : store.apply op = some next) :
      Constructed next
  | load
      {store next : SubscriberStore}
      {path : Str}
      {contents : Option Str}
      {planNames : List Str}
      {result : LoadResult}
      (constructed : Constructed store)
      (loaded : store.loadCsv path contents planNames = some (next, result)) :
      Constructed next

/-- Every store a program can hold is valid. -/
theorem SubscriberStore.Constructed.invariant
    {store : SubscriberStore} (constructed : store.Constructed) :
    StoreInvariant store := by
  induction constructed with
  | create expectedSubscribers maxLoadFactor =>
    exact (create_invariant expectedSubscribers maxLoadFactor).1
  | @call store next op _ called inductionHypothesis =>
    obtain ⟨after, shape, effect⟩ := apply_spec inductionHypothesis op
    cases shape.symm.trans called
    exact effect.invariant
  | @load store next path contents planNames result _ loaded
      inductionHypothesis =>
      obtain ⟨after, report, shape, afterInvariant, _⟩ :=
        exists_absorbs_csv inductionHypothesis path contents planNames
      cases shape.symm.trans loaded
      exact afterInvariant

/-- What loading a roster reports and leaves behind. -/
structure RosterLoaded
    (planNames : List Str)
    (contents : Option Str)
    (before after : SubscriberStore)
    (result : LoadResult) : Prop where
  counted : result.loaded + result.skipped = (dataRows contents).length
  ok_iff : result.ok = true ↔ contents.isSome = true ∧ result.skipped = 0
  find :
    ∀ imsi, ∃ previous,
      before.find imsi = some previous ∧
        after.find imsi =
          some ((lastAccepted planNames (dataRows contents) imsi).or previous)

/--
Loading a roster returns, accounts for every data row, reports success exactly
when the file was opened and no row was skipped, and leaves every subscriber
with the record of the last row accepted for it.
-/
theorem loadCsv_last_row_wins
    {store : SubscriberStore}
    (constructed : store.Constructed)
    (path : Str)
    (contents : Option Str)
    (planNames : List Str) :
    ∃ after result,
      store.loadCsv path contents planNames = some (after, result) ∧
        RosterLoaded planNames contents store after result := by
  obtain ⟨after, result, loaded, afterInvariant, records, counted, clean⟩ :=
    exists_absorbs_csv constructed.invariant path contents planNames
  refine ⟨after, result, loaded, counted, ?_, ?_⟩
  · rw [LoadResult.ok, List.isEmpty_iff]
    exact clean
  · intro imsi
    refine ⟨store.records imsi, constructed.invariant.find_eq imsi, ?_⟩
    rw [afterInvariant.find_eq imsi, records, foldl_absorbRow_eq]

/-- A roster with a header, a repeated subscriber and a rejected row. -/
def sampleRoster : Str :=
  ("imsi,imei,plan,status,used,reset,plmn\n" ++
    "310260100000001,0,basic,ACTIVE,7,0,310260\n" ++
    "# replaced below\n" ++
    "310260100000001,0,basic,ACTIVE,9,0,310260\n" ++
    "310260100000002,0,gold,ACTIVE,9,0,310260\n").toList

/-- The sample roster is loaded into a new store. -/
theorem sample_roster_loaded :
    (SubscriberStore.create 4 (1 / 2)).Constructed ∧
      ∃ after result,
        (SubscriberStore.create 4 (1 / 2)).loadCsv "r.csv".toList
            (some sampleRoster) ["basic".toList] = some (after, result) ∧
          RosterLoaded ["basic".toList] (some sampleRoster)
            (SubscriberStore.create 4 (1 / 2)) after result :=
  ⟨.create 4 (1 / 2),
    loadCsv_last_row_wins (.create 4 (1 / 2)) "r.csv".toList
      (some sampleRoster) ["basic".toList]⟩

/-- A number that is the value of the decimal numeral it was read from. -/
structure HoldsNumeral (text : Str) (number : UInt64) : Prop where
  nonempty : text ≠ []
  digits : text.all Char.isDigit = true
  value : number.toNat = numeralValue text

/-- The usage and the reset time of a row are stored as they are written. -/
structure NumbersExact (row : Str) (record : SubscriberRecord) : Prop where
  used : HoldsNumeral (rosterField row 4) record.bytesUsedPeriod
  resetTs : HoldsNumeral (rosterField row 5) record.periodResetTs

/-- A number that is read is a numeral, stored exactly when it fits. -/
theorem holdsNumeral_iff_of_parseU64
    {text : Str} {number : UInt64} (read : parseU64 text = some number) :
    HoldsNumeral (trimField text) number ↔
      numeralValue (trimField text) < 2 ^ 64 := by
  simp only [parseU64, digitLoop_zero_eq] at read
  split at read
  · cases read
  next nonempty =>
    split at read
    next digits =>
      cases read
      constructor
      · intro exactly
        rw [← exactly.value]
        exact UInt64.toNat_lt _
      · intro fits
        exact ⟨nonempty, digits, UInt64.toNat_ofNat_of_lt' fits⟩
    · cases read

/--
The record of an accepted row is what the store then holds for its IMSI.  Its
usage and its reset time are those written in the row exactly when both
numerals fit 64 bits.
-/
theorem accepted_numbers_exact_iff
    {store : SubscriberStore}
    (constructed : store.Constructed)
    {planNames : List Str}
    {row : Str}
    {record : SubscriberRecord}
    (accepted : parseRow planNames row = .ok record) :
    (∃ next,
      store.upsert record = some (next, true) ∧
        next.find record.imsi = some (some record)) ∧
      (NumbersExact row record ↔
        numeralValue (rosterField row 4) < 2 ^ 64 ∧
          numeralValue (rosterField row 5) < 2 ^ 64) := by
  have rowRead := rowRead_of_ok accepted
  constructor
  · obtain ⟨next, upserted, effect⟩ :=
      SubscriberStore.upsert_spec constructed.invariant record
    refine ⟨next, ?_, ?_⟩
    · rw [upserted, bne_iff_ne.mpr rowRead.provisioned]
    · rw [effect.invariant.find_eq, effect.records, upsertRecords,
        if_neg rowRead.provisioned, Function.update_self]
  · have usedExact := holdsNumeral_iff_of_parseU64 rowRead.used
    have resetExact := holdsNumeral_iff_of_parseU64 rowRead.resetTs
    constructor
    · intro exactly
      exact ⟨usedExact.mp exactly.used, resetExact.mp exactly.resetTs⟩
    · rintro ⟨usedFits, resetFits⟩
      exact ⟨usedExact.mpr usedFits, resetExact.mpr resetFits⟩

/-- A row with small numbers. -/
def plainRow : Str :=
  "310260100000001,0,basic,ACTIVE,9,12,310260".toList

/-- The record of the plain row. -/
def plainRecord : SubscriberRecord where
  imsi := 310260100000001
  bytesUsedPeriod := 9
  periodResetTs := 12
  homePlmn := 310260

/-- The numbers of the plain row are stored as they are written. -/
theorem plain_row_numbers_exact :
    parseRow ["basic".toList] plainRow = .ok plainRecord ∧
      NumbersExact plainRow plainRecord := by
  have accepted : parseRow ["basic".toList] plainRow = .ok plainRecord := by
    decide +kernel
  exact ⟨accepted,
    (accepted_numbers_exact_iff (.create 4 (1 / 2)) accepted).2.mpr
      (by decide +kernel)⟩

/-- A roster whose usage is one past `2 ^ 64`. -/
def wrappingRoster : Str :=
  "310260100000001,0,basic,ACTIVE,18446744073709551617,0,310260".toList

/-- The record stored for it. -/
def wrappedRecord : SubscriberRecord where
  imsi := 310260100000001
  bytesUsedPeriod := 1
  homePlmn := 310260

/-- The row is accepted, and the stored usage is one. -/
theorem wrapping_row_loaded :
    (∃ after result,
      (SubscriberStore.create 4 (1 / 2)).loadCsv "r.csv".toList
          (some wrappingRoster) ["basic".toList] = some (after, result) ∧
        result.loaded = 1 ∧ result.skipped = 0 ∧
        after.find 310260100000001 = some (some wrappedRecord)) ∧
      rosterField wrappingRoster 4 = "18446744073709551617".toList ∧
      ¬ NumbersExact wrappingRoster wrappedRecord := by
  have fieldShape :
      rosterField wrappingRoster 4 = "18446744073709551617".toList := by
    decide +kernel
  refine ⟨?_, fieldShape, ?_⟩
  · have tested :
        ((SubscriberStore.create 4 (1 / 2)).loadCsv "r.csv".toList
            (some wrappingRoster) ["basic".toList]).any
          (fun (after, result) =>
            result.loaded == 1 && result.skipped == 0 &&
              after.find 310260100000001 == some (some wrappedRecord)) =
          true := by
      decide +kernel
    cases loaded :
        (SubscriberStore.create 4 (1 / 2)).loadCsv "r.csv".toList
          (some wrappingRoster) ["basic".toList] with
    | none =>
      rw [loaded] at tested
      cases tested
    | some pair =>
      rw [loaded, Option.any_some] at tested
      simp only [Bool.and_eq_true, beq_iff_eq] at tested
      exact ⟨pair.1, pair.2, rfl, tested.1.1, tested.1.2, tested.2⟩
  · intro exactly
    have value := exactly.used.value
    rw [fieldShape] at value
    exact absurd value (by decide +kernel)

end Policyd
