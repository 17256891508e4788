import Policyd.NumeralRows
import Policyd.Readers
import Policyd.RequestAgreement
import Policyd.StoreRefinement

namespace Policyd

/-!
# The golden corpus

A committed file of requests and the decisions they got.  `golden_row` prints
every request field that a decision can depend on and every decision field that
carries policy; `load_golden` reads the file back, and `diff_decisions` compares
what was written with what the engine decides now.
-/

namespace Golden

/-- The first line of a golden file. -/
def kHeader : Str :=
  ("imsi,imei,plmn,tac,rat,dnn,req_5qi,req_flags,local_minute,bytes_used," ++
    "verdict,reason,qos_5qi,arp,ambr_ul_kbps,ambr_dl_kbps,rating_group," ++
    "quota_bytes,quota_validity_s,rule_id,dec_flags,redirect_id").toList

/-- Number of columns. -/
def kFieldCount : Nat := 22

/-- Size of the buffer a row is printed to. -/
def kRowBuffer : Nat := 512

/-- What `snprintf` leaves in a buffer; the last byte is the terminator. -/
def snprintf (size : Nat) (text : Str) : Str :=
  text.take (size - 1)

/-- The request columns of a row. -/
def requestColumns (r : PolicyRequest) : List Nat :=
  [r.imsi.toNat, r.imei.toNat, r.plmn.toNat, r.tac.toNat, r.ratType.toNat,
    r.dnnId.toNat, r.requested5qi.toNat, r.flags.toNat,
    r.localMinute.toNat, r.bytesUsedPeriod.toNat]

/-- The decision columns of a row. -/
def decisionColumns (d : PolicyDecision) : List Nat :=
  [d.verdict.toNat, d.reason.toNat, d.qos5qi.toNat, d.arp.toNat,
    d.ambrUlKbps.toNat, d.ambrDlKbps.toNat, d.ratingGroup.toNat,
    d.quotaBytes.toNat, d.quotaValidityS.toNat, d.ruleId.toNat,
    d.flags.toNat, d.redirectId.toNat]

/-- The text of the header line. -/
def goldenHeader : Str :=
  kHeader

/-- The text of one row. -/
def goldenRow (request : PolicyRequest) (decision : PolicyDecision) : Str :=
  snprintf kRowBuffer
    (numeralRow (requestColumns request ++ decisionColumns decision))

/-- One case of a loaded file. -/
structure GoldenCase where
  request : PolicyRequest := {}
  expected : PolicyDecision := {}
  line : Nat := 0
  deriving Repr, DecidableEq

/-- The cases of a file, or what is wrong with it. -/
structure GoldenLoadResult where
  cases : List GoldenCase := []
  error : Str := []
  deriving Repr, DecidableEq

/-- A result without an error. -/
def GoldenLoadResult.ok (result : GoldenLoadResult) : Bool :=
  result.error = []

/-- Read a number; what is no number reads as zero. -/
def toU64 (text : Str) : UInt64 :=
  ((strtoull 10 (Str.cString text)).map Prod.fst).getD 0

/-- The case of a row, from its numbers in column order. -/
def readCase (lineNo : Nat) (values : List UInt64) : GoldenCase where
  line := lineNo
  request :=
    { magicVersion := kMagicVersion
      imsi := values.getD 0 0
      imei := values.getD 1 0
      plmn := (values.getD 2 0).toUInt32
      tac := (values.getD 3 0).toUInt16
      ratType := (values.getD 4 0).toUInt8
      dnnId := (values.getD 5 0).toUInt8
      requested5qi := (values.getD 6 0).toUInt8
      flags := (values.getD 7 0).toUInt8
      localMinute := (values.getD 8 0).toUInt16
      bytesUsedPeriod := values.getD 9 0 }
  expected :=
    { magicVersion := kMagicVersion
      verdict := (values.getD 10 0).toUInt8
      reason := (values.getD 11 0).toUInt8
      qos5qi := (values.getD 12 0).toUInt8
      arp := (values.getD 13 0).toUInt8
      ambrUlKbps := (values.getD 14 0).toUInt32
      ambrDlKbps := (values.getD 15 0).toUInt32
      ratingGroup := (values.getD 16 0).toUInt32
      quotaBytes := values.getD 17 0
      quotaValidityS := (values.getD 18 0).toUInt32
      ruleId := (values.getD 19 0).toUInt32
      flags := (values.getD 20 0).toUInt8
      redirectId := (values.getD 21 0).toUInt8 }

/-- Why a file with another header is refused. -/
def headerError (path line : Str) : Str :=
  path ++
    (":1: header does not match the current golden format.\n" ++
      "  expected: ").toList ++
    kHeader ++ "\n  found:    ".toList ++ line ++
    "\nRegenerate with: policy-gen-golden --out ".toList ++ path

/-- Why a row with too few columns is refused. -/
def fieldError (path : Str) (lineNo found : Nat) : Str :=
  path ++ ":".toList ++ decimal lineNo ++ ": expected ".toList ++
    decimal kFieldCount ++ " fields, found ".toList ++ decimal found

/-- The loop of `load_golden` from a line on. -/
def loadLines (path : Str) :
    Nat → Bool → List GoldenCase → List Str → GoldenLoadResult
  | _, _, cases, [] =>
    { cases := cases
      error := if cases = [] then path ++ ": no cases".toList else [] }
  | lineNo, headerChecked, cases, raw :: later =>
    let line := Str.trimRight ['\r', ' '] raw
    if line = [] ∨ line.head? = some '#' then
      loadLines path (lineNo + 1) headerChecked cases later
    else if headerChecked = false then
      if line ≠ kHeader then
        { cases := cases, error := headerError path line }
      else
        loadLines path (lineNo + 1) true cases later
    else
      let fields := splitFields line kFieldCount
      if fields.length ≠ kFieldCount then
        { cases := cases
          error := fieldError path lineNo fields.length }
      else
        loadLines path (lineNo + 1) true
          (cases ++ [readCase lineNo (fields.map toU64)]) later

/-- Load a golden file; `none` means that it cannot be opened. -/
def loadGolden (path : Str) (contents : Option Str) : GoldenLoadResult :=
  match contents with
  | none => { error := "cannot open golden file: ".toList ++ path }
  | some text => loadLines path 1 false [] (getlines text)

/-- Add one difference to the text, behind a comma if there is one already. -/
def addDiff (text : Str) (name : String) (expected actual : Str) : Str :=
  text ++ (if text = [] then [] else ", ".toList) ++ name.toList ++
    ": expected ".toList ++ expected ++ " got ".toList ++ actual

/-- Compare one number of two decisions. -/
def cmp (name : String) (expected actual : Nat) (text : Str) : Str :=
  if expected ≠ actual then
    addDiff text name (decimal expected) (decimal actual)
  else
    text

/-- Describe every difference between two decisions. -/
def diffDecisions (e a : PolicyDecision) : Str :=
  let verdict :=
    if e.verdict ≠ a.verdict then
      "verdict: expected ".toList ++ verdictName e.verdict ++
        " got ".toList ++ verdictName a.verdict
    else
      []
  let reason :=
    if e.reason ≠ a.reason then
      addDiff verdict "reason" (reasonName e.reason) (reasonName a.reason)
    else
      verdict
  reason
    |> cmp "rule_id" e.ruleId.toNat a.ruleId.toNat
    |> cmp "qos_5qi" e.qos5qi.toNat a.qos5qi.toNat
    |> cmp "arp" e.arp.toNat a.arp.toNat
    |> cmp "ambr_ul_kbps" e.ambrUlKbps.toNat a.ambrUlKbps.toNat
    |> cmp "ambr_dl_kbps" e.ambrDlKbps.toNat a.ambrDlKbps.toNat
    |> cmp "rating_group" e.ratingGroup.toNat a.ratingGroup.toNat
    |> cmp "quota_bytes" e.quotaBytes.toNat a.quotaBytes.toNat
    |> cmp "quota_validity_s" e.quotaValidityS.toNat a.quotaValidityS.toNat
    |> cmp "flags" e.flags.toNat a.flags.toNat
    |> cmp "redirect_id" e.redirectId.toNat a.redirectId.toNat

/-- What a row keeps of a request. -/
def keptRequest (r : PolicyRequest) : PolicyRequest :=
  { magicVersion := kMagicVersion
    imsi := r.imsi
    imei := r.imei
    plmn := r.plmn
    tac := r.tac
    ratType := r.ratType
    dnnId := r.dnnId
    requested5qi := r.requested5qi
    flags := r.flags
    localMinute := r.localMinute
    bytesUsedPeriod := r.bytesUsedPeriod }

/-- What a row keeps of a decision. -/
def keptDecision (d : PolicyDecision) : PolicyDecision :=
  { magicVersion := kMagicVersion
    verdict := d.verdict
    reason := d.reason
    qos5qi := d.qos5qi
    arp := d.arp
    ambrUlKbps := d.ambrUlKbps
    ambrDlKbps := d.ambrDlKbps
    ratingGroup := d.ratingGroup
    quotaBytes := d.quotaBytes
    quotaValidityS := d.quotaValidityS
    ruleId := d.ruleId
    flags := d.flags
    redirectId := d.redirectId }

/-- The case a row is read back as. -/
def caseOf (row : PolicyRequest × PolicyDecision) (lineNo : Nat) :
    GoldenCase :=
  { request := keptRequest row.1
    expected := keptDecision row.2
    line := lineNo }

section Rows

variable (r : PolicyRequest) (d : PolicyDecision)

/-- The columns of a row. -/
def columns : List Nat :=
  requestColumns r ++ decisionColumns d

theorem columns_lt :
    ∀ value ∈ columns r d, value < 2 ^ 64 := by
  have byte : ∀ field : UInt8, field.toNat < 2 ^ 64 :=
    fun field => field.toNat_lt.trans (by decide)
  have half : ∀ field : UInt16, field.toNat < 2 ^ 64 :=
    fun field => field.toNat_lt.trans (by decide)
  have word : ∀ field : UInt32, field.toNat < 2 ^ 64 :=
    fun field => field.toNat_lt.trans (by decide)
  have wide : ∀ field : UInt64, field.toNat < 2 ^ 64 :=
    fun field => field.toNat_lt
  simp [-Nat.reducePow, columns, requestColumns, decisionColumns, byte,
    half, word, wide]

theorem length_columns :
    (columns r d).length = kFieldCount :=
  rfl

theorem goldenRow_eq :
    goldenRow r d = numeralRow (columns r d) := by
  refine List.take_of_length_le ?_
  have fits : ∀ value ∈ columns r d, value < 10 ^ 20 :=
    fun value member => (columns_lt r d value member).trans (by decide)
  have length := length_numeralRow_le (by decide) fits
  rw [length_columns] at length
  exact length.trans (by decide)

theorem toU64_decimal {number : Nat} (fits : number < 2 ^ 64) :
    toU64 (decimal number) = UInt64.ofNat number := by
  rw [toU64, strtoull_decimal fits]
  rfl

theorem splitFields_goldenRow :
    splitFields (goldenRow r d) kFieldCount = (columns r d).map decimal := by
  have nonempty : columns r d ≠ [] := List.cons_ne_nil _ _
  rw [goldenRow_eq, splitFields, splitOn_numeralRow nonempty]
  rfl

theorem readCase_goldenRow (lineNo : Nat) :
    readCase lineNo
        ((splitFields (goldenRow r d) kFieldCount).map toU64) =
      caseOf (r, d) lineNo := by
  have values :
      ((columns r d).map decimal).map toU64 =
        (columns r d).map UInt64.ofNat := by
    rw [List.map_map]
    refine List.map_congr_left ?_
    intro value member
    exact toU64_decimal (columns_lt r d value member)
  rw [splitFields_goldenRow, values]
  simp [readCase, caseOf, keptRequest, keptDecision, columns,
    requestColumns, decisionColumns]

end Rows

/-- The text of a corpus: the header and one row for each pair. -/
def goldenFile (rows : List (PolicyRequest × PolicyDecision)) : Str :=
  linesText
    (goldenHeader :: rows.map fun row => goldenRow row.1 row.2)

theorem getlines_linesText
    {lines : List Str} (plain : ∀ line ∈ lines, '\n' ∉ line) :
    getlines (linesText lines) = lines := by
  rw [getlines, splitOn_linesText plain]
  simp

theorem goldenRow_kept (r : PolicyRequest) (d : PolicyDecision) :
    Str.trimRight ['\r', ' '] (goldenRow r d) = goldenRow r d ∧
      ¬ (goldenRow r d = [] ∨ (goldenRow r d).head? = some '#') := by
  have nonempty : columns r d ≠ [] := List.cons_ne_nil _ _
  have noDigits : ∀ char ∈ ['\r', ' '], char.isDigit = false := by
    simp [Char.isDigit]
  rw [goldenRow_eq]
  refine ⟨trimRight_numeralRow noDigits _, ?_⟩
  rintro (isEmpty | isComment)
  · exact numeralRow_ne_nil nonempty isEmpty
  · exact absurd (isDigit_of_head?_numeralRow isComment) (by decide)

/-- A row adds its case. -/
theorem loadLines_goldenRow
    (path : Str) (row : PolicyRequest × PolicyDecision) (lineNo : Nat)
    (cases : List GoldenCase) (later : List Str) :
    loadLines path lineNo true cases (goldenRow row.1 row.2 :: later) =
      loadLines path (lineNo + 1) true (cases ++ [caseOf row lineNo])
        later := by
  obtain ⟨trimmed, kept⟩ := goldenRow_kept row.1 row.2
  have allFields :
      (splitFields (goldenRow row.1 row.2) kFieldCount).length =
        kFieldCount := by
    rw [splitFields_goldenRow, List.length_map, length_columns]
  rw [loadLines]
  dsimp only
  rw [trimmed, if_neg kept, if_neg (by decide),
    if_neg (not_not_intro allFields), readCase_goldenRow]

/-- The rows of a file add their cases in order. -/
theorem loadLines_rows
    (path : Str) (rows : List (PolicyRequest × PolicyDecision)) (lineNo : Nat)
    (cases : List GoldenCase) :
    loadLines path lineNo true cases
        (rows.map fun row => goldenRow row.1 row.2) =
      { cases :=
          cases ++ (rows.zipIdx lineNo).map fun row => caseOf row.1 row.2
        error :=
          if cases = [] ∧ rows = [] then
            path ++ ": no cases".toList
          else
            [] } := by
  induction rows generalizing lineNo cases with
  | nil =>
    simp only [List.map_nil, loadLines, List.zipIdx_nil, List.append_nil,
      and_true]
  | cons row later inductionHypothesis =>
    rw [List.map_cons, loadLines_goldenRow, inductionHypothesis,
      List.zipIdx_cons, List.map_cons, List.append_assoc,
      if_neg (by simp), if_neg (by simp)]
    rfl

theorem goldenFile_plain (rows : List (PolicyRequest × PolicyDecision)) :
    ∀ line ∈ goldenHeader :: rows.map fun row => goldenRow row.1 row.2,
      '\n' ∉ line := by
  intro line member
  rcases List.mem_cons.mp member with isHeader | isRow
  · rw [isHeader]
    decide +kernel
  · obtain ⟨row, _, rfl⟩ := List.mem_map.mp isRow
    intro inRow
    rw [goldenRow_eq] at inRow
    exact absurd (mem_numeralRow inRow) (by decide)

/-- A corpus is read back as one case for each row, in order. -/
theorem loadGolden_goldenFile
    (path : Str) (rows : List (PolicyRequest × PolicyDecision)) :
    loadGolden path (some (goldenFile rows)) =
      { cases := (rows.zipIdx 2).map fun row => caseOf row.1 row.2
        error := if rows = [] then path ++ ": no cases".toList else [] } := by
  have headerKept :
      Str.trimRight ['\r', ' '] goldenHeader = kHeader ∧
        ¬ (kHeader = [] ∨ kHeader.head? = some '#') := by
    decide +kernel
  rw [loadGolden, goldenFile, getlines_linesText (goldenFile_plain rows),
    loadLines]
  dsimp only
  rw [headerKept.1, if_neg headerKept.2, if_pos rfl, if_neg (by simp),
    loadLines_rows]
  simp only [true_and, List.nil_append]

/-- Two decisions agree in the columns of a row. -/
structure Agree (e a : PolicyDecision) : Prop where
  verdict : e.verdict = a.verdict
  reason : e.reason = a.reason
  qos5qi : e.qos5qi = a.qos5qi
  arp : e.arp = a.arp
  ambrUlKbps : e.ambrUlKbps = a.ambrUlKbps
  ambrDlKbps : e.ambrDlKbps = a.ambrDlKbps
  ratingGroup : e.ratingGroup = a.ratingGroup
  quotaBytes : e.quotaBytes = a.quotaBytes
  quotaValidityS : e.quotaValidityS = a.quotaValidityS
  ruleId : e.ruleId = a.ruleId
  flags : e.flags = a.flags
  redirectId : e.redirectId = a.redirectId

theorem addDiff_ne_nil (text : Str) (name : String) (expected actual : Str) :
    addDiff text name expected actual ≠ [] := by
  simp [addDiff]

/-- A comparison adds nothing exactly when the numbers agree. -/
@[simp] theorem cmp_eq_nil (name : String) (expected actual : Nat)
    (text : Str) :
    cmp name expected actual text = [] ↔ text = [] ∧ expected = actual := by
  unfold cmp
  by_cases differs : expected ≠ actual
  · rw [if_pos differs]
    simp [addDiff_ne_nil, differs]
  · rw [if_neg differs]
    simp [not_not.mp differs]

/-- The description is empty exactly when the decisions agree. -/
theorem diffDecisions_eq_nil_iff (e a : PolicyDecision) :
    diffDecisions e a = [] ↔ Agree e a := by
  have verdictText :
      (if e.verdict ≠ a.verdict then
          "verdict: expected ".toList ++ verdictName e.verdict ++
            " got ".toList ++ verdictName a.verdict
        else []) = [] ↔ e.verdict = a.verdict := by
    by_cases differs : e.verdict ≠ a.verdict
    · rw [if_pos differs]
      simp [differs]
    · rw [if_neg differs]
      simp [not_not.mp differs]
  have reasonText :
      ∀ text : Str,
        (if e.reason ≠ a.reason then
            addDiff text "reason" (reasonName e.reason) (reasonName a.reason)
          else text) = [] ↔ text = [] ∧ e.reason = a.reason := by
    intro text
    by_cases differs : e.reason ≠ a.reason
    · rw [if_pos differs]
      simp [addDiff_ne_nil, differs]
    · rw [if_neg differs]
      simp [not_not.mp differs]
  simp only [diffDecisions, cmp_eq_nil, reasonText, verdictText,
    UInt8.toNat_inj, UInt32.toNat_inj, UInt64.toNat_inj]
  constructor
  · rintro ⟨⟨⟨⟨⟨⟨⟨⟨⟨⟨⟨verdict, reason⟩, ruleId⟩, qos5qi⟩, arp⟩,
      ambrUlKbps⟩, ambrDlKbps⟩, ratingGroup⟩, quotaBytes⟩,
      quotaValidityS⟩, flags⟩, redirectId⟩
    exact ⟨verdict, reason, qos5qi, arp, ambrUlKbps, ambrDlKbps,
      ratingGroup, quotaBytes, quotaValidityS, ruleId, flags, redirectId⟩
  · intro agree
    exact ⟨⟨⟨⟨⟨⟨⟨⟨⟨⟨⟨agree.verdict, agree.reason⟩, agree.ruleId⟩,
      agree.qos5qi⟩, agree.arp⟩, agree.ambrUlKbps⟩, agree.ambrDlKbps⟩,
      agree.ratingGroup⟩, agree.quotaBytes⟩, agree.quotaValidityS⟩,
      agree.flags⟩, agree.redirectId⟩

/-- The decision on a request; `none` if the subscriber search is endless. -/
def decideIn
    (ruleSet : RuleSet) (store : SubscriberStore) (now : UInt64)
    (request : PolicyRequest) :
    Option PolicyDecision :=
  (store.find request.imsi).map fun record =>
    evaluate ruleSet request record now

theorem keptRequest_alike (r : PolicyRequest) :
    (keptRequest r).Alike r :=
  { imei := rfl
    plmn := rfl
    dnnId := rfl
    ratType := rfl
    gbr := rfl
    minute := rfl
    tethering := rfl
    emergency := rfl
    usageValid := rfl
    usage := fun _ => rfl }

/-- What a row keeps of a request gets a decision that agrees with its row. -/
theorem decideIn_keptRequest
    {ruleSet : RuleSet} {store : SubscriberStore} {now : UInt64}
    {request : PolicyRequest} {decision : PolicyDecision}
    (decided : decideIn ruleSet store now request = some decision) :
    ∃ actual,
      decideIn ruleSet store now (keptRequest request) = some actual ∧
        Agree (keptDecision decision) actual := by
  obtain ⟨record, found, rfl⟩ := Option.map_eq_some_iff.mp decided
  have sameFields :=
    evaluate_of_alike (keptRequest_alike request) ruleSet record now
  refine ⟨evaluate ruleSet (keptRequest request) record now, ?_, ?_⟩
  · rw [decideIn]
    show (store.find request.imsi).map _ = _
    rw [found]
    rfl
  · exact
      { verdict := (congrArg PolicyDecision.verdict sameFields).symm
        reason := (congrArg PolicyDecision.reason sameFields).symm
        qos5qi := (congrArg PolicyDecision.qos5qi sameFields).symm
        arp := (congrArg PolicyDecision.arp sameFields).symm
        ambrUlKbps := (congrArg PolicyDecision.ambrUlKbps sameFields).symm
        ambrDlKbps := (congrArg PolicyDecision.ambrDlKbps sameFields).symm
        ratingGroup :=
          (congrArg PolicyDecision.ratingGroup sameFields).symm
        quotaBytes := (congrArg PolicyDecision.quotaBytes sameFields).symm
        quotaValidityS :=
          (congrArg PolicyDecision.quotaValidityS sameFields).symm
        ruleId := (congrArg PolicyDecision.ruleId sameFields).symm
        flags := (congrArg PolicyDecision.flags sameFields).symm
        redirectId := (congrArg PolicyDecision.redirectId sameFields).symm }

private theorem map_zipIdx_fst {Value : Type}
    (kept : PolicyRequest × PolicyDecision → Value)
    (rows : List (PolicyRequest × PolicyDecision)) :
    (rows.zipIdx 2).map (fun row => kept row.1) = rows.map kept := by
  nth_rewrite 2 [← List.zipIdx_map_fst 2 rows]
  rw [List.map_map]
  rfl

/-- Loading a corpus of decided requests and replaying its cases. -/
theorem loadGolden_of_decided
    {ruleSet : RuleSet} {store : SubscriberStore} {now : UInt64}
    (path : Str)
    {requests : List PolicyRequest} {decisions : List PolicyDecision}
    (decided : requests.mapM (decideIn ruleSet store now) = some decisions) :
    ∃ cases,
      loadGolden path (some (goldenFile (requests.zip decisions))) =
          { cases := cases
            error :=
              if requests = [] then path ++ ": no cases".toList else [] } ∧
        cases.map GoldenCase.request = requests.map keptRequest ∧
        cases.map GoldenCase.expected = decisions.map keptDecision ∧
        ∀ golden ∈ cases, ∃ actual,
          decideIn ruleSet store now golden.request = some actual ∧
            diffDecisions golden.expected actual = [] := by
  have pairs := mapM_eq_some_iff.mp decided
  have sameLength : requests.length = decisions.length := pairs.length_eq
  have noRows : requests.zip decisions = [] ↔ requests = [] := by
    rw [← List.length_eq_zero_iff, List.length_zip, ← sameLength,
      Nat.min_self, List.length_eq_zero_iff]
  refine ⟨((requests.zip decisions).zipIdx 2).map fun row =>
    caseOf row.1 row.2, ?_, ?_, ?_, ?_⟩
  · rw [loadGolden_goldenFile]
    simp only [noRows]
  · rw [List.map_map]
    refine (map_zipIdx_fst (keptRequest ∘ Prod.fst) _).trans ?_
    rw [← List.map_map, List.map_fst_zip sameLength.le]
  · rw [List.map_map]
    refine (map_zipIdx_fst (keptDecision ∘ Prod.snd) _).trans ?_
    rw [← List.map_map, List.map_snd_zip sameLength.ge]
  · intro golden member
    obtain ⟨⟨⟨request, decision⟩, line⟩, rowMember, rfl⟩ :=
      List.mem_map.mp member
    have written : (request, decision) ∈ requests.zip decisions :=
      List.fst_mem_of_mem_zipIdx rowMember
    obtain ⟨actual, again, agree⟩ :=
      decideIn_keptRequest (List.forall₂_zip pairs written)
    exact ⟨actual, again, (diffDecisions_eq_nil_iff _ _).mpr agree⟩

/-- The search of a valid store ends, so every request is decided. -/
theorem exists_decisions {store : SubscriberStore}
    (invariant : StoreInvariant store) (ruleSet : RuleSet) (now : UInt64)
    (requests : List PolicyRequest) :
    ∃ decisions,
      requests.mapM (decideIn ruleSet store now) = some decisions := by
  refine ⟨requests.map fun request =>
    evaluate ruleSet request (store.records request.imsi) now, ?_⟩
  rw [mapM_eq_some_iff, List.forall₂_map_right_iff]
  refine List.forall₂_same.mpr ?_
  intro request _
  rw [decideIn, invariant.find_eq]
  rfl

/--
A corpus written with the decisions of a rule set is read back as one case for
each request, in order, and every case replays without a difference.  The
comparison is empty exactly when the decisions agree in every column.
-/
theorem golden_corpus_replays_clean
    (ruleSet : RuleSet)
    {store : SubscriberStore}
    (invariant : StoreInvariant store)
    (now : UInt64)
    (path : Str)
    (requests : List PolicyRequest) :
    (∃ decisions cases,
      requests.mapM (decideIn ruleSet store now) = some decisions ∧
        loadGolden path (some (goldenFile (requests.zip decisions))) =
          { cases := cases
            error :=
              if requests = [] then path ++ ": no cases".toList else [] } ∧
        cases.map GoldenCase.request = requests.map keptRequest ∧
        cases.map GoldenCase.expected = decisions.map keptDecision ∧
        ∀ golden ∈ cases, ∃ actual,
          decideIn ruleSet store now golden.request = some actual ∧
            diffDecisions golden.expected actual = []) ∧
      ∀ e a, diffDecisions e a = [] ↔ Agree e a := by
  obtain ⟨decisions, decided⟩ :=
    exists_decisions invariant ruleSet now requests
  obtain ⟨cases, loaded⟩ := loadGolden_of_decided path decided
  exact ⟨⟨decisions, cases, decided, loaded⟩, diffDecisions_eq_nil_iff⟩

/-- A corpus of one request to a server without subscribers. -/
theorem golden_corpus_replays_clean_unknown_subscriber :
    ∃ decisions cases,
      [{ imsi := 7, seq := 3 }].mapM
            (decideIn {} (SubscriberStore.create 4 (1 / 2)) 0) =
          some decisions ∧
        loadGolden "golden.csv".toList
            (some
              (goldenFile
                ([{ imsi := 7, seq := 3 }].zip decisions))) =
          { cases := cases } ∧
        ∀ golden ∈ cases, ∃ actual,
          decideIn {} (SubscriberStore.create 4 (1 / 2)) 0 golden.request =
              some actual ∧
            diffDecisions golden.expected actual = [] := by
  obtain ⟨⟨decisions, cases, decided, loaded, _, _, replayed⟩, _⟩ :=
    golden_corpus_replays_clean {}
      (SubscriberStore.create_invariant 4 (1 / 2)).1 0
      "golden.csv".toList [{ imsi := 7, seq := 3 }]
  exact ⟨decisions, cases, decided, loaded, replayed⟩

end Golden

end Policyd
