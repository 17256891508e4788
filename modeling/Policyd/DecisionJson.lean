import Policyd.HttpPipelining
import Policyd.LabelledText

namespace Policyd.HttpFront

open LabelledText

/-!
# Decisions as JSON

A decision is printed as one JSON object of thirteen members with fixed names.
Names and numerals consist of letters, digits and underscores, and what follows
them never starts with one, so the text determines the members.  The longest
text leaves room for the longest header.
-/

/-- The symbols of names and numerals. -/
def isWordChar (char : Char) : Bool :=
  char.isAlphanum || char == '_'

/-- The texts in front of the members of a decision. -/
def jsonLabels : List Str :=
  ["\x7b\"verdict\":\"".toList, "\",\"reason\":\"".toList,
    "\",\"rule_id\":".toList, ",\"policy_version\":".toList,
    ",\"qos_5qi\":".toList, ",\"arp\":".toList,
    ",\"ambr_ul_kbps\":".toList, ",\"ambr_dl_kbps\":".toList,
    ",\"rating_group\":".toList, ",\"quota_bytes\":".toList,
    ",\"quota_validity_s\":".toList, ",\"flags\":".toList,
    ",\"redirect_id\":".toList]

/-- The members of a decision as they are printed. -/
def jsonValues (decision : PolicyDecision) : List Str :=
  [verdictName decision.verdict, reasonName decision.reason,
    decimal decision.ruleId.toNat, decimal decision.policyVersion.toNat,
    decimal decision.qos5qi.toNat, decimal decision.arp.toNat,
    decimal decision.ambrUlKbps.toNat, decimal decision.ambrDlKbps.toNat,
    decimal decision.ratingGroup.toNat, decimal decision.quotaBytes.toNat,
    decimal decision.quotaValidityS.toNat, decimal decision.flags.toNat,
    decimal decision.redirectId.toNat]

theorem decisionText_eq_render (decision : PolicyDecision) :
    decisionText decision =
      render "\x7d\n".toList jsonLabels (jsonValues decision) := by
  rw [← flatten_interleave]
  rfl

theorem decimal_all_word (number : Nat) :
    (decimal number).all isWordChar = true := by
  rw [List.all_eq_true]
  intro char member
  have digit := List.all_eq_true.mp (decimal_all_digits number) char member
  simp [isWordChar, Char.isAlphanum, digit]

theorem verdictName_all_word (verdict : UInt8) :
    (verdictName verdict).all isWordChar = true := by
  unfold verdictName
  split_ifs <;> decide

theorem reasonName_all_word (reason : UInt8) :
    (reasonName reason).all isWordChar = true := by
  unfold reasonName
  cases Reason.all.find? (·.code == reason) with
  | none => decide
  | some known => cases known <;> decide

theorem jsonValues_all_word (decision : PolicyDecision) :
    ∀ value ∈ jsonValues decision, value.all isWordChar = true := by
  simp only [jsonValues, List.forall_mem_cons, List.not_mem_nil,
    false_implies, implies_true, decimal_all_word,
    verdictName_all_word, reasonName_all_word, and_self]

theorem decimal_injective :
    Function.Injective decimal := by
  intro first second same
  rw [← numeralValue_decimal first, same, numeralValue_decimal]

/-- Different verdicts have different names. -/
theorem verdictName_injOn {first second : UInt8}
    (firstKnown : first ≤ 2) (secondKnown : second ≤ 2)
    (same : verdictName first = verdictName second) :
    first = second := by
  have known {verdict : UInt8} (low : verdict ≤ 2) :
      verdict = 0 ∨ verdict = 1 ∨ verdict = 2 := by
    simp only [UInt8.le_iff_toNat_le, ← UInt8.toNat_inj,
      UInt8.reduceToNat] at low ⊢
    omega
  rcases known firstKnown with rfl | rfl | rfl <;>
    rcases known secondKnown with rfl | rfl | rfl <;>
    first
      | rfl
      | exact absurd same (by decide)

theorem exists_reason {reason : UInt8} (known : reason.toNat < Reason.kCount) :
    ∃ named : Reason, named ∈ Reason.all ∧ named.code = reason := by
  have every :
      ∀ number < Reason.kCount,
        ∃ named ∈ Reason.all, named.code = UInt8.ofNat number := by
    decide
  obtain ⟨named, member, code⟩ := every reason.toNat known
  exact ⟨named, member, code.trans UInt8.ofNat_toNat⟩

theorem reasonName_injOn {first second : UInt8}
    (firstKnown : first.toNat < Reason.kCount)
    (secondKnown : second.toNat < Reason.kCount)
    (same : reasonName first = reasonName second) :
    first = second := by
  obtain ⟨firstNamed, firstMember, rfl⟩ := exists_reason firstKnown
  obtain ⟨secondNamed, secondMember, rfl⟩ := exists_reason secondKnown
  have every :
      ∀ named ∈ Reason.all, ∀ other ∈ Reason.all,
        reasonName named.code = reasonName other.code →
          named.code = other.code := by
    decide +kernel
  exact every firstNamed firstMember secondNamed secondMember same

/-- Two decisions agree in every member that is printed. -/
structure SameMembers (first second : PolicyDecision) : Prop where
  verdict : first.verdict = second.verdict
  reason : first.reason = second.reason
  ruleId : first.ruleId = second.ruleId
  policyVersion : first.policyVersion = second.policyVersion
  qos5qi : first.qos5qi = second.qos5qi
  arp : first.arp = second.arp
  ambrUlKbps : first.ambrUlKbps = second.ambrUlKbps
  ambrDlKbps : first.ambrDlKbps = second.ambrDlKbps
  ratingGroup : first.ratingGroup = second.ratingGroup
  quotaBytes : first.quotaBytes = second.quotaBytes
  quotaValidityS : first.quotaValidityS = second.quotaValidityS
  flags : first.flags = second.flags
  redirectId : first.redirectId = second.redirectId

/-- Decisions with a known verdict and reason and one text agree. -/
theorem sameMembers_of_decisionText_eq {first second : PolicyDecision}
    (firstVerdict : first.verdict ≤ 2) (secondVerdict : second.verdict ≤ 2)
    (firstReason : first.reason.toNat < Reason.kCount)
    (secondReason : second.reason.toNat < Reason.kCount)
    (same : decisionText first = decisionText second) :
    SameMembers first second := by
  rw [decisionText_eq_render, decisionText_eq_render] at same
  have labelsBreak : ∀ label ∈ jsonLabels, Breaks isWordChar label := by
    simp only [jsonLabels, List.forall_mem_cons]
    exact ⟨⟨_, _, rfl, rfl⟩, ⟨_, _, rfl, rfl⟩, ⟨_, _, rfl, rfl⟩,
      ⟨_, _, rfl, rfl⟩, ⟨_, _, rfl, rfl⟩, ⟨_, _, rfl, rfl⟩,
      ⟨_, _, rfl, rfl⟩, ⟨_, _, rfl, rfl⟩, ⟨_, _, rfl, rfl⟩,
      ⟨_, _, rfl, rfl⟩, ⟨_, _, rfl, rfl⟩, ⟨_, _, rfl, rfl⟩,
      ⟨_, _, rfl, rfl⟩, List.forall_mem_nil _⟩
  have members :=
    render_injective ⟨_, _, rfl, rfl⟩ labelsBreak (jsonValues_all_word first)
      (jsonValues_all_word second) rfl rfl same
  simp only [jsonValues, List.cons.injEq, decimal_injective.eq_iff,
    UInt8.toNat_inj, UInt32.toNat_inj, UInt64.toNat_inj] at members
  obtain ⟨verdict, reason, ruleId, policyVersion, qos5qi, arp, ambrUlKbps,
    ambrDlKbps, ratingGroup, quotaBytes, quotaValidityS, flags, redirectId,
    _⟩ := members
  exact {
    verdict := verdictName_injOn firstVerdict secondVerdict verdict
    reason := reasonName_injOn firstReason secondReason reason
    ruleId, policyVersion, qos5qi, arp, ambrUlKbps, ambrDlKbps, ratingGroup,
    quotaBytes, quotaValidityS, flags, redirectId }

theorem decisionText_ne_nil (decision : PolicyDecision) :
    decisionText decision ≠ [] := by
  obtain ⟨first, rest, shape, _⟩ :
      Breaks isWordChar (decisionText decision) := by
    rw [decisionText_eq_render]
    exact Breaks.append ⟨_, _, rfl, rfl⟩ _
  rw [shape]
  exact List.cons_ne_nil first rest

theorem exists_decisionReply {service : Service} {head : Str}
    (isOk : (replyTo service head).status = 200) :
    ∃ decision, replyTo service head = decisionReply decision := by
  rcases replyTo_cases service head with
    ⟨_, fixed⟩ | ⟨message, _, reply, _⟩ | ⟨_, carried⟩
  · have refused : ∀ reply ∈ fixedReplies, reply.status ≠ 200 := by
      decide
    exact absurd isOk (refused _ fixed)
  · rw [reply] at isOk
    cases isOk
  · exact carried

/--
Decisions are printed without loss and always sent: the body buffer holds every
decision, every answer with status 200 fits the output buffer whole, and two
decisions with known verdicts and reasons and one text agree in all thirteen
members.
-/
theorem decision_json_lossless_and_fits :
    (∀ decision,
      decisionToJson decision ≠ [] ∧
        ∀ keep,
          (headerText (decisionReply decision) keep ++
            decisionToJson decision).length < kResponseBufferBytes) ∧
      (∀ service head,
        (replyTo service head).status = 200 →
          outputFor service head = responseText service head ∧
            outputFor service head ≠ []) ∧
      ∀ first second : PolicyDecision,
        first.verdict ≤ 2 →
        second.verdict ≤ 2 →
        first.reason.toNat < Reason.kCount →
        second.reason.toNat < Reason.kCount →
        decisionToJson first = decisionToJson second →
        SameMembers first second := by
  refine ⟨?_, ?_, ?_⟩
  · intro decision
    refine ⟨?_, decisionReply_fits decision⟩
    rw [decisionToJson_eq]
    exact decisionText_ne_nil decision
  · intro service head isOk
    obtain ⟨decision, reply⟩ := exists_decisionReply isOk
    have whole :
        responseText service head =
          headerText (decisionReply decision) (keepAlive head) ++
            decisionToJson decision := by
      rw [responseText, reply]
      rfl
    have fits := decisionReply_fits decision (keepAlive head)
    rw [← whole] at fits
    rw [outputFor, if_pos fits]
    refine ⟨rfl, ?_⟩
    rw [whole, decisionToJson_eq]
    exact List.append_ne_nil_of_right_ne_nil _ (decisionText_ne_nil decision)
  · intro first second firstVerdict secondVerdict firstReason secondReason same
    rw [decisionToJson_eq, decisionToJson_eq] at same
    exact sameMembers_of_decisionText_eq firstVerdict secondVerdict
      firstReason secondReason same

/-- The sequence number is not printed and the members still agree. -/
theorem decision_json_lossless_and_fits_unprinted :
    decisionToJson { seq := 7, quotaBytes := 5 } =
        decisionToJson { seq := 8, quotaBytes := 5 } ∧
      SameMembers { seq := 7, quotaBytes := 5 }
        { seq := 8, quotaBytes := 5 } := by
  have same :
      decisionToJson { seq := 7, quotaBytes := 5 } =
        decisionToJson { seq := 8, quotaBytes := 5 } := rfl
  exact ⟨same,
    decision_json_lossless_and_fits.2.2 _ _ (by decide) (by decide)
      (by decide) (by decide) same⟩

end Policyd.HttpFront
