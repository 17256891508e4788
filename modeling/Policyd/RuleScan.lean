import Policyd.CompiledTable

namespace Policyd

/-!
# What the rule scan guarantees

Completeness: a rule that holds as written is never passed over.  Soundness: a
rule that fires holds as written.  Completeness holds for every accepted file.
Soundness does not: a condition that is empty, or that excludes a value another
condition of the same rule asks for, is lost when the conditions are folded
into one mask and one value.  The exact condition for it is stated instead.
-/

/-- A rule comes before another in order of priority and then of position. -/
def ScansBefore
    (sources : List SourceRule)
    (first second : SourceRule) : Prop :=
  ∃ earlier later : Nat,
    sources[earlier]? = some first ∧ sources[later]? = some second ∧
      (first.priority < second.priority ∨
        first.priority = second.priority ∧ earlier < later)

/-- The rules that decide a situation, and the decision they make. -/
structure DecidedBy
    (sources : List SourceRule)
    (situation : Situation)
    (hit : SourceRule) : Prop where
  member : hit ∈ sources
  fires : hit.fires situation = true
  decision :
    evaluate situation.ruleSet situation.request situation.record
        situation.now =
      decisionFor situation.ruleSet situation.request situation.record
        (some (hit.id, hit.action))

theorem ruleId_decisionFor (ruleSet : RuleSet) (request : PolicyRequest)
    (record : Option SubscriberRecord) (fired : Option (UInt32 × Action)) :
    (decisionFor ruleSet request record fired).ruleId =
      (fired.map Prod.fst).getD 0 := by
  unfold decisionFor
  dsimp only
  split <;> rfl

theorem position_eq_of_nodup {Item : Type} {items : List Item}
    (distinct : items.Nodup)
    {first second : Nat} {item : Item}
    (atFirst : items[first]? = some item)
    (atSecond : items[second]? = some item) :
    first = second := by
  obtain ⟨firstInside, firstItem⟩ := List.getElem?_eq_some_iff.mp atFirst
  obtain ⟨secondInside, secondItem⟩ := List.getElem?_eq_some_iff.mp atSecond
  exact (List.Nodup.getElem_inj_iff distinct).mp
    (firstItem.trans secondItem.symm)

section Decisions

variable {situation : Situation} {sources : List SourceRule}

theorem DecidedBy.ruleId
    {hit : SourceRule} (decided : DecidedBy sources situation hit) :
    (evaluate situation.ruleSet situation.request situation.record
      situation.now).ruleId = hit.id := by
  rw [decided.decision, ruleId_decisionFor]
  rfl

/-- If a rule fires, it decides or a rule scanned before it decides. -/
theorem CompiledFrom.decided_of_fires
    (compiledFrom : CompiledFrom situation.ruleSet sources)
    {rule : SourceRule}
    (member : rule ∈ sources) (fires : rule.fires situation = true) :
    ∃ hit,
      DecidedBy sources situation hit ∧
        (hit = rule ∨ ScansBefore sources hit rule) := by
  obtain ⟨position, placed⟩ := List.mem_iff_getElem?.mp member
  obtain ⟨earlier, hit, hitPlaced, search, order⟩ :
      ∃ (earlier : Nat) (hit : SourceRule),
        sources[earlier]? = some hit ∧
          (scanOrder sources).find? (·.fires situation) = some hit ∧
          (hit.priority.toNat < rule.priority.toNat ∨
            hit.priority.toNat = rule.priority.toNat ∧
              earlier ≤ position) :=
    find?_sortByRank_of_match placed fires
  have decision := compiledFrom.evaluate_eq
  rw [search] at decision
  have hitFires : hit.fires situation = true := by
    simpa using List.find?_some search
  refine ⟨hit,
    ⟨List.mem_iff_getElem?.mpr ⟨earlier, hitPlaced⟩, hitFires, decision⟩,
    ?_⟩
  rcases order with smaller | ⟨samePriority, notBehind⟩
  · exact .inr ⟨earlier, position, hitPlaced, placed,
      .inl (UInt32.lt_iff_toNat_lt.mpr smaller)⟩
  · rcases Nat.lt_or_eq_of_le notBehind with before | same
    · exact .inr ⟨earlier, position, hitPlaced, placed,
        .inr ⟨UInt32.toNat_inj.mp samePriority, before⟩⟩
    · subst same
      rw [hitPlaced] at placed
      exact .inl (Option.some.inj placed)

theorem CompiledFrom.ruleId_eq_zero
    (compiledFrom : CompiledFrom situation.ruleSet sources)
    (silent : ∀ rule ∈ sources, rule.fires situation = false) :
    (evaluate situation.ruleSet situation.request situation.record
      situation.now).ruleId = 0 := by
  have search : (scanOrder sources).find? (·.fires situation) = none := by
    rw [List.find?_eq_none]
    intro rule member
    rw [silent rule ((sortByRank_perm sources).mem_iff.mp member)]
    decide
  rw [compiledFrom.evaluate_eq, search, ruleId_decisionFor]
  rfl

theorem ScansBefore.asymm (distinct : sources.Nodup) {first second : SourceRule}
    (forward : ScansBefore sources first second)
    (backward : ScansBefore sources second first) : False := by
  obtain ⟨earlier, later, firstAt, secondAt, order⟩ := forward
  obtain ⟨earlier', later', secondAt', firstAt', order'⟩ := backward
  have sameFirst : earlier = later' :=
    position_eq_of_nodup distinct firstAt firstAt'
  have sameSecond : later = earlier' :=
    position_eq_of_nodup distinct secondAt secondAt'
  simp only [UInt32.lt_iff_toNat_lt, ← UInt32.toNat_inj] at order order'
  omega

end Decisions

theorem compileRules_compiledFrom
    {files : Str → Option Str} {text : Str} {version : UInt32}
    {ruleSet : RuleSet}
    (accepted : (compileRules files text version).ruleSet = some ruleSet) :
    ∃ root sources,
      Yaml.parse text = .ok root ∧ sourceRules root = some sources ∧
        CompiledFrom ruleSet sources := by
  obtain ⟨root, parsed, rootAccepted⟩ := compileRules_ruleSet_iff.mp accepted
  obtain ⟨sources, read, compiledFrom⟩ := compileRoot_compiledFrom rootAccepted
  exact ⟨root, sources, parsed, read, compiledFrom⟩

/-- Test the table and the document of an accepted text. -/
def testDocument (text : Str) (test : RuleSet → Node → Bool) : Bool :=
  match (compileRules (fun _ => none) text 1).ruleSet, Yaml.parse text with
  | some ruleSet, .ok root => test ruleSet root
  | _, _ => false

theorem exists_of_testDocument (text : Str) (test : RuleSet → Node → Bool)
    (passed : testDocument text test = true) :
    ∃ ruleSet root,
      (compileRules (fun _ => none) text 1).ruleSet = some ruleSet ∧
        Yaml.parse text = .ok root ∧ test ruleSet root = true := by
  unfold testDocument at passed
  split at passed
  case h_1 ruleSet root accepted parsed =>
    exact ⟨ruleSet, root, accepted, parsed, passed⟩
  case h_2 =>
    cases passed

/-- Test the table and the rules of an accepted text. -/
def testRules (text : Str) (test : RuleSet → List SourceRule → Bool) : Bool :=
  match (compileRules (fun _ => none) text 1).ruleSet, Yaml.parse text with
  | some ruleSet, .ok root => (sourceRules root).any (test ruleSet)
  | _, _ => false

theorem exists_of_testRules
    (text : Str) (test : RuleSet → List SourceRule → Bool)
    (passed : testRules text test = true) :
    ∃ ruleSet root sources,
      (compileRules (fun _ => none) text 1).ruleSet = some ruleSet ∧
        Yaml.parse text = .ok root ∧ sourceRules root = some sources ∧
        test ruleSet sources = true := by
  obtain ⟨ruleSet, root, accepted, parsed, tested⟩ :=
    exists_of_testDocument text
      (fun ruleSet root => (sourceRules root).any (test ruleSet)) passed
  obtain ⟨sources, read, sourcesPass⟩ := (Option.any_eq_true _ _).mp tested
  exact ⟨ruleSet, root, sources, accepted, parsed, read, sourcesPass⟩

/--
No request slips past a rule.  A rule that holds as written decides, or a rule
that comes before it decides; the default action does not.
-/
theorem no_request_slips_past_a_rule
    {files : Str → Option Str}
    {text : Str}
    {version : UInt32}
    {ruleSet : RuleSet}
    (accepted : (compileRules files text version).ruleSet = some ruleSet) :
    ∃ root sources,
      Yaml.parse text = .ok root ∧ sourceRules root = some sources ∧
        ∀ request record now, ∀ rule ∈ sources,
          rule.holdsAsWritten ⟨ruleSet, request, record, now⟩ = true →
            ∃ hit ∈ sources,
              (hit = rule ∨ ScansBefore sources hit rule) ∧
                evaluate ruleSet request record now =
                  decisionFor ruleSet request record
                    (some (hit.id, hit.action)) ∧
                (evaluate ruleSet request record now).ruleId = hit.id ∧
                hit.id ≠ 0 := by
  obtain ⟨root, sources, parsed, read, compiledFrom⟩ :=
    compileRules_compiledFrom accepted
  refine ⟨root, sources, parsed, read, ?_⟩
  intro request record now rule member holds
  have compiledHere :
      CompiledFrom
        (Situation.mk ruleSet request record now).ruleSet sources :=
    compiledFrom
  obtain ⟨hit, decided, order⟩ :=
    compiledHere.decided_of_fires member
      (SourceRule.fires_of_holdsAsWritten holds)
  exact ⟨hit, decided.member, order, decided.decision, decided.ruleId,
    compiledFrom.idsNonzero hit decided.member⟩

/-- A file with one rule for one plan and two access types. -/
def listedRatFile : Str :=
  ("dnns: [internet]\nplans:\n  - name: basic\nrules:\n" ++
    "  - id: 7\n    priority: 10\n    plans: basic\n    when:\n" ++
    "      rat: [LTE, NR]\n    action:\n      verdict: DENY\n").toList

/-- A request over the second access type. -/
def nrRequest : PolicyRequest :=
  { ratType := 1 }

/-- A subscriber of the only plan. -/
def basicRecord : SubscriberRecord :=
  { imsi := 1 }

/-- The file is accepted, and its rule holds for the request. -/
theorem exists_listedRat :
    ∃ ruleSet root sources,
      (compileRules (fun _ => none) listedRatFile 1).ruleSet =
          some ruleSet ∧
        Yaml.parse listedRatFile = .ok root ∧
        sourceRules root = some sources ∧
        ∃ rule ∈ sources,
          rule.holdsAsWritten
            ⟨ruleSet, nrRequest, some basicRecord, 0⟩ = true := by
  obtain ⟨ruleSet, root, sources, accepted, parsed, read, passed⟩ :=
    exists_of_testRules listedRatFile
      (fun ruleSet sources =>
        sources.any
          (·.holdsAsWritten ⟨ruleSet, nrRequest, some basicRecord, 0⟩))
      (by decide +kernel)
  exact ⟨ruleSet, root, sources, accepted, parsed, read,
    List.any_eq_true.mp passed⟩

/-- The only rule of the file holds and decides. -/
theorem no_request_slips_past_a_rule_listed_rat :
    ∃ ruleSet root sources rule,
      (compileRules (fun _ => none) listedRatFile 1).ruleSet =
          some ruleSet ∧
        Yaml.parse listedRatFile = .ok root ∧
        sourceRules root = some sources ∧ rule ∈ sources ∧
        rule.holdsAsWritten
          ⟨ruleSet, nrRequest, some basicRecord, 0⟩ = true ∧
        (evaluate ruleSet nrRequest (some basicRecord) 0).ruleId ≠ 0 := by
  obtain ⟨ruleSet, root, sources, accepted, parsed, read, rule, member,
    holds⟩ := exists_listedRat
  obtain ⟨root', sources', parsed', read', complete⟩ :=
    no_request_slips_past_a_rule accepted
  cases parsed.symm.trans parsed'
  cases read.symm.trans read'
  obtain ⟨hit, _, _, _, ruleId, nonzero⟩ :=
    complete nrRequest (some basicRecord) 0 rule member holds
  exact ⟨ruleSet, root, sources, rule, accepted, parsed, read, member,
    holds, by rw [ruleId]; exact nonzero⟩

/-- The rule a decision names holds as written. -/
def SoundDecision (sources : List SourceRule) (situation : Situation) : Prop :=
  (evaluate situation.ruleSet situation.request situation.record
      situation.now).ruleId ≠ 0 →
    ∃ rule ∈ sources,
      rule.id =
          (evaluate situation.ruleSet situation.request
            situation.record situation.now).ruleId ∧
        rule.holdsAsWritten situation = true

/-- Rules that fire without holding come behind a rule that holds. -/
def OvermatchesBehind
    (sources : List SourceRule)
    (situation : Situation) : Prop :=
  ∀ rule ∈ sources,
    rule.fires situation = true →
      rule.holdsAsWritten situation = false →
        ∃ other ∈ sources,
          other.holdsAsWritten situation = true ∧
            ScansBefore sources other rule

variable {situation : Situation}

/-- A table decides soundly exactly when overmatches come behind. -/
theorem CompiledFrom.soundDecision_iff {sources : List SourceRule}
    (compiledFrom : CompiledFrom situation.ruleSet sources) :
    SoundDecision sources situation ↔ OvermatchesBehind sources situation := by
  constructor
  · intro sound rule member fires overmatches
    obtain ⟨hit, decided, order⟩ := compiledFrom.decided_of_fires member fires
    obtain ⟨named, namedMember, sameId, holds⟩ := sound (by
      rw [decided.ruleId]
      exact compiledFrom.idsNonzero hit decided.member)
    rw [decided.ruleId] at sameId
    obtain rfl := compiledFrom.eq_of_id namedMember decided.member sameId
    rcases order with rfl | before
    · rw [holds] at overmatches
      cases overmatches
    · exact ⟨named, namedMember, holds, before⟩
  · intro covered nonzero
    have someFires : ∃ rule ∈ sources, rule.fires situation = true := by
      by_contra silent
      refine nonzero (compiledFrom.ruleId_eq_zero fun rule member => ?_)
      rw [← Bool.not_eq_true]
      exact fun fires => silent ⟨rule, member, fires⟩
    obtain ⟨rule, member, fires⟩ := someFires
    obtain ⟨hit, decided, _⟩ := compiledFrom.decided_of_fires member fires
    refine ⟨hit, decided.member, decided.ruleId.symm, ?_⟩
    -- a rule that holds before the deciding one would have decided instead
    by_contra overmatches
    rw [Bool.not_eq_true] at overmatches
    obtain ⟨other, otherMember, otherHolds, before⟩ :=
      covered hit decided.member decided.fires overmatches
    obtain ⟨hit', decided', order⟩ :=
      compiledFrom.decided_of_fires otherMember
        (SourceRule.fires_of_holdsAsWritten otherHolds)
    obtain rfl :=
      compiledFrom.eq_of_id decided'.member decided.member
        (decided'.ruleId.symm.trans decided.ruleId)
    rcases order with rfl | after
    · rw [otherHolds] at overmatches
      cases overmatches
    · exact before.asymm compiledFrom.idsDistinct.of_map after

/-- A condition that loses nothing inside its rule. -/
def Condition.keeps (conditions : List Condition) : Condition → Bool
  | require _ true => true
  | require feature false => !asserted conditions feature
  | oneOf features => !features.isEmpty
  | noneOf features => features.all (!asserted conditions ·)

/-- A rule without empty lists and without excluded values it asks for. -/
def SourceRule.consistent (rule : SourceRule) : Bool :=
  rule.plans != some [] && rule.conditions.all (·.keeps rule.conditions)

theorem Condition.holds_of_passes
    {conditions : List Condition} {condition : Condition}
    (keeps : condition.keeps conditions = true)
    (passes : condition.passes conditions situation = true) :
    condition.holds situation = true := by
  cases condition with
  | require feature want =>
    cases want <;> simp_all [Condition.keeps, Condition.passes, holds]
  | oneOf features =>
    simp_all [Condition.keeps, Condition.passes, holds]
  | noneOf features =>
    simp only [Condition.keeps, Condition.passes, holds,
      List.all_eq_true, Bool.or_eq_true, Bool.not_eq_true'] at *
    intro feature member
    rcases passes feature member with absent | asked
    · exact absent
    · rw [keeps feature member] at asked
      cases asked

theorem SourceRule.holdsAsWritten_of_fires {rule : SourceRule}
    (consistent : rule.consistent = true)
    (fires : rule.fires situation = true) :
    rule.holdsAsWritten situation = true := by
  rw [SourceRule.consistent, Bool.and_eq_true, bne_iff_ne,
    List.all_eq_true] at consistent
  rw [SourceRule.fires, Bool.and_eq_true, Bool.or_eq_true,
    List.all_eq_true] at fires
  rw [holdsAsWritten, Bool.and_eq_true, List.all_eq_true]
  refine ⟨?_, fun condition member =>
    Condition.holds_of_passes (consistent.2 condition member)
      (fires.2 condition member)⟩
  rcases fires.1 with emptyPlans | named
  · exact absurd (by simpa using emptyPlans) consistent.1
  · exact named

/--
The decisions of an accepted file are sound exactly in the situations where
every rule that fires without holding as written comes behind a rule that does
hold as written.
-/
theorem sound_decision_iff_overmatches_behind
    {files : Str → Option Str}
    {text : Str}
    {version : UInt32}
    {ruleSet : RuleSet}
    (accepted : (compileRules files text version).ruleSet = some ruleSet) :
    ∃ root sources,
      Yaml.parse text = .ok root ∧ sourceRules root = some sources ∧
        (sources.map SourceRule.id).Nodup ∧
        ∀ request record now,
          (SoundDecision sources ⟨ruleSet, request, record, now⟩ ↔
            OvermatchesBehind sources
              ⟨ruleSet, request, record, now⟩) := by
  obtain ⟨root, sources, parsed, read, compiledFrom⟩ :=
    compileRules_compiledFrom accepted
  refine ⟨root, sources, parsed, read, compiledFrom.idsDistinct, ?_⟩
  intro request record now
  have compiledHere :
      CompiledFrom
        (Situation.mk ruleSet request record now).ruleSet sources :=
    compiledFrom
  exact compiledHere.soundDecision_iff

/-- A file whose rule holds as written wherever it fires. -/
theorem sound_decision_listed_rat :
    ∃ ruleSet root sources,
      (compileRules (fun _ => none) listedRatFile 1).ruleSet =
          some ruleSet ∧
        Yaml.parse listedRatFile = .ok root ∧
        sourceRules root = some sources ∧
        SoundDecision sources
          ⟨ruleSet, nrRequest, some basicRecord, 0⟩ := by
  obtain ⟨ruleSet, root, sources, accepted, parsed, read, passed⟩ :=
    exists_of_testRules listedRatFile
      (fun _ sources => sources.all SourceRule.consistent)
      (by decide +kernel)
  obtain ⟨root', sources', parsed', read', _, sound⟩ :=
    sound_decision_iff_overmatches_behind accepted
  cases parsed.symm.trans parsed'
  cases read.symm.trans read'
  refine ⟨ruleSet, root, sources, accepted, parsed, read,
    (sound nrRequest (some basicRecord) 0).mpr ?_⟩
  intro rule member fires overmatches
  have consistent := List.all_eq_true.mp passed rule member
  rw [SourceRule.holdsAsWritten_of_fires consistent fires] at overmatches
  cases overmatches

/--
When no rule of an accepted file writes an empty list or excludes what it asks
for, every rule that fires holds as written.
-/
theorem consistent_rules_fire_as_written {files : Str → Option Str} {text : Str}
    {version : UInt32} {ruleSet : RuleSet} {root : Node}
    {sources : List SourceRule}
    (accepted : (compileRules files text version).ruleSet = some ruleSet)
    (parsed : Yaml.parse text = .ok root)
    (read : sourceRules root = some sources)
    (consistent : ∀ rule ∈ sources, rule.consistent = true)
    (request : PolicyRequest) (record : Option SubscriberRecord)
    (now : UInt64) :
    SoundDecision sources ⟨ruleSet, request, record, now⟩ := by
  obtain ⟨root', sources', parsed', read', compiledFrom⟩ :=
    compileRules_compiledFrom accepted
  cases parsed.symm.trans parsed'
  cases read.symm.trans read'
  have compiledHere :
      CompiledFrom
        (Situation.mk ruleSet request record now).ruleSet sources :=
    compiledFrom
  refine compiledHere.soundDecision_iff.mpr ?_
  intro rule member fires overmatches
  rw [SourceRule.holdsAsWritten_of_fires (consistent rule member) fires]
    at overmatches
  cases overmatches

theorem consistent_rules_fire_as_written_listed_rat :
    ∃ ruleSet sources,
      (compileRules (fun _ => none) listedRatFile 1).ruleSet =
          some ruleSet ∧
        ∀ request record now,
          SoundDecision sources ⟨ruleSet, request, record, now⟩ := by
  obtain ⟨ruleSet, _, sources, accepted, parsed, read, passed⟩ :=
    exists_of_testRules listedRatFile
      (fun _ sources => sources.all SourceRule.consistent)
      (by decide +kernel)
  exact ⟨ruleSet, sources, accepted,
    consistent_rules_fire_as_written accepted parsed read
      (List.all_eq_true.mp passed)⟩

/-- A rule that lists an access type and excludes it as well. -/
def excludedRatFile : Str :=
  ("dnns: [internet]\nplans:\n  - name: basic\nrules:\n" ++
    "  - id: 7\n    priority: 10\n    when:\n      rat: [LTE, NR]\n" ++
    "      not_rat: NR\n    action:\n      verdict: ALLOW\n").toList

/-- The rule allows a request over the access type it excludes. -/
theorem excluded_rat_fires :
    ∃ ruleSet root sources,
      (compileRules (fun _ => none) excludedRatFile 1).ruleSet =
          some ruleSet ∧
        Yaml.parse excludedRatFile = .ok root ∧
        sourceRules root = some sources ∧
        ∃ rule ∈ sources,
          (evaluate ruleSet nrRequest none 0).ruleId = rule.id ∧
            rule.id ≠ 0 ∧
            (evaluate ruleSet nrRequest none 0).verdict =
              Verdict.allow.code ∧
            rule.holdsAsWritten ⟨ruleSet, nrRequest, none, 0⟩ =
              false := by
  obtain ⟨ruleSet, root, sources, accepted, parsed, read, passed⟩ :=
    exists_of_testRules excludedRatFile
      (fun ruleSet sources =>
        sources.any fun rule =>
          (evaluate ruleSet nrRequest none 0).ruleId == rule.id &&
            rule.id != 0 &&
            (evaluate ruleSet nrRequest none 0).verdict ==
              Verdict.allow.code &&
            !rule.holdsAsWritten ⟨ruleSet, nrRequest, none, 0⟩)
      (by decide +kernel)
  obtain ⟨rule, member, found⟩ := List.any_eq_true.mp passed
  simp only [Bool.and_eq_true, beq_iff_eq, bne_iff_ne,
    Bool.not_eq_true'] at found
  exact ⟨ruleSet, root, sources, accepted, parsed, read, rule, member,
    found.1.1.1, found.1.1.2, found.1.2, found.2⟩

end Policyd
