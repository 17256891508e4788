import Policyd.CompiledTable

namespace Policyd

/-!
# Line numbers do not matter

Two documents are alike when they differ in line numbers only, as after adding
a comment or moving a rule.  Line numbers enter error messages and warnings and
nothing else: alike documents are read alike, so every section has the same
result on both.
-/

/-- The same document apart from line numbers. -/
inductive Alike : Node → Node → Prop
  | null (line other : Nat) : Alike (.null line) (.null other)
  | scalar (line other : Nat) (text : Str) :
      Alike (.scalar line text) (.scalar other text)
  | seq (line other : Nat) {items others : List Node} :
      List.Forall₂ Alike items others →
        Alike (.seq line items) (.seq other others)
  | map (line other : Nat) {fields others : List (Str × Node)} :
      fields.map Prod.fst = others.map Prod.fst →
        List.Forall₂ Alike (fields.map Prod.snd)
            (others.map Prod.snd) →
          Alike (.map line fields) (.map other others)

/-- Alike fields have equal keys and alike values. -/
def AlikeField (field other : Str × Node) : Prop :=
  field.1 = other.1 ∧ Alike field.2 other.2

/-- Fields are alike when their keys are equal and their values alike. -/
theorem forall₂_alikeField {fields others : List (Str × Node)}
    (sameKeys : fields.map Prod.fst = others.map Prod.fst)
    (alike : List.Forall₂ Alike (fields.map Prod.snd) (others.map Prod.snd)) :
    List.Forall₂ AlikeField fields others := by
  induction fields generalizing others with
  | nil =>
    cases others with
    | nil => exact .nil
    | cons _ _ => cases alike
  | cons field later inductionHypothesis =>
    cases others with
    | nil => cases alike
    | cons other otherLater =>
      obtain ⟨sameKey, sameLater⟩ := List.cons.inj sameKeys
      cases alike with
      | cons alikeValue alikeLater =>
        exact .cons ⟨sameKey, alikeValue⟩
          (inductionHypothesis sameLater alikeLater)

namespace Alike

variable {node other : Node}

theorem isScalar_eq (alike : Alike node other) :
    node.isScalar = other.isScalar := by
  cases alike <;> rfl

theorem isMap_eq (alike : Alike node other) :
    node.isMap = other.isMap := by
  cases alike <;> rfl

theorem text_eq (alike : Alike node other) :
    node.text = other.text := by
  cases alike <;> rfl

theorem scalar?_eq (alike : Alike node other) :
    node.scalar? = other.scalar? := by
  cases alike <;> rfl

theorem asList (alike : Alike node other) :
    List.Forall₂ Alike node.asList other.asList := by
  cases alike with
  | seq line another items => exact items
  | null line another => exact .cons (.null _ _) .nil
  | scalar line another text => exact .cons (.scalar _ _ _) .nil
  | map line another keys values => exact .cons (.map _ _ keys values) .nil

theorem fields (alike : Alike node other) :
    List.Forall₂ AlikeField node.fields other.fields := by
  cases alike with
  | map line another keys values => exact forall₂_alikeField keys values
  | null line another => exact .nil
  | scalar line another text => exact .nil
  | seq line another items => exact .nil

/-- Alike nodes have alike values under every key. -/
theorem find (alike : Alike node other) (key : Str) :
    Option.Rel Alike (node.find key) (other.find key) := by
  have search :
      ∀ {fields others : List (Str × Node)},
        List.Forall₂ AlikeField fields others →
          Option.Rel Alike
            ((fields.find? (·.1 == key)).map Prod.snd)
            ((others.find? (·.1 == key)).map Prod.snd) := by
    intro fields others alikeFields
    induction alikeFields with
    | nil => exact .none
    | @cons field another later others alikeField _ inductionHypothesis =>
      obtain ⟨sameKey, alikeValue⟩ := alikeField
      by_cases hit : field.1 = key
      · have otherHit : another.1 = key := sameKey.symm.trans hit
        simpa [hit, otherHit] using Option.Rel.some alikeValue
      · have otherMiss : ¬ another.1 = key := fun otherHit =>
          hit (sameKey.trans otherHit)
        simpa [hit, otherMiss] using inductionHypothesis
  exact search alike.fields

theorem find_cases (alike : Alike node other) (key : Str) :
    (node.find key = none ∧ other.find key = none) ∨
      ∃ value another,
        node.find key = some value ∧ other.find key = some another ∧
          Alike value another := by
  have found := alike.find key
  generalize node.find key = first at found ⊢
  generalize other.find key = second at found ⊢
  cases found with
  | none => exact .inl ⟨rfl, rfl⟩
  | some alikeValue => exact .inr ⟨_, _, rfl, rfl, alikeValue⟩

theorem has_eq (alike : Alike node other) (key : Str) :
    node.has key = other.has key := by
  unfold Node.has
  rcases alike.find_cases key with ⟨first, second⟩ |
    ⟨_, _, first, second, _⟩ <;> simp [first, second]

end Alike

/-- A reader that does not look at line numbers. -/
def Layoutless {Value : Type} (read : Node → Value) : Prop :=
  ∀ node other, Alike node other → read node = read other

variable {Value : Type} {read : Node → Option Value} {node other : Node}
  {items others : List Node}

theorem layoutless_scalar (read : Str → Option Value) :
    Layoutless fun node => node.scalar?.bind read := by
  intro node other alike
  exact congrArg (·.bind read) alike.scalar?_eq

theorem Layoutless.bind {First Second : Type} {read : Node → Option First}
    (layoutless : Layoutless read) (next : First → Option Second) :
    Layoutless fun node => (read node).bind next := by
  intro node other alike
  exact congrArg (·.bind next) (layoutless node other alike)

theorem layoutless_asUint : Layoutless Node.asUint :=
  layoutless_scalar uintOfText

theorem layoutless_asBool : Layoutless Node.asBool :=
  layoutless_scalar boolOfText

theorem layoutless_asBytes : Layoutless Node.asBytes :=
  layoutless_scalar bytesOfText

theorem layoutless_asKbps : Layoutless Node.asKbps :=
  layoutless_scalar kbpsOfText

theorem layoutless_asSeconds : Layoutless Node.asSeconds :=
  layoutless_scalar secondsOfText

theorem layoutless_asTimeOfDay : Layoutless Node.asTimeOfDay :=
  layoutless_scalar timeOfDayOfText

theorem layoutless_asPermille : Layoutless Node.asPermille :=
  layoutless_scalar permilleOfText

theorem layoutless_as5qi : Layoutless Node.as5qi :=
  layoutless_asUint.bind _

theorem layoutless_asArp : Layoutless Node.asArp :=
  layoutless_asUint.bind _

theorem layoutless_asRatingGroup : Layoutless Node.asRatingGroup :=
  layoutless_asUint.bind _

theorem Layoutless.optional (layoutless : Layoutless read)
    {node other : Option Node}
    (alike : Option.Rel Alike node other) :
    node.bind read = other.bind read := by
  cases alike with
  | none => rfl
  | some alikeNode => exact layoutless _ _ alikeNode

theorem Layoutless.mapM
    (layoutless : Layoutless read) (alike : List.Forall₂ Alike items others) :
    items.mapM read = others.mapM read := by
  induction alike with
  | nil => rfl
  | cons alikeHead _ inductionHypothesis =>
    rw [List.mapM_cons, List.mapM_cons, layoutless _ _ alikeHead,
      inductionHypothesis]

theorem loadDnnItems_alike
    (alike : List.Forall₂ Alike items others) (names : List Str) :
    (loadDnnItems items names).result =
      (loadDnnItems others names).result := by
  induction alike generalizing names with
  | nil => rfl
  | cons alikeHead _ inductionHypothesis =>
    rw [loadDnnItems, loadDnnItems, alikeHead.isScalar_eq, alikeHead.text_eq]
    split_ifs
    · simp
    · simp
    · simp
    · exact inductionHypothesis _

theorem loadDnns_alike
    {node other : Option Node} (alike : Option.Rel Alike node other) :
    (loadDnns node).result = (loadDnns other).result := by
  cases alike with
  | none => rfl
  | some alikeNode =>
    cases alikeNode with
    | seq line another items => exact loadDnnItems_alike items []
    | null line another => rfl
    | scalar line another text => rfl
    | map line another keys values => rfl

theorem loadRedirectFields_alike {fields others : List (Str × Node)}
    (alike : List.Forall₂ AlikeField fields others) (redirects : Redirects) :
    (loadRedirectFields fields redirects).result =
      (loadRedirectFields others redirects).result := by
  induction alike generalizing redirects with
  | nil => rfl
  | @cons field other _ _ alikeHead _ inductionHypothesis =>
    obtain ⟨name, target⟩ := field
    obtain ⟨otherName, otherTarget⟩ := other
    obtain ⟨sameName, alikeTarget⟩ := alikeHead
    dsimp only at sameName alikeTarget
    subst sameName
    rw [loadRedirectFields, loadRedirectFields,
      alikeTarget.isScalar_eq, alikeTarget.text_eq]
    split_ifs
    · simp
    · simp
    · exact inductionHypothesis _

theorem loadRedirects_alike
    {node other : Option Node} (alike : Option.Rel Alike node other) :
    (loadRedirects node).result = (loadRedirects other).result := by
  cases alike with
  | none => rfl
  | some alikeNode =>
    cases alikeNode with
    | map line another keys values =>
      exact loadRedirectFields_alike (forall₂_alikeField keys values) _
    | null line another => rfl
    | scalar line another text => rfl
    | seq line another items => rfl

theorem planField_alike
    (alike : Alike node other) (key : String) (layoutless : Layoutless read)
    (complaint : String) (default : Value) :
    (planField node key read complaint default).result =
      (planField other key read complaint default).result := by
  unfold planField
  rcases alike.find_cases key.toList with ⟨first, second⟩ |
    ⟨value, another, first, second, alikeValue⟩
  · rw [first, second]
  · rw [first, second]
    dsimp only
    rw [layoutless _ _ alikeValue]
    split <;> rfl

theorem req5qi_alike
    (alike : Alike node other) (key : String) (default : UInt8) :
    (req5qi node key default).result =
      (req5qi other key default).result := by
  have written :
      (node.find key.toList).bind Node.as5qi =
        (other.find key.toList).bind Node.as5qi :=
    layoutless_as5qi.optional (alike.find key.toList)
  unfold req5qi
  rw [Report.result_bind, Report.result_bind,
    planField_alike alike key layoutless_as5qi, written]

theorem readPlan_alike (alike : Alike node other) (name : Str) (id : Nat) :
    (readPlan node name id).result = (readPlan other name id).result := by
  simp only [readPlan, Report.result_bind, reqArp, optKbps, optBytes,
    optSeconds, optUint, optBool, req5qi_alike alike,
    planField_alike alike _ layoutless_asArp,
    planField_alike alike _ layoutless_asKbps,
    planField_alike alike _ layoutless_asBytes,
    planField_alike alike _ layoutless_asSeconds,
    planField_alike alike _ layoutless_asUint,
    planField_alike alike _ layoutless_asBool]

theorem planName_alike (alike : Alike node other) :
    Option.Rel Alike (planName node) (planName other) := by
  unfold planName
  rcases alike.find_cases "name".toList with ⟨first, second⟩ |
    ⟨value, another, first, second, alikeValue⟩
  · rw [first, second]
    exact .none
  · rw [first, second, Option.filter_some, Option.filter_some,
      alikeValue.isScalar_eq, alikeValue.text_eq]
    split
    · exact .some alikeValue
    · exact .none

theorem loadPlanItems_alike
    (alike : List.Forall₂ Alike items others) (table : PlanTable) :
    (loadPlanItems items table).result =
      (loadPlanItems others table).result := by
  induction alike generalizing table with
  | nil => rfl
  | @cons item other _ _ alikeHead _ inductionHypothesis =>
    have warned :
        ∀ node, (warnAll (checkUnknownKeys node planKeys)).result =
          some () :=
      fun _ => rfl
    have names := planName_alike alikeHead
    rw [loadPlanItems, loadPlanItems, alikeHead.isMap_eq]
    by_cases notMap : other.isMap = false
    · rw [if_pos notMap, if_pos notMap]
      simp
    · rw [if_neg notMap, if_neg notMap, Report.result_bind,
        Report.result_bind, warned, warned, Option.bind_some,
        Option.bind_some]
      generalize planName item = first at names ⊢
      generalize planName other = second at names ⊢
      cases names with
      | none => rfl
      | some alikeName =>
        dsimp only
        rw [alikeName.text_eq]
        split_ifs
        · simp
        · simp
        · rw [Report.result_bind, Report.result_bind, readPlan_alike alikeHead]
          simp only [inductionHypothesis]

theorem loadPlans_alike
    {node other : Option Node} (alike : Option.Rel Alike node other) :
    (loadPlans node).result = (loadPlans other).result := by
  cases alike with
  | none => rfl
  | some alikeNode =>
    cases alikeNode with
    | seq line another items =>
      cases items with
      | nil => rfl
      | cons alikeHead alikeLater =>
        exact loadPlanItems_alike (.cons alikeHead alikeLater) {}
    | null line another => rfl
    | scalar line another text => rfl
    | map line another keys values => rfl

theorem loadPartnerItems_alike
    (alike : List.Forall₂ Alike items others) (keys : List UInt64) :
    (loadPartnerItems items keys).result =
      (loadPartnerItems others keys).result := by
  induction alike generalizing keys with
  | nil => rfl
  | cons alikeHead _ inductionHypothesis =>
    rw [loadPartnerItems, loadPartnerItems, alikeHead.isScalar_eq,
      alikeHead.text_eq]
    split_ifs
    · simp
    · split
      · simp
      · exact inductionHypothesis _

theorem loadRoamingPartners_alike
    {node other : Option Node} (alike : Option.Rel Alike node other) :
    (loadRoamingPartners node).result =
      (loadRoamingPartners other).result := by
  cases alike with
  | none => rfl
  | some alikeNode =>
    cases alikeNode with
    | seq line another items =>
      simp only [loadRoamingPartners, Report.result_bind,
        loadPartnerItems_alike items]
    | null line another => rfl
    | scalar line another text => rfl
    | map line another keys values => rfl

/-- The listed devices of alike lists. -/
theorem loadImeiItems_alike
    (alike : List.Forall₂ Alike items others) (keys : List UInt64) :
    (loadImeiItems items keys).result =
      (loadImeiItems others keys).result := by
  induction alike generalizing keys with
  | nil => rfl
  | cons alikeHead _ inductionHypothesis =>
    rw [loadImeiItems, loadImeiItems, alikeHead.isScalar_eq, alikeHead.text_eq]
    split_ifs
    · simp
    · split
      · simp
      · exact inductionHypothesis _

theorem loadImeiFile_line
    (files : Str → Option Str) (path : Str) (line other : Nat) :
    (loadImeiFile files path line).result =
      (loadImeiFile files path other).result := by
  unfold loadImeiFile
  cases files path <;> rfl

theorem loadImeiBlocklist_alike (files : Str → Option Str)
    {node other : Option Node}
    (alike : Option.Rel Alike node other) :
    (loadImeiBlocklist files node).result =
      (loadImeiBlocklist files other).result := by
  cases alike with
  | none => rfl
  | some alikeNode =>
    cases alikeNode with
    | seq line another items =>
      simp only [loadImeiBlocklist, Report.result_bind,
        loadImeiItems_alike items]
    | scalar line another text =>
      simp only [loadImeiBlocklist, Report.result_bind]
      rw [loadImeiFile_line files text line another]
    | null line another => rfl
    | map line another keys values => rfl

theorem actionField_alike
    (alike : Alike node other) (key : String) (layoutless : Layoutless read)
    (complaint : Node → Str) (set : Value → Action → Action)
    (action : Action) :
    (actionField node key read complaint set action).result =
      (actionField other key read complaint set action).result := by
  unfold actionField
  rcases alike.find_cases key.toList with ⟨first, second⟩ |
    ⟨value, another, first, second, alikeValue⟩
  · rw [first, second]
  · rw [first, second]
    dsimp only
    rw [layoutless _ _ alikeValue]
    split <;> rfl

theorem readMask_alike (parse : Str → Option UInt8) (what : String)
    (alike : List.Forall₂ Alike items others) :
    (readMask parse what items).result =
      (readMask parse what others).result := by
  induction alike with
  | nil => rfl
  | cons alikeHead _ inductionHypothesis =>
    rw [readMask, readMask, alikeHead.scalar?_eq]
    split
    · rfl
    · rw [Attempt.result_bind, Attempt.result_bind, inductionHypothesis]

section

variable (alike : Alike node other) (action : Action)

include alike action

theorem parseOutcome_alike :
    (parseOutcome node action).result =
      (parseOutcome other action).result := by
  simp only [parseOutcome, Attempt.result_bind,
    actionField_alike alike _ (layoutless_scalar _)]
  rcases alike.find_cases "inherit".toList with ⟨first, second⟩ |
    ⟨value, another, first, second, alikeValue⟩
  · rw [first, second]
  · rw [first, second]
    simp only [Attempt.result_bind, readMask_alike _ _ alikeValue.asList]

theorem parseQos_alike :
    (parseQos node action).result = (parseQos other action).result := by
  simp only [parseQos, Attempt.result_bind, Attempt.result_ite,
    Attempt.result_warn, Attempt.result_pure, Option.bind_some,
    actionField_alike alike _ layoutless_as5qi,
    actionField_alike alike _ layoutless_asArp, alike.has_eq]

theorem parseAmbr_alike :
    (parseAmbr node action).result = (parseAmbr other action).result := by
  simp only [parseAmbr, Attempt.result_bind, Attempt.result_ite,
    Attempt.result_fail, Attempt.result_pure,
    actionField_alike alike _ layoutless_asKbps, alike.has_eq]

theorem parseQuota_alike :
    (parseQuota node action).result =
      (parseQuota other action).result := by
  simp only [parseQuota, Attempt.result_bind,
    actionField_alike alike _ layoutless_asBytes,
    actionField_alike alike _ layoutless_asSeconds,
    actionField_alike alike _ layoutless_asRatingGroup]

end

theorem parseRedirect_alike
    (redirects : Redirects) (alike : Alike node other) (action : Action) :
    (parseRedirect redirects node action).result =
      (parseRedirect redirects other action).result := by
  simp only [parseRedirect, Attempt.result_bind, Attempt.result_ite,
    Attempt.result_fail, Attempt.result_pure,
    actionField_alike alike _ (layoutless_scalar redirects.idOf)]

theorem parseFlags_alike (alike : Alike node other) (action : Action) :
    (parseFlags node action).result =
      (parseFlags other action).result := by
  unfold parseFlags
  rcases alike.find_cases "flags".toList with ⟨first, second⟩ |
    ⟨value, another, first, second, alikeValue⟩
  · rw [first, second]
  · rw [first, second]
    simp only [Attempt.result_bind, readMask_alike _ _ alikeValue.asList]

theorem parseAction_alike
    (redirects : Redirects) (alike : Alike node other) (action : Action) :
    (parseAction redirects node action).result =
      (parseAction redirects other action).result := by
  have warned : ∀ node, (warnUnknownKeys node actionKeys).result = some () :=
    fun _ => rfl
  simp only [parseAction, Attempt.result_bind, Attempt.result_ite,
    Attempt.result_fail, warned, alike.isMap_eq, parseOutcome_alike alike,
    parseQos_alike alike, parseAmbr_alike alike, parseQuota_alike alike,
    parseRedirect_alike redirects alike, parseFlags_alike alike]

theorem loadDefaultAction_alike (redirects : Redirects)
    {node other : Option Node}
    (alike : Option.Rel Alike node other) :
    (loadDefaultAction redirects node).result =
      (loadDefaultAction redirects other).result := by
  cases alike with
  | none => rfl
  | some alikeNode =>
    simp only [loadDefaultAction, Report.result_bind,
      Attempt.result_toReport, parseAction_alike redirects alikeNode]

end Policyd
