import Policyd.Engine
import Policyd.RuleCompiler

namespace Policyd

/-!
# What a rules file means

The abstract reading of a source rule, without bits, masks or tables: a
conjunction of conditions about named features of a situation.
`Condition.holds` is the meaning operators are promised.  `Condition.passes` is
the meaning the compiler gives a condition inside its rule: an empty list of
alternatives asks for nothing, and a feature that the rule also asserts is not
required to be absent.  The compiled table implements `passes` exactly.
-/

/-- Everything a decision depends on. -/
structure Situation where
  ruleSet : RuleSet
  request : PolicyRequest
  record : Option SubscriberRecord
  now : UInt64

/-- The feature word of a situation. -/
def Situation.features (situation : Situation) : FeatureWord :=
  buildFeatures situation.ruleSet situation.request situation.record
    situation.now

/-- The state of a subscriber; `none` stands for unknown. -/
def statusOf (record : Option SubscriberRecord) : Option SubscriberStatus :=
  record.bind fun record =>
    [SubscriberStatus.active, .suspended, .barred].find?
      (·.code == record.status)

/-- An atomic statement about a situation. -/
inductive Feature where
  | fixed (position : Nat)
  | status (state : Option SubscriberStatus)
  | rat (access : RatType)
  | dnn (name : Str)
  | usage (permille : Nat)
  | window (span : TimeWindow)
  deriving Repr, DecidableEq

/-- Whether a feature holds in a situation. -/
def Feature.holds (situation : Situation) : Feature → Bool
  | .fixed position => situation.features.getLsbD position
  | .status state => statusOf situation.record == state
  | .rat access => access.code == situation.request.ratType.toNat
  | .dnn name =>
    situation.ruleSet.dnnNames[situation.request.dnnId.toNat]? == some name
  | .usage permille =>
    match situation.record with
    | none => false
    | some record =>
      usageAtLeastPermille
        (effectiveUsage situation.request record).toNat
        (quotaOf situation.ruleSet record).toNat permille
  | .window span => span.contains (minuteOfDay situation.request)

/-- One condition of a rule. -/
inductive Condition where
  | require (feature : Feature) (want : Bool)
  | oneOf (features : List Feature)
  | noneOf (features : List Feature)
  deriving Repr, DecidableEq

namespace Condition

/-- Whether a condition holds in a situation, as it is written. -/
def holds (situation : Situation) : Condition → Bool
  | require feature want => feature.holds situation == want
  | oneOf features => features.any (·.holds situation)
  | noneOf features => features.all (!·.holds situation)

/-- Whether some condition of a rule asks for a feature to hold. -/
def asserted (conditions : List Condition) (feature : Feature) : Bool :=
  conditions.any fun condition =>
    match condition with
    | require other want => other == feature && want
    | oneOf features => features.contains feature
    | noneOf _ => false

/-- Whether a condition lets its rule fire in a situation. -/
def passes (conditions : List Condition) (situation : Situation) :
    Condition → Bool
  | require feature true => feature.holds situation
  | require feature false =>
    !feature.holds situation || asserted conditions feature
  | oneOf features =>
    features.isEmpty || features.any (·.holds situation)
  | noneOf features =>
    features.all fun feature =>
      !feature.holds situation || asserted conditions feature

theorem passes_of_holds {conditions : List Condition} {situation : Situation}
    {condition : Condition}
    (holds : condition.holds situation = true) :
    condition.passes conditions situation = true := by
  cases condition with
  | require feature want =>
    cases want <;> simp_all [Condition.holds, passes]
  | oneOf features =>
    simp_all [Condition.holds, passes]
  | noneOf features =>
    simp_all [Condition.holds, passes]

end Condition

/-- Read a status name. -/
def parseStatusName (text : Str) : Option (Option SubscriberStatus) :=
  let name := Str.toUpper text
  if name = "ACTIVE".toList then
    some (some .active)
  else if name = "SUSPENDED".toList then
    some (some .suspended)
  else if name = "BARRED".toList then
    some (some .barred)
  else if name = "UNKNOWN".toList then
    some none
  else
    none

/-- Read the scalars of a scalar-or-list node into features. -/
def readFeatures (parse : Str → Option Feature) (node : Node) :
    Option (List Feature) :=
  node.asList.mapM fun item => item.scalar?.bind parse

/-- Read a listed status. -/
def statusFeature (text : Str) : Option Feature :=
  (parseStatusName text).map .status

/-- Read a listed access type. -/
def ratFeature (text : Str) : Option Feature :=
  (parseRat text).map .rat

/-- Read a listed DNN. -/
def dnnFeature (text : Str) : Option Feature :=
  some (.dnn text)

/-- Read a time window. -/
def windowOf (node : Node) : Option TimeWindow := do
  let startMinute ← (← node.find "start".toList).asTimeOfDay
  let endMinute ← (← node.find "end".toList).asTimeOfDay
  return { startMinute := startMinute, endMinute := endMinute }

/-- Read one condition of a `when` mapping. -/
def readCondition (key : Str) (node : Node) : Option Condition :=
  match boolBit key with
  | some position =>
    node.asBool.map fun want => .require (.fixed position) want
  | none =>
    if key = "status".toList then
      (readFeatures statusFeature node).map .oneOf
    else if key = "rat".toList then
      (readFeatures ratFeature node).map .oneOf
    else if key = "not_rat".toList then
      (readFeatures ratFeature node).map .noneOf
    else if key = "dnn".toList then
      (readFeatures dnnFeature node).map .oneOf
    else if key = "not_dnn".toList then
      (readFeatures dnnFeature node).map .noneOf
    else if key = "usage_above".toList then
      node.asPermille.map fun permille => .require (.usage permille) true
    else if key = "usage_below".toList then
      node.asPermille.map fun permille => .require (.usage permille) false
    else if key = "time_between".toList then
      (windowOf node).map fun window => .require (.window window) true
    else if key = "not_time_between".toList then
      (windowOf node).map fun window => .require (.window window) false
    else
      none

/-- The fields of the `when` mapping of a rule, if it is a mapping. -/
def whenFields (item : Node) : Option (List (Str × Node)) :=
  match item.find "when".toList with
  | none => some []
  | some (.map _ fields) => some fields
  | some _ => none

/-- Read the conditions of a rule. -/
def readConditions (fields : List (Str × Node)) : Option (List Condition) :=
  fields.mapM fun (key, node) => readCondition key node

/-- The plan names a rule lists; the outer `none` means they are malformed. -/
def readPlanNames (item : Node) : Option (Option (List Str)) :=
  match item.find "plans".toList with
  | none => some none
  | some (.scalar _ name) => some (some [name])
  | some (.seq _ items) => (items.mapM Node.scalar?).map some
  | some _ => none

/-- A rule as the file writes it. -/
structure SourceRule where
  id : UInt32
  priority : UInt32
  plans : Option (List Str)
  conditions : List Condition
  action : Action
  deriving Repr, DecidableEq

/-- Read one rule of a file. -/
def readRule (redirects : Redirects) (item : Node) : Option SourceRule := do
  guard item.isMap
  let id ← ruleIdOf item
  let priority ← rulePriorityOf item
  let plans ← readPlanNames item
  let conditions ← readConditions (← whenFields item)
  let action ← (ruleAction redirects id item).result
  pure
    { id := id
      priority := priority
      plans := plans
      conditions := conditions
      action := action }

/-- The rules of a file, in file order. -/
def sourceRules (root : Node) : Option (List SourceRule) :=
  match root.find "rules".toList with
  | some (.seq _ items) =>
    items.mapM
      (readRule (loadRedirects (root.find "redirects".toList)).value)
  | _ => none

/-- The name of the plan of the record. -/
def Situation.planName (situation : Situation) : Option Str :=
  situation.record.bind fun record =>
    situation.ruleSet.planNames[record.planId.toNat]?

namespace SourceRule

/-- The rule has no `plans` key or names the plan of the record. -/
def namesPlan (rule : SourceRule) (situation : Situation) : Bool :=
  match rule.plans with
  | none => true
  | some names =>
    names.any fun name => situation.planName == some name

/-- The rule holds in a situation, as it is written. -/
def holdsAsWritten (rule : SourceRule) (situation : Situation) : Bool :=
  rule.namesPlan situation &&
    rule.conditions.all (Condition.holds situation)

/--
The rule fires in a situation unless another one fires first.  An empty list of
plans applies to every plan.
-/
def fires (rule : SourceRule) (situation : Situation) : Bool :=
  (rule.plans == some [] || rule.namesPlan situation) &&
    rule.conditions.all (Condition.passes rule.conditions situation)

theorem fires_of_holdsAsWritten {rule : SourceRule} {situation : Situation}
    (holds : rule.holdsAsWritten situation = true) :
    rule.fires situation = true := by
  rw [holdsAsWritten, Bool.and_eq_true, List.all_eq_true] at holds
  rw [fires, Bool.and_eq_true, Bool.or_eq_true, List.all_eq_true]
  exact ⟨.inr holds.1, fun condition member =>
    Condition.passes_of_holds (holds.2 condition member)⟩

end SourceRule

end Policyd
