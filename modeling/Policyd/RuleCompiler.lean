import Policyd.Imsi
import Policyd.Report
import Policyd.RuleSet
import Policyd.StableSort
import Policyd.SubscriberStore
import Policyd.YamlParser

namespace Policyd

/-!
# The rules compiler

`compileRules` turns the text of a rules file into a rule set, or into the list
of errors that keep it from being used; an error in one section does not stop
the others.  A source rule may need several compiled rules: `Matches` is the
list of mask and value pairs it has been expanded to so far.  `files` maps the
path of an IMEI blocklist to its contents.
-/

/-- An error of the compiler with the line it refers to. -/
structure RuleCompileError where
  message : Str
  line : Nat := 0
  deriving Repr, DecidableEq

/-- A section reader: it reports errors and warnings and goes on. -/
abbrev Compile := Report RuleCompileError

/-- A reader that stops at its first error. -/
abbrev CompileStep := Attempt RuleCompileError

/-- An error with a text from pieces. -/
def compileError (pieces : List Str) (line : Nat) : RuleCompileError :=
  { message := pieces.flatten, line := line }

/-- An error with a fixed text. -/
def plainError (message : String) (line : Nat) : RuleCompileError :=
  { message := message.toList, line := line }

/-- The line of a node that may be missing. -/
def lineOf (node : Option Node) : Nat :=
  (node.map Node.line).getD 0

/-- Read a verdict. -/
def parseVerdict (text : Str) : Option Verdict :=
  let name := Str.toUpper text
  if name = "ALLOW".toList ∨ name = "PERMIT".toList then
    some .allow
  else if name = "DENY".toList ∨ name = "REJECT".toList ∨
      name = "BLOCK".toList then
    some .deny
  else if name = "REDIRECT".toList then
    some .redirect
  else
    none

/-- Read a reason code. -/
def parseReason (text : Str) : Option Reason :=
  Reason.all.find? (·.name == Str.toUpper text)

/-- Read an access type. -/
def parseRat (text : Str) : Option RatType :=
  let name := Str.toUpper text
  if name = "LTE".toList ∨ name = "EUTRAN".toList ∨ name = "4G".toList then
    some .lte
  else if name = "NR".toList ∨ name = "5G".toList ∨
      name = "NGRAN".toList then
    some .nr
  else if name = "WLAN".toList ∨ name = "WIFI".toList ∨
      name = "WI-FI".toList then
    some .wlan
  else
    none

/-- Read a decision flag. -/
def parseDecisionFlag (text : Str) : Option UInt8 :=
  let name := Str.toUpper text
  if name = "THROTTLED".toList then
    some kFlagThrottled
  else if name = "ROAMING_RESTRICTED".toList then
    some kFlagRoamingRestricted
  else if name = "TETHERING_BLOCKED".toList then
    some kFlagTetheringBlocked
  else if name = "QUOTA_WARNING".toList then
    some kFlagQuotaWarning
  else if name = "OFF_PEAK_BONUS".toList then
    some kFlagOffPeakBonus
  else
    none

/-- Read the name of an inheritable field group. -/
def parseInherit (text : Str) : Option UInt8 :=
  let name := Str.toUpper text
  if name = "ALL".toList then
    some kInheritAll
  else if name = "QOS".toList then
    some kInheritQos
  else if name = "AMBR".toList then
    some kInheritAmbr
  else if name = "QUOTA".toList then
    some kInheritQuota
  else if name = "RATING_GROUP".toList then
    some kInheritRatingGroup
  else
    none

/-- Standardized 5QI values. -/
def isStandardized5qi (value : UInt8) : Bool :=
  [1, 2, 3, 4, 5, 6, 7, 8, 9, 65, 66, 67, 69, 70, 71, 72, 73, 74, 75, 76,
    79, 80, 82, 83, 84, 85, 86].contains value.toNat

/-- Warn about the fields of a mapping that the compiler ignores. -/
def checkUnknownKeys (node : Node) (known : List String) : List Str :=
  (node.fields.filter fun (key, _) =>
      !(known.map String.toList).contains key).map fun (key, value) =>
    "unknown key '".toList ++ key ++ "' at line ".toList ++
      decimal value.line ++ " (ignored)".toList

/-- Report a list of warnings. -/
def warnAll (warnings : List Str) : Compile Unit :=
  { value := (), warnings := warnings }

/-- Read the DNN names behind those already read. -/
def loadDnnItems : List Node → List Str → Compile (List Str)
  | [], names => pure names
  | item :: later, names =>
    if item.isScalar = false then do
      Report.problem (plainError "DNN entries must be names" item.line) ()
      loadDnnItems later names
    else if kMaxDnns ≤ names.length then
      Report.problem
        (compileError
          ["more than ".toList, decimal kMaxDnns,
            " DNNs; the feature word has ".toList, decimal kMaxDnns,
            " DNN bits".toList]
          item.line)
        names
    else if names.contains item.text then do
      Report.problem
        (compileError
          ["duplicate DNN '".toList, item.text, "'".toList] item.line) ()
      loadDnnItems later names
    else
      loadDnnItems later (names ++ [item.text])

/-- Read the DNN table. -/
def loadDnns (node : Option Node) : Compile (List Str) :=
  match node with
  | some (.seq _ items) => loadDnnItems items []
  | _ =>
    Report.problem
      (plainError "'dnns' must be a sequence of DNN/APN names"
        (lineOf node)) []

/-- The redirect targets and the identifiers of their names. -/
structure Redirects where
  targets : List Str := []
  ids : List (Str × UInt8) := []
  deriving Repr, DecidableEq

/-- The identifier of a redirect name; a repeated name keeps its last one. -/
def Redirects.idOf (redirects : Redirects) (name : Str) : Option UInt8 :=
  (redirects.ids.find? (·.1 == name)).map Prod.snd

/-- Read the redirect targets behind those already read. -/
def loadRedirectFields :
    List (Str × Node) → Redirects → Compile Redirects
  | [], redirects => pure redirects
  | (name, target) :: later, redirects =>
    if kMaxRedirects ≤ redirects.targets.length then
      Report.problem
        (compileError
          ["more than ".toList, decimal kMaxRedirects,
            " redirect targets".toList]
          target.line)
        redirects
    else if target.isScalar = false then do
      Report.problem
        (plainError "redirect target must be a string" target.line) ()
      loadRedirectFields later redirects
    else
      loadRedirectFields later
        { targets := redirects.targets ++ [target.text]
          ids :=
            (name, UInt8.ofNat redirects.targets.length) ::
              redirects.ids }

/-- Read the redirect table; its first entry means "no redirect". -/
def loadRedirects (node : Option Node) : Compile Redirects :=
  match node with
  | none => pure {}
  | some (.map _ fields) => loadRedirectFields fields { targets := [[]] }
  | some other =>
    Report.problem
      (plainError "'redirects' must be a mapping of name to target"
        other.line) {}

/-- Read an optional field of a plan, keeping its default on an error. -/
def planField
    {Value : Type}
    (plan : Node) (key : String) (read : Node → Option Value)
    (complaint : String) (default : Value) :
    Compile Value :=
  match plan.find key.toList with
  | none => pure default
  | some node =>
    match read node with
    | some value => pure value
    | none =>
      Report.problem
        (compileError [key.toList, complaint.toList] node.line) default

/-- A 5QI on the wire. -/
def Node.as5qi (node : Node) : Option UInt8 :=
  node.asUint.bind fun value =>
    if value = 0 ∨ 255 < value then none else some value.toUInt8

/-- An allocation and retention priority. -/
def Node.asArp (node : Node) : Option UInt8 :=
  node.asUint.bind fun value =>
    if value < 1 ∨ 15 < value then none else some value.toUInt8

/-- Whether a 5QI deserves a warning. -/
def unusual5qi (value : UInt8) : Bool :=
  !isStandardized5qi value && value < 128

/-- Read the 5QI of a plan. -/
def req5qi (plan : Node) (key : String) (default : UInt8) :
    Compile UInt8 := do
  let value ← planField plan key Node.as5qi " must be 1..255" default
  let written := (plan.find key.toList).bind Node.as5qi
  if (written.map unusual5qi).getD false then
    Report.warn
      ("5QI ".toList ++ decimal value.toNat ++
        " is not a standardized value".toList)
  return value

/-- Read the allocation and retention priority of a plan. -/
def reqArp (plan : Node) (key : String) (default : UInt8) :
    Compile UInt8 :=
  planField plan key Node.asArp " must be 1..15" default

/-- Read a bit rate of a plan. -/
def optKbps (plan : Node) (key : String) (default : UInt32) :
    Compile UInt32 :=
  planField plan key Node.asKbps " must be a bit rate like 50Mbps" default

/-- Read a byte size of a plan. -/
def optBytes (plan : Node) (key : String) (default : UInt64) :
    Compile UInt64 :=
  planField plan key Node.asBytes " must be a byte size like 20GB" default

/-- Read a duration of a plan. -/
def optSeconds (plan : Node) (key : String) (default : UInt32) :
    Compile UInt32 :=
  planField plan key Node.asSeconds " must be a duration like 30d" default

/-- Read an unsigned integer of a plan. -/
def optUint (plan : Node) (key : String) (default : UInt64) :
    Compile UInt64 :=
  planField plan key Node.asUint " must be a non-negative integer" default

/-- Read a truth value of a plan. -/
def optBool (plan : Node) (key : String) (default : Bool) :
    Compile Bool :=
  planField plan key Node.asBool " must be true or false" default

/-- The plan table with its names; a plan's id is its position. -/
structure PlanTable where
  names : List Str := []
  plans : List PlanConfig := []
  deriving Repr, DecidableEq

/-- The id of a plan name. -/
def PlanTable.idOf (table : PlanTable) (name : Str) : Option Nat :=
  table.names.findIdx? (· == name)

/-- The keys of a plan. -/
def planKeys : List String :=
  ["name", "qos_5qi", "arp", "ambr_ul", "ambr_dl", "quota",
    "quota_validity", "rating_group", "tethering", "roaming"]

/-- Read the parameters of one plan. -/
def readPlan (item : Node) (name : Str) (id : Nat) :
    Compile PlanConfig := do
  let qos5qi ← req5qi item "qos_5qi" 9
  let arp ← reqArp item "arp" 8
  let ambrUlKbps ← optKbps item "ambr_ul" 0
  let ambrDlKbps ← optKbps item "ambr_dl" 0
  let quotaBytes ← optBytes item "quota" 0
  let quotaValidityS ← optSeconds item "quota_validity" 0
  let ratingGroup ← optUint item "rating_group" 0
  let tethering ← optBool item "tethering" false
  let roaming ← optBool item "roaming" false
  if quotaBytes ≠ 0 ∧ quotaValidityS = 0 then
    Report.warn
      ("plan '".toList ++ name ++
        "' grants a quota with no validity time; grants will never expire".toList)
  pure
    { quotaBytes := quotaBytes
      quotaValidityS := quotaValidityS
      ratingGroup := ratingGroup.toUInt32
      ambrUlKbps := ambrUlKbps
      ambrDlKbps := ambrDlKbps
      id := UInt32.ofNat id
      qos5qi := qos5qi
      arp := arp
      flags :=
        (if tethering then kPlanTetheringAllowed else 0) |||
          (if roaming then kPlanRoamingAllowed else 0) }

/-- The name of a plan, when it has a nonempty one. -/
def planName (item : Node) : Option Node :=
  (item.find "name".toList).filter fun name =>
    name.isScalar && name.text != []

/-- Read the plans behind those already read. -/
def loadPlanItems : List Node → PlanTable → Compile PlanTable
  | [], table => pure table
  | item :: later, table =>
    if item.isMap = false then do
      Report.problem
        (plainError "each plan must be a mapping" item.line) ()
      loadPlanItems later table
    else do
      warnAll (checkUnknownKeys item planKeys)
      match planName item with
      | none => do
        Report.problem
          (plainError "plan is missing 'name'" item.line) ()
        loadPlanItems later table
      | some name =>
        if kMaxPlans ≤ table.names.length then
          Report.problem
            (compileError
              ["more than ".toList, decimal kMaxPlans,
                " plans; plan_mask is 32 bits".toList]
              item.line)
            table
        else if table.names.contains name.text then do
          Report.problem
            (compileError
              ["duplicate plan '".toList, name.text, "'".toList]
              name.line) ()
          loadPlanItems later table
        else do
          let plan ← readPlan item name.text table.names.length
          loadPlanItems later
            { names := table.names ++ [name.text]
              plans := table.plans ++ [plan] }

/-- Read the plan table. -/
def loadPlans (node : Option Node) : Compile PlanTable :=
  match node with
  | some (.seq _ (item :: later)) => loadPlanItems (item :: later) {}
  | _ =>
    Report.problem
      (plainError "'plans' must be a non-empty sequence" (lineOf node)) {}

/-- Read the listed networks behind those already read. -/
def loadPartnerItems : List Node → List UInt64 → Compile (List UInt64)
  | [], keys => pure keys
  | item :: later, keys =>
    if item.isScalar = false then do
      Report.problem
        (plainError "PLMN must be a scalar like 310-260" item.line) ()
      loadPartnerItems later keys
    else
      match parsePlmn item.text with
      | none => do
        Report.problem
          (compileError
            ["invalid PLMN '".toList, item.text, "'".toList]
            item.line) ()
        loadPartnerItems later keys
      | some plmn => loadPartnerItems later (keys ++ [plmn.toUInt64])

/-- Read the roaming partners. -/
def loadRoamingPartners (node : Option Node) : Compile FlatSet64 :=
  match node with
  | none => pure FlatSet64.empty
  | some (.seq _ items) => do
    let keys ← loadPartnerItems items []
    return FlatSet64.rebuild keys
  | some other =>
    Report.problem
      (plainError "'roaming_partners' must be a sequence of PLMNs"
        other.line)
      FlatSet64.empty

/-- Read the listed devices behind those already read. -/
def loadImeiItems : List Node → List UInt64 → Compile (List UInt64)
  | [], keys => pure keys
  | item :: later, keys =>
    if item.isScalar = false then do
      Report.problem (plainError "IMEI must be a scalar" item.line) ()
      loadImeiItems later keys
    else
      match (parseImei item.text).filter (· != 0) with
      | none => do
        Report.problem
          (compileError
            ["invalid IMEI '".toList, item.text, "'".toList]
            item.line) ()
        loadImeiItems later keys
      | some imei => loadImeiItems later (keys ++ [imei])

/-- The rows of a blocklist file that are neither empty nor comments. -/
def imeiRows (contents : Str) : List Str :=
  ((getlines contents).map (Str.trimRight ['\r', ' '])).filter fun row =>
    row != [] && row.head? != some '#'

/-- Read a blocklist file. -/
def loadImeiFile (files : Str → Option Str) (path : Str) (line : Nat) :
    Compile (List UInt64) :=
  match files path with
  | none =>
    Report.problem
      (compileError
        ["cannot open IMEI blocklist file '".toList, path, "'".toList]
        line)
      []
  | some contents => do
    let rows := imeiRows contents
    let keys :=
      rows.filterMap fun row => (parseImei row).filter (· != 0)
    let bad := rows.length - keys.length
    if bad ≠ 0 then
      Report.warn
        (decimal bad ++
          " malformed line(s) in IMEI blocklist '".toList ++ path ++
          "'".toList)
    return keys

/-- Read the IMEI blocklist, inline or from a file. -/
def loadImeiBlocklist (files : Str → Option Str) (node : Option Node) :
    Compile FlatSet64 :=
  match node with
  | none => pure FlatSet64.empty
  | some (.scalar line path) => do
    let keys ← loadImeiFile files path line
    return FlatSet64.rebuild keys
  | some (.seq _ items) => do
    let keys ← loadImeiItems items []
    return FlatSet64.rebuild keys
  | some other =>
    Report.problem
      (plainError "'imei_blocklist' must be a sequence or a file path"
        other.line)
      FlatSet64.empty

/-- The mask and value pairs a rule has been expanded to. -/
abbrev Matches := List (FeatureWord × FeatureWord)

/-- Compiled rules a source rule may expand to. -/
def kMaxExpansionPerRule : Nat := 64

/-- Require one bit to be set or clear. -/
def addBit (pairs : Matches) (position : Nat) (want : Bool) : Matches :=
  pairs.map fun (mask, value) =>
    (mask ||| Feat.bit position,
      if want then value ||| Feat.bit position else value)

/-- Require one of several bits; without any bit nothing is required. -/
def addOneOf
    (pairs : Matches) (positions : List Nat) (ruleId : UInt32) (line : Nat) :
    Except RuleCompileError Matches :=
  if positions = [] then
    .ok pairs
  else if kMaxExpansionPerRule < pairs.length * positions.length then
    .error
      (compileError
        ["rule ".toList, decimal ruleId.toNat, " expands to more than ".toList,
          decimal kMaxExpansionPerRule,
          " compiled rules; split it".toList]
        line)
  else
    .ok (pairs.flatMap fun (mask, value) =>
      positions.map fun position =>
        (mask ||| Feat.bit position, value ||| Feat.bit position))

/-- Require every listed bit to be clear. -/
def addNoneOf (pairs : Matches) (positions : List Nat) : Matches :=
  pairs.map fun (mask, value) =>
    (positions.foldl (fun mask position => mask ||| Feat.bit position) mask,
      value)

/-- The truth-valued conditions and their bits. -/
def boolConds : List (Str × Nat) :=
  [("roaming".toList, Feat.kRoaming),
    ("home_plmn".toList, Feat.kHomePlmn),
    ("roaming_partner".toList, Feat.kRoamingPartner),
    ("roaming_allowed".toList, Feat.kRoamingAllowed),
    ("imei_known".toList, Feat.kImeiKnown),
    ("imei_blocked".toList, Feat.kImeiBlocked),
    ("tethering_detected".toList, Feat.kTetheringDetected),
    ("tethering_allowed".toList, Feat.kTetheringAllowed),
    ("emergency".toList, Feat.kEmergency),
    ("quota_exhausted".toList, Feat.kQuotaExhausted),
    ("period_expired".toList, Feat.kPeriodExpired),
    ("requested_gbr".toList, Feat.kRequestedGbr)]

/-- The bit of a truth-valued condition. -/
def boolBit (key : Str) : Option Nat :=
  (boolConds.find? (·.1 == key)).map Prod.snd

/-- The bit of a status name. -/
def statusNameBit (text : Str) : Option Nat :=
  let name := Str.toUpper text
  if name = "ACTIVE".toList then
    some Feat.kStatusActive
  else if name = "SUSPENDED".toList then
    some Feat.kStatusSuspended
  else if name = "BARRED".toList then
    some Feat.kStatusBarred
  else if name = "UNKNOWN".toList then
    some Feat.kStatusUnknown
  else
    none

/-- Read one value of a `status` condition. -/
def readStatus (node : Node) : Except RuleCompileError Nat :=
  if node.isScalar = false then
    .error (plainError "'status' must be a name" node.line)
  else
    match statusNameBit node.text with
    | some position => .ok position
    | none =>
      .error (compileError
        ["unknown status '".toList, node.text, "'".toList] node.line)

/-- Read one value of a `rat` or `not_rat` condition. -/
def readRat (node : Node) : Except RuleCompileError Nat :=
  match node.scalar?.bind parseRat with
  | some rat => .ok (Feat.kRatBase + rat.code)
  | none =>
    .error (compileError
      ["unknown access type '".toList, node.text, "'".toList] node.line)

/-- Read one value of a `dnn` or `not_dnn` condition. -/
def readDnn (dnnNames : List Str) (node : Node) :
    Except RuleCompileError Nat :=
  if node.isScalar = false then
    .error (plainError "'dnn' must be a name" node.line)
  else
    match dnnNames.findIdx? (· == node.text) with
    | some index => .ok (Feat.kDnnBase + index)
    | none =>
      .error (compileError
        ["unknown DNN '".toList, node.text,
          "' (add it to the 'dnns' list)".toList]
        node.line)

/-- The bit of a usage threshold, assigned on first use. -/
def internUsageThreshold
    (tables : PredicateTables) (permille : Nat) (line : Nat) :
    Except RuleCompileError (PredicateTables × Nat) :=
  match tables.usageThresholdsPermille.findIdx? (· == permille) with
  | some index => .ok (tables, Feat.kUsageThresholdBase + index)
  | none =>
    if kMaxUsageThresholds ≤ tables.usageThresholdsPermille.length then
      .error (compileError
        ["more than ".toList, decimal kMaxUsageThresholds,
          " distinct usage thresholds; the feature word has no room".toList]
        line)
    else
      .ok
        ({ tables with
            usageThresholdsPermille :=
              tables.usageThresholdsPermille ++ [permille] },
          Feat.kUsageThresholdBase +
            tables.usageThresholdsPermille.length)

/-- The bit of a time window, assigned on first use. -/
def internTimeWindow
    (tables : PredicateTables) (window : TimeWindow) (line : Nat) :
    Except RuleCompileError (PredicateTables × Nat) :=
  match tables.timeWindows.findIdx? (· == window) with
  | some index => .ok (tables, Feat.kTimeWindowBase + index)
  | none =>
    if kMaxTimeWindows ≤ tables.timeWindows.length then
      .error (compileError
        ["more than ".toList, decimal kMaxTimeWindows,
          " distinct time windows".toList]
        line)
    else
      .ok
        ({ tables with timeWindows := tables.timeWindows ++ [window] },
          Feat.kTimeWindowBase + tables.timeWindows.length)

/-- The window a `time_between` or `not_time_between` condition writes. -/
def readWindow (key : Str) (node : Node) :
    Except RuleCompileError TimeWindow :=
  match node.find "start".toList, node.find "end".toList with
  | some startNode, some endNode =>
    match startNode.asTimeOfDay, endNode.asTimeOfDay with
    | some startMinute, some endMinute =>
      .ok { startMinute := startMinute, endMinute := endMinute }
    | _, _ =>
      .error
        (plainError "times must be HH:MM in 24-hour form" node.line)
  | _, _ =>
    .error (compileError
      ["'".toList, key,
        "' needs \x7bstart: HH:MM, end: HH:MM\x7d".toList]
      node.line)

/-- Add one condition of a rule to its expansion. -/
def compileCondition
    (dnnNames : List Str) (ruleId : UInt32) (tables : PredicateTables)
    (pairs : Matches) (key : Str) (node : Node) :
    Except RuleCompileError (PredicateTables × Matches) :=
  match boolBit key with
  | some position =>
    match node.asBool with
    | some want => .ok (tables, addBit pairs position want)
    | none =>
      .error (compileError
        ["condition '".toList, key, "' must be true or false".toList]
        node.line)
  | none =>
    if key = "status".toList then do
      let positions ← node.asList.mapM readStatus
      return (tables, ← addOneOf pairs positions ruleId node.line)
    else if key = "rat".toList then do
      let positions ← node.asList.mapM readRat
      return (tables, ← addOneOf pairs positions ruleId node.line)
    else if key = "not_rat".toList then do
      let positions ← node.asList.mapM readRat
      return (tables, addNoneOf pairs positions)
    else if key = "dnn".toList then do
      let positions ← node.asList.mapM (readDnn dnnNames)
      return (tables, ← addOneOf pairs positions ruleId node.line)
    else if key = "not_dnn".toList then do
      let positions ← node.asList.mapM (readDnn dnnNames)
      return (tables, addNoneOf pairs positions)
    else if key = "usage_above".toList ∨ key = "usage_below".toList then
      match node.asPermille with
      | none =>
        .error (compileError
          ["'".toList, key, "' must be a percentage like 80%".toList]
          node.line)
      | some permille => do
        let (tables, position) ←
          internUsageThreshold tables permille node.line
        return (tables,
          addBit pairs position (key == "usage_above".toList))
    else if key = "time_between".toList ∨
        key = "not_time_between".toList then do
      let window ← readWindow key node
      let (tables, position) ← internTimeWindow tables window node.line
      return (tables,
        addBit pairs position (key == "time_between".toList))
    else
      .error (compileError
        ["unknown condition '".toList, key, "'".toList] node.line)

/--
Add the conditions of a rule to its expansion.  Predicates interned before an
error stay interned.
-/
def compileFields (dnnNames : List Str) (ruleId : UInt32) :
    List (Str × Node) → PredicateTables → Matches →
      PredicateTables × Except RuleCompileError Matches
  | [], tables, pairs => (tables, .ok pairs)
  | (key, node) :: later, tables, pairs =>
    match compileCondition dnnNames ruleId tables pairs key node with
    | .error failure => (tables, .error failure)
    | .ok (tables, pairs) =>
      compileFields dnnNames ruleId later tables pairs

/-- Compile the `when` mapping of a rule. -/
def compileWhen
    (dnnNames : List Str) (ruleId : UInt32) (when? : Option Node)
    (tables : PredicateTables) :
    PredicateTables × Except RuleCompileError Matches :=
  match when? with
  | none => (tables, .ok [(0, 0)])
  | some (.map _ fields) =>
    compileFields dnnNames ruleId fields tables [(0, 0)]
  | some other =>
    (tables, .error (plainError "'when' must be a mapping" other.line))

/-- The keys of an action. -/
def actionKeys : List String :=
  ["verdict", "reason", "qos_5qi", "arp", "ambr_ul", "ambr_dl",
    "rating_group", "quota", "quota_validity", "redirect", "flags",
    "inherit"]

/-- Warn about the ignored fields of a node and continue. -/
def warnUnknownKeys (node : Node) (known : List String) :
    CompileStep Unit :=
  { outcome := .ok (), warnings := checkUnknownKeys node known }

/-- Set a field of an action from an optional field of its node. -/
def actionField
    {Value : Type}
    (node : Node) (key : String) (read : Node → Option Value)
    (complaint : Node → Str) (set : Value → Action → Action)
    (action : Action) :
    CompileStep Action :=
  match node.find key.toList with
  | none => pure action
  | some field =>
    match read field with
    | some value => pure (set value action)
    | none =>
      Attempt.fail { message := complaint field, line := field.line }

/-- Quote the text of a rejected node. -/
def complainAbout (what : String) (node : Node) : Str :=
  quoted what node.text

/-- A fixed complaint. -/
def complain (message : String) (_ : Node) : Str :=
  message.toList

/-- Read the scalars of a scalar-or-list node into one mask. -/
def readMask (parse : Str → Option UInt8) (what : String) (nodes : List Node) :
    CompileStep UInt8 :=
  match nodes with
  | [] => pure 0
  | node :: later =>
    match node.scalar?.bind parse with
    | none =>
      Attempt.fail
        { message := complainAbout what node, line := node.line }
    | some mask => do
      let rest ← readMask parse what later
      return mask ||| rest

/-- Leave fields out of the inherited ones. -/
def Action.override (action : Action) (mask : UInt8) : Action :=
  { action with inheritMask := action.inheritMask &&& ~~~mask }

/-- The verdict, reason and inherited fields of an action. -/
def parseOutcome (node : Node) (action : Action) :
    CompileStep Action := do
  let action ←
    actionField node "verdict" (fun field => field.scalar?.bind parseVerdict)
      (complainAbout "unknown verdict")
      (fun verdict action => { action with verdict := verdict.code }) action
  let action ←
    actionField node "reason" (fun field => field.scalar?.bind parseReason)
      (complainAbout "unknown reason code")
      (fun reason action => { action with reason := reason.code }) action
  match node.find "inherit".toList with
  | none => return action
  | some field => do
    let mask ← readMask parseInherit "unknown inherit field" field.asList
    return { action with inheritMask := mask }

/-- The 5QI and the retention priority of an action, which go together. -/
def parseQos (node : Node) (action : Action) : CompileStep Action := do
  let action ←
    actionField node "qos_5qi" Node.as5qi (complain "qos_5qi must be 1..255")
      (fun value action =>
        { action.override kInheritQos with qos5qi := value }) action
  if node.has "qos_5qi".toList ∧ unusual5qi action.qos5qi then
    Attempt.warn
      ("5QI ".toList ++ decimal action.qos5qi.toNat ++
        " is not a standardized value and is below the operator-specific range (128-254)".toList)
  let action ←
    actionField node "arp" Node.asArp (complain "arp must be 1..15")
      (fun value action =>
        { action.override kInheritQos with arp := value }) action
  if node.has "qos_5qi".toList ≠ node.has "arp".toList then do
    Attempt.warn
      ("action at line ".toList ++ decimal node.line ++
        " sets only one of qos_5qi/arp; the other defaults rather than inheriting".toList)
    if node.has "arp".toList then
      return { action with qos5qi := 9 }
    else
      return { action with arp := 8 }
  else
    return action

/-- The bit rates of an action, which must be set together. -/
def parseAmbr (node : Node) (action : Action) : CompileStep Action := do
  let action ←
    actionField node "ambr_ul" Node.asKbps
      (complain "ambr_ul must be a bit rate like 10Mbps")
      (fun value action => { action with ambrUlKbps := value }) action
  let action ←
    actionField node "ambr_dl" Node.asKbps
      (complain "ambr_dl must be a bit rate like 50Mbps")
      (fun value action => { action with ambrDlKbps := value }) action
  if node.has "ambr_ul".toList ≠ node.has "ambr_dl".toList then
    Attempt.fail
      (plainError "an action must set both ambr_ul and ambr_dl, or neither"
        node.line)
  else if node.has "ambr_ul".toList then
    return action.override kInheritAmbr
  else
    return action

/-- A rating group that fits its wire field. -/
def Node.asRatingGroup (node : Node) : Option UInt32 :=
  node.asUint.bind fun value =>
    if 0xFFFFFFFF < value then none else some value.toUInt32

/-- The quota and rating group of an action. -/
def parseQuota (node : Node) (action : Action) : CompileStep Action := do
  let action ←
    actionField node "quota" Node.asBytes
      (complain "quota must be a byte size like 20GB")
      (fun value action =>
        { action.override kInheritQuota with quotaBytes := value }) action
  let action ←
    actionField node "quota_validity" Node.asSeconds
      (complain "quota_validity must be a duration like 30d")
      (fun value action =>
        { action.override kInheritQuota with quotaValidityS := value })
      action
  actionField node "rating_group" Node.asRatingGroup
    (complain "rating_group must be an integer")
    (fun value action =>
      { action.override kInheritRatingGroup with ratingGroup := value })
    action

/-- The redirect target of an action. -/
def parseRedirect (redirects : Redirects) (node : Node) (action : Action) :
    CompileStep Action := do
  let action ←
    actionField node "redirect"
      (fun field => field.scalar?.bind redirects.idOf)
      (fun field =>
        if field.isScalar then
          complainAbout "unknown redirect target" field
        else
          "redirect must name a target from 'redirects'".toList)
      (fun value action => { action with redirectId := value }) action
  if action.verdict = Verdict.redirect.code ∧ action.redirectId = 0 then
    Attempt.fail
      (plainError "a REDIRECT action must name a redirect target" node.line)
  else
    return action

/-- The decision flags of an action. -/
def parseFlags (node : Node) (action : Action) : CompileStep Action :=
  match node.find "flags".toList with
  | none => pure action
  | some field => do
    let mask ←
      readMask parseDecisionFlag "unknown decision flag" field.asList
    return { action with setFlags := action.setFlags ||| mask }

/-- Read an action over its defaults. -/
def parseAction (redirects : Redirects) (node : Node) (action : Action) :
    CompileStep Action :=
  if node.isMap = false then
    Attempt.fail (plainError "'action' must be a mapping" node.line)
  else do
    warnUnknownKeys node actionKeys
    let action ← parseOutcome node action
    let action ← parseQos node action
    let action ← parseAmbr node action
    let action ← parseQuota node action
    let action ← parseRedirect redirects node action
    parseFlags node action

/-- The action when no rule matches and the file says nothing else. -/
def defaultDenyAction : Action :=
  { verdict := Verdict.deny.code, reason := Reason.policyDefaultDeny.code }

/-- The action a rule starts from. -/
def ruleActionDefaults : Action :=
  { verdict := Verdict.allow.code
    reason := Reason.ok.code
    inheritMask := kInheritAll }

/-- Read one plan reference of a rule. -/
def readPlanReference (plans : PlanTable) (node : Node) :
    Except RuleCompileError Nat :=
  if node.isScalar = false then
    .error (plainError "plan reference must be a name" node.line)
  else
    match plans.idOf node.text with
    | some id => .ok id
    | none =>
      .error (compileError
        ["rule references unknown plan '".toList, node.text, "'".toList]
        node.line)

/-- Add the plans of a list to a mask, reporting every unknown one. -/
def addPlanReferences (plans : PlanTable) :
    List Node → PlanMask → Compile (Option PlanMask)
  | [], mask => pure (some mask)
  | node :: later, mask =>
    match readPlanReference plans node with
    | .ok id =>
      addPlanReferences plans later (mask ||| MaskedWords.oneBit 32 id)
    | .error failure => do
      Report.problem failure ()
      let _ ← addPlanReferences plans later mask
      return none

/-- The plan mask of a rule; `0` stands for every plan. -/
def resolvePlanMask (plans : PlanTable) (node : Option Node) :
    Compile (Option PlanMask) :=
  match node with
  | none => pure (some 0)
  | some (.scalar line text) =>
    addPlanReferences plans [.scalar line text] 0
  | some (.seq _ items) => addPlanReferences plans items 0
  | some other =>
    Report.problem
      (plainError "'plans' must be a name or a list of names" other.line)
      none

/-- What the rules read so far have produced. -/
structure RuleLoad where
  tables : PredicateTables := {}
  seenRuleIds : List UInt32 := []
  rules : List CompiledRule := []
  deriving Repr, DecidableEq

/-- The tables rules refer to. -/
structure RuleContext where
  dnnNames : List Str
  redirects : Redirects
  plans : PlanTable

/-- The keys of a rule. -/
def ruleKeys : List String :=
  ["id", "name", "priority", "plans", "when", "action"]

/-- The nonzero identifier of a rule. -/
def ruleIdOf (item : Node) : Option UInt32 :=
  ((item.find "id".toList).bind Node.asUint).bind fun value =>
    if value = 0 ∨ 0xFFFFFFFF < value then none else some value.toUInt32

/-- The priority of a rule. -/
def rulePriorityOf (item : Node) : Option UInt32 :=
  ((item.find "priority".toList).bind Node.asUint).bind fun value =>
    if 0xFFFFFFFF < value then none else some value.toUInt32

/-- The compiled rules of one source rule. -/
def compiledRules
    (pairs : Matches) (planMask : PlanMask) (id priority : UInt32)
    (action : Action) :
    List CompiledRule :=
  pairs.map fun (mask, value) =>
    { matchMask := mask
      matchValue := value
      planMask := planMask
      id := id
      priority := priority
      action := action }

/-- The action of a rule. -/
def ruleAction (redirects : Redirects) (ruleId : UInt32) (item : Node) :
    CompileStep Action :=
  match item.find "action".toList with
  | none =>
    Attempt.fail
      (compileError
        ["rule ".toList, decimal ruleId.toNat, " has no 'action'".toList]
        item.line)
  | some node => parseAction redirects node ruleActionDefaults

/--
Read a rule with a fresh identifier and a priority.  The flag says whether the
rule table overflowed, which ends the section.
-/
def loadRuleBody
    (context : RuleContext) (item : Node) (id priority : UInt32)
    (load : RuleLoad) :
    Compile (RuleLoad × Bool) := do
  match ← resolvePlanMask context.plans (item.find "plans".toList) with
  | none => return (load, false)
  | some planMask =>
    let (tables, compiled) :=
      compileWhen context.dnnNames id (item.find "when".toList)
        load.tables
    let load := { load with tables := tables }
    match compiled with
    | .error failure => Report.problem failure (load, false)
    | .ok pairs => do
      match ← (ruleAction context.redirects id item).toReport with
      | none => return (load, false)
      | some action =>
        if kMaxRules < load.rules.length + pairs.length then
          Report.problem
            (compileError
              ["rule table exceeds ".toList, decimal kMaxRules,
                " compiled rules".toList]
              item.line)
            (load, true)
        else
          pure
            ({ load with
                rules :=
                  load.rules ++
                    compiledRules pairs planMask id priority action },
              false)

/-- Read one rule. -/
def loadRule (context : RuleContext) (item : Node) (load : RuleLoad) :
    Compile (RuleLoad × Bool) :=
  if item.isMap = false then
    Report.problem
      (plainError "each rule must be a mapping" item.line) (load, false)
  else do
    warnAll (checkUnknownKeys item ruleKeys)
    match ruleIdOf item with
    | none =>
      Report.problem
        (plainError
          "rule needs a non-zero integer 'id' (0 is reserved for 'no rule fired')"
          item.line)
        (load, false)
    | some id =>
      if load.seenRuleIds.contains id then
        Report.problem
          (compileError
            ["duplicate rule id ".toList, decimal id.toNat] item.line)
          (load, false)
      else
        let load :=
          { load with seenRuleIds := id :: load.seenRuleIds }
        match rulePriorityOf item with
        | none =>
          Report.problem
            (compileError
              ["rule ".toList, decimal id.toNat,
                " needs an integer 'priority'".toList]
              item.line)
            (load, false)
        | some priority => loadRuleBody context item id priority load

/-- Read the rules behind those already read. -/
def loadRuleItems (context : RuleContext) :
    List Node → RuleLoad → Compile RuleLoad
  | [], load => pure load
  | item :: later, load => do
    let (load, overflowed) ← loadRule context item load
    if overflowed then
      return load
    else
      loadRuleItems context later load

/-- Read the rules. -/
def loadRules (context : RuleContext) (node : Option Node) :
    Compile RuleLoad :=
  match node with
  | some (.seq _ items) => loadRuleItems context items {}
  | _ =>
    Report.problem
      (plainError "'rules' must be a sequence" (lineOf node)) {}

/-- Order compiled rules by priority, keeping file order among equals. -/
def sortRules (rules : List CompiledRule) : List CompiledRule :=
  sortByRank (fun rule => rule.priority.toNat) rules

/-- An earlier rule of another source rule always matches first. -/
def CompiledRule.shadows (earlier later : CompiledRule) : Bool :=
  earlier.id != later.id &&
    later.matchMask &&& earlier.matchMask == earlier.matchMask &&
    later.matchValue &&& earlier.matchMask == earlier.matchValue &&
    !(earlier.planMask != 0 &&
      (later.planMask == 0 || later.planMask &&& ~~~earlier.planMask != 0))

/-- The warning about a rule that can never fire. -/
def shadowWarning (earlier later : CompiledRule) : Str :=
  "rule ".toList ++ decimal later.id.toNat ++ " (priority ".toList ++
    decimal later.priority.toNat ++ ") can never fire: rule ".toList ++
    decimal earlier.id.toNat ++ " (priority ".toList ++
    decimal earlier.priority.toNat ++ ") always matches first".toList

/-- Warn about every rule behind the given ones that can never fire. -/
def shadowWarnings : List CompiledRule → List CompiledRule → List Str
  | _, [] => []
  | earlier, rule :: later =>
    ((earlier.find? (·.shadows rule)).map (shadowWarning · rule)).toList ++
      shadowWarnings (earlier ++ [rule]) later

/-- The warnings about the sorted rules. -/
def orderWarnings (rules : List CompiledRule) : List Str :=
  shadowWarnings [] rules ++
    if rules = [] then
      ["rule set contains no rules; every request takes the default action".toList]
    else
      []

/-- The default action of a file. -/
def loadDefaultAction (redirects : Redirects) (node : Option Node) :
    Compile Action :=
  match node with
  | none => pure defaultDenyAction
  | some node => do
    let parsed ← (parseAction redirects node defaultDenyAction).toReport
    return parsed.getD defaultDenyAction

/-- The keys of a rules file. -/
def fileKeys : List String :=
  ["version", "dnns", "plans", "redirects", "roaming_partners",
    "imei_blocklist", "default_action", "rules"]

/-- Read every section of a rules file. -/
def compileSections
    (files : Str → Option Str) (root : Node) (version : UInt32) :
    Compile RuleSet := do
  warnAll (checkUnknownKeys root fileKeys)
  let dnnNames ← loadDnns (root.find "dnns".toList)
  let redirects ← loadRedirects (root.find "redirects".toList)
  let plans ← loadPlans (root.find "plans".toList)
  let partners ← loadRoamingPartners (root.find "roaming_partners".toList)
  let blocklist ←
    loadImeiBlocklist files (root.find "imei_blocklist".toList)
  let defaultAction ←
    loadDefaultAction redirects (root.find "default_action".toList)
  let load ←
    loadRules
      { dnnNames := dnnNames, redirects := redirects, plans := plans }
      (root.find "rules".toList)
  pure
    { toPredicateTables := load.tables
      version := version
      rules := load.rules
      plans := plans.plans
      roamingPartners := partners
      imeiBlocklist := blocklist
      planNames := plans.names
      dnnNames := dnnNames
      redirectTargets := redirects.targets
      defaultAction := defaultAction }

/-- The outcome of compiling a rules file. -/
structure RuleCompileResult where
  ruleSet : Option RuleSet := none
  errors : List RuleCompileError := []
  warnings : List Str := []

/-- A usable outcome. -/
def RuleCompileResult.ok (result : RuleCompileResult) : Bool :=
  result.ruleSet.isSome && result.errors.isEmpty

/-- Compile a parsed rules file. -/
def compileRoot (files : Str → Option Str) (root : Node) (version : UInt32) :
    RuleCompileResult :=
  if root.isMap = false then
    { errors :=
        [plainError "rules file must be a mapping at the top level"
          root.line] }
  else
    let report := compileSections files root version
    if report.problems = [] then
      let rules := sortRules report.value.rules
      { ruleSet := some { report.value with rules := rules }
        warnings := report.warnings ++ orderWarnings rules }
    else
      { errors := report.problems, warnings := report.warnings }

/-- Compile the text of a rules file. -/
def compileRules (files : Str → Option Str) (text : Str) (version : UInt32) :
    RuleCompileResult :=
  match Yaml.parse text with
  | .error (.failed message line) =>
    { errors := [{ message := message, line := line }] }
  | .error .outOfFuel => {}
  | .ok root => compileRoot files root version

/-- Compile the rules file at a path. -/
def compileRulesFromFile
    (files : Str → Option Str) (path : Str) (version : UInt32) :
    RuleCompileResult :=
  match files path with
  | none =>
    { errors :=
        [{ message := "cannot open rules file: ".toList ++ path
           line := 0 }] }
  | some text => compileRules files text version

/-- One error with its line, if it has one. -/
def RuleCompileError.summary (error : RuleCompileError) : Str :=
  (if 0 < error.line then
      "line ".toList ++ decimal error.line ++ ": ".toList
    else
      []) ++ error.message

/-- All errors of an outcome in one text. -/
def RuleCompileResult.errorSummary (result : RuleCompileResult) : Str :=
  List.intercalate "; ".toList
    (result.errors.map RuleCompileError.summary)

end Policyd
