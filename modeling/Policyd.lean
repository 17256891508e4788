import Policyd.Sha256Correctness
import Policyd.StoreSizing
import Policyd.Golden
import Policyd.QueryNumbers
import Policyd.QueryOrder
import Policyd.YamlSubset
import Policyd.YamlKeys
import Policyd.YamlDoubleQuotes
import Policyd.ExplainAgreement
import Policyd.HttpWorkerRuns
import Policyd.DecisionJson
import Policyd.FeatureConsistency
import Policyd.ShadowedRules
import Policyd.IntegerFields
import Policyd.BooleanConditions
import Policyd.TimeWindows
import Policyd.UdpLengths
import Policyd.RuleReordering
import Policyd.SlotExclusion
import Policyd.RosterLoading
import Policyd.RulesWatcher
import Policyd.ErrorBodies
import Policyd.HdrIndices
import Policyd.HdrMerging
import Policyd.UsageThresholds
import Policyd.UsageGrants
import Policyd.UdpEcho
import Policyd.LoadgenUdpLedger
import Policyd.LoadgenHttpLedger
import Policyd.IoUringReplies
import Policyd.AdminConnection
