import Benjamin.PyBase
import Benjamin.Effect
import Benjamin.KeyedList
import Benjamin.BoundedLog
import Benjamin.SerialRun
import Benjamin.OneWayRecords
import Benjamin.Amendments
import Benjamin.ClaimedWork
import Benjamin.ExecutionLedger
import Benjamin.LedgerWindow
import Benjamin.LedgerFileLock
import Benjamin.LockedCalls
import Benjamin.PlanSchemas
import Benjamin.SecurityPolicy
import Benjamin.SkillRegistry
import Benjamin.LedgerKeys
import Benjamin.AssistantState
import Benjamin.ApprovalStore
import Benjamin.PlanExecutor
import Benjamin.ApprovalService
import Benjamin.ApprovalOutcome
import Benjamin.ApprovalRace
import Benjamin.RuleSchemas
import Benjamin.RuleMatching
import Benjamin.RuleEngine
import Benjamin.RuleActionOnce
import Benjamin.RuleCandidates
import Benjamin.RuleNotices
import Benjamin.CircuitBreaker
import Benjamin.BreakerManager
import Benjamin.BreakerRecovery
import Benjamin.BreakerSharing
import Benjamin.PolicyOverrides
import Benjamin.PyJson
import Benjamin.PlanCritic
import Benjamin.PlanReview
import Benjamin.Planner
import Benjamin.PlanningReturns
import Benjamin.ReminderSkill
import Benjamin.Orchestrator
import Benjamin.PlanResults
import Benjamin.AcceptedPlan
import Benjamin.RuleStore
import Benjamin.SchedulerJobs
import Benjamin.RulesEvaluator
import Benjamin.LedgerClients
import Benjamin.JsonLines
import Benjamin.Doctor
import Benjamin.DoctorReading
import Benjamin.BackedRewrites
import Benjamin.DoctorBackups
import Benjamin.CappedSelection
import Benjamin.RulePreview
import Benjamin.DryRun
import Benjamin.RuleEdits
import Benjamin.CompactionRace
import Benjamin.JsonScan
import Benjamin.StoredRecords
import Benjamin.TornTail
import Benjamin.RuleStoreRuns
import Benjamin.RuleWriteFailure
import Benjamin.ApprovalMap
import Benjamin.SeenWindow
import Benjamin.ReviewedPlan
import Benjamin.ReadModifyWrite
import Benjamin.ApprovalCleanup
import Benjamin.ApprovalWrites
import Benjamin.RuleCooldown
import Benjamin.RunSearch
import Benjamin.WriteMediation
import Benjamin.CorrelationView
import Benjamin.TaskStatus
import Benjamin.SeparatedText
import Benjamin.CanonicalJson
import Benjamin.ActionKeys
import Benjamin.StateFiles
import Benjamin.JsonReader
import Benjamin.RepairedFiles
import Benjamin.RewrittenFiles
import Benjamin.GuardedPreview
import Benjamin.NotifyTemplate
import Benjamin.CompactedRows
import Benjamin.HttpRetries
import Benjamin.NewestScans
import Benjamin.LogContext
import Benjamin.GmailBody
import Benjamin.ApprovalLifecycle
import Benjamin.JobRace
import Benjamin.SemanticMemory
import Benjamin.ChatMemory
import Benjamin.TokenlessRequests
import Benjamin.IndentedJson
import Benjamin.StateDocuments
import Benjamin.LlmReplies
