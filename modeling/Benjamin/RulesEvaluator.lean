import Benjamin.Orchestrator
import Benjamin.RuleEngine
import Benjamin.SchedulerJobs

/-!
# The evaluation of all rules

`run_rules_evaluation`: a snapshot of the rules, and for each enabled one an
evaluation whose rule is written back. The policy of the engine is the one in force
when the pass builds it.
-/
namespace RulesEvaluator

open PyBase PlanSchemas ExecutionLedger LedgerKeys AssistantState RuleSchemas RuleMatching
  RuleStore RuleEngine SchedulerJobs Effect

/-- The constructors between the start of the run and its `try`: the orchestrator, an approval
service on the ledger of the run, the rule store, the router and the policy of the engine. -/
def buildParts (made : Constructors) (call : JobCall) : Job Engine := do
  constructAll made.orchestrator
  constructAll [made.approvalStore, made.permissionsPolicy, made.ruleStore]
  activeRouter made call
  construct made.permissionsPolicy
  let policy ← Prog.read fun s : JobState => s.world.policy
  pure ⟨Orchestration.builtinRegistry, policy⟩

def writeBack (rule : Rule) : Job Unit :=
  Prog.update fun s => { s with rules := upsert (isoformat s.world.now) rule s.rules }

/-- The loop over the snapshot. `feeds` are the replies of the connectors to each rule. -/
def evaluateAll (rt : Runtime) (engine : Engine) (feeds : Rule → Feed) (correlationId : String) :
    List Rule → Job (List RuleRunResult)
  | [] => pure []
  | rule :: rest =>
    if rule.enabled then do
      let (result, rule') ← onWorld (evaluateRule rt engine (feeds rule) (some correlationId) rule)
      writeBack rule'
      let results ← evaluateAll rt engine feeds correlationId rest
      pure (result :: results)
    else evaluateAll rt engine feeds correlationId rest

def markRun (key : Option String) (status : LedgerStatus) (metaUpdate : Dict) : Job Unit :=
  match key with
  | some key => onWorld (ledgerMark key status metaUpdate)
  | none => pure ()

/-- The `try` of the run. -/
def evaluateSnapshot (rt : Runtime) (engine : Engine) (feeds : Rule → Feed)
    (correlationId : String) (key : Option String) : Job (List RuleRunResult) :=
  Prog.attempt
    (do
      let rules ← Prog.read fun s : JobState => listAll s.rules
      let results ← evaluateAll rt engine feeds correlationId rules
      markRun key .succeeded [("rule_count", .int results.length)]
      pure results)
    fun exc => do
      markRun key .failed [("error", .str exc.str)]
      Prog.raise exc

def evaluateStarted (rt : Runtime) (made : Constructors) (call : JobCall) (feeds : Rule → Feed)
    (correlationId : String) (key : Option String) : Job (List RuleRunResult) := do
  let engine ← buildParts made call
  evaluateSnapshot rt engine feeds correlationId key

def runRulesEvaluation (rt : Runtime) (made : Constructors) (call : JobCall)
    (feeds : Rule → Feed) : Job (List RuleRunResult) := do
  construct made.memoryManager
  construct made.ledger
  let correlationId ← onWorld (drawUuid rt)
  if call.jobId = none then evaluateStarted rt made call feeds correlationId none
  else do
    let (key, started) ← startRun rt call "rules-evaluator" [] correlationId
    if !started then do
      onWorld <| appendEpisode "rule" "Skipped duplicate rules evaluator run"
        (call.skippedMeta "rules-evaluator" correlationId)
      pure []
    else evaluateStarted rt made call feeds correlationId (some key)

end RulesEvaluator
