import Benjamin.BoundedLog
import Benjamin.PlanExecutor
import Benjamin.PlanReview
import Benjamin.Planner

/-!
# The orchestrator

`handle` from the message to the task record: plan, review, execute, answer, record.
The trace, the retrieved memory and the semantic facts that a message leaves are left
out.
-/
namespace Orchestration

open PyBase PlanSchemas SkillRegistry AssistantState PlanExecutor PlanCritic Planner Effect

def builtinSkills : List Skill :=
  [⟨"reminders.create", "write", []⟩, ⟨"briefings.daily", "read", []⟩,
    ⟨"calendar.search", "read", []⟩, ⟨"gmail.search", "read", []⟩,
    ⟨"gmail.read_message", "read", []⟩, ⟨"gmail.thread_summary", "read", []⟩,
    ⟨"calendar.create_event", "write", []⟩, ⟨"gmail.draft_email", "write", []⟩]

def builtinRegistry : Registry := builtinSkills.foldl Registry.register Registry.empty

/-- The critic holds the libraries; `tasksMax` is what `int` makes of its variable. -/
structure Orchestrator where
  critic : Critic
  tasksMax : Int
  autowrite : Bool
  cwd : String

structure OrchestrationResult where
  taskId : String
  steps : List String ⊕ List PlanStep
  outputs : List String
  finalResponse : String
  stepResults : List StepResult

structure Prepared where
  taskId : String
  correlationId : String
  result : CriticResult
  plan : Plan

def startsWith (marker text : String) : Bool := marker.toList.isPrefixOf text.toList

/-- `text.split(":", 1)[1]` of a text with a colon. -/
def afterColon (text : String) : String :=
  String.ofList ((text.toList.dropWhile fun c => c ≠ ':').drop 1)

def approvalMarker : String := "approval_required:"
def policyMarker : String := "policy_denied:"

def createdId (result : StepResult) : Option String :=
  match truthy result.error with
  | some error => if startsWith approvalMarker error then some (afterColon error) else none
  | none => none

def approvalsCreated (results : List StepResult) : List String := results.filterMap createdId

def output (result : StepResult) : String :=
  match truthy result.output, truthy result.error with
  | some text, _ | none, some text => text
  | none, none => ""

def blockedSkill (step : PlanStep) (result : StepResult) : Option String :=
  let error := (truthy result.error).getD ""
  if startsWith policyMarker error then
    some (step.skillName.getD "None" ++ " requires [" ++ afterColon error ++ "]")
  else none

def finalResponse (steps : List PlanStep) (results : List StepResult) : String :=
  if results.any fun r => decide (r.error = some "safe_mode_denied") then
    "Safe mode enabled; cannot propose write actions."
  else
    match approvalsCreated results, (steps.zip results).filterMap fun p => blockedSkill p.1 p.2 with
    | id :: _, _ =>
      "Approval required to proceed. Approval ID: " ++ id ++ ". " ++
        "Use GET /approvals and POST /approvals/{id}/approve to continue."
    | [], blocked@(_ :: _) =>
      "Policy denied. Blocked skills: " ++ "; ".intercalate blocked ++ ". " ++
        "Remediation: go to /ui/scopes or call POST /v1/security/scopes/enable " ++
        "with the required scopes."
    | [], [] => ((results.map output).getLast?).getD ""

/-- `" ".join(text.split())`, cut to 120 characters. -/
def shorten (text : String) : String :=
  let words := (text.toList.splitOnP isSpace).filter fun word => word ≠ []
  let compact := [' '].intercalate words
  if compact.length ≤ 120 then String.ofList compact
  else String.ofList ((compact.take 119).reverse.dropWhile isSpace).reverse ++ "…"

def rememberTask (o : Orchestrator) (message answer : String) : Py Unit :=
  if o.autowrite then
    appendEpisode "task"
      ("User asked: " ++ shorten message ++ ". Assistant: " ++ shorten answer ++ ".") []
  else pure ()

/-- `TaskStore.append`: the record goes to the end, then the file is cut to its bound. -/
def appendTask (tasksMax : Int) (record : TaskRecord) : Py Unit := do
  onDisk fun d => { d with tasks := d.tasks ++ [record] }
  onDisk fun d => { d with tasks := BoundedLog.retain (max 1 tasksMax) d.tasks }

/-- `_persist_task_record`. -/
def persistTaskRecord (o : Orchestrator) (p : Prepared) (message answer : String)
    (results : List StepResult) : Py Unit := do
  let now ← Prog.read fun w : World => w.now
  appendTask o.tasksMax
    { taskId := p.taskId
      tsIso := isoformat now
      userMessage := message
      plan := p.plan
      stepResults := results
      approvalsCreated := approvalsCreated results
      answer
      correlationId := p.correlationId }

/-- `correlation_id_var.get() or str(uuid4())`. -/
def requestCorrelation (rt : Runtime) : Py String := fun w =>
  match truthy w.correlationId with
  | some current => (.ok current, w)
  | none => drawUuid rt w

/-- `handle` up to the answer of the critic. -/
def prepare (o : Orchestrator) (llm : LanguageModel) (message : String) : Py Prepared := do
  let taskId ← drawUuid o.critic.lib.toRuntime
  let correlationId ← requestCorrelation o.critic.lib.toRuntime
  let planned ← Planner.plan o.critic.lib llm message
  let now ← Prog.read fun w : World => w.now
  let (result, plan) ← Prog.ofExcept (review o.critic now planned)
  pure ⟨taskId, correlationId, result, plan⟩

/-- `handle` for a plan that is not accepted. -/
def askBack (o : Orchestrator) (message : String) (p : Prepared) : Py OrchestrationResult := do
  let answer := (truthy p.result.userQuestion).getD
    "I need a bit more detail before I can continue."
  persistTaskRecord o p message answer []
  pure ⟨p.taskId, .inl (p.plan.steps.map PlanStep.description), [], answer, []⟩

def chatRequester (p : Prepared) : Requester :=
  [("source", some "chat"), ("task_id", some p.taskId), ("correlation_id", some p.correlationId)]

/-- The plan of a request is executed for the chat; writes are never forced. -/
def executeRequest (o : Orchestrator) (message : String) (p : Prepared) : Py (List StepResult) :=
  executePlan o.critic.lib.toRuntime ⟨message, some o.cwd⟩ builtinRegistry (chatRequester p) false
    p.plan.steps

/-- `handle` for an accepted plan. -/
def carryOut (o : Orchestrator) (message : String) (p : Prepared) : Py OrchestrationResult := do
  let results ← executeRequest o message p
  let answer := finalResponse p.plan.steps results
  rememberTask o message answer
  persistTaskRecord o p message answer results
  pure ⟨p.taskId, .inr p.plan.steps, results.map output, answer, results⟩

def handle (o : Orchestrator) (llm : LanguageModel) (message : String) :
    Py OrchestrationResult := do
  let p ← prepare o llm message
  if p.result.ok then carryOut o message p else askBack o message p

end Orchestration
