import Benjamin.CompactionRace

/-!
# The records of the JSONL files

What `model_dump` makes of a task record, an episode and a ledger record, and what
`model_validate` accepts: a field of the wrong type is an error, an absent one too unless
it has a default, and other fields are ignored. Their fields are texts, objects, lists and
the words of a `Literal`, which pydantic makes of no other JSON value. The approvals, whose
steps and results have booleans, are validated in `RecordModels`.
-/
namespace StoredRecords

open PyBase PlanSchemas AssistantState ExecutionLedger CompactionRace

/-- A task record as its file keeps it. -/
structure StoredTask where
  taskId : String
  tsIso : String
  source : String
  userMessage : String
  plan : Dict
  stepResults : List Dict
  approvalsCreated : List String
  answer : String
  traceEvents : List Dict
  correlationId : String

/-- An approval as its file keeps it: what asked for it may be any object. -/
structure StoredApproval where
  id : String
  createdAtIso : String
  expiresAtIso : String
  status : ApprovalStatus
  requester : Dict
  step : PlanStep
  context : Dict
  rationale : String
  result : Option StepResult
  error : Option String
  requiredScopes : List String
  policySnapshot : Dict
  policySnapshotAtApprove : Dict

/-- `payload[key]`, if it is there. -/
def field (d : Dict) (key : String) : Option Json :=
  (d.find? fun kv => kv.1 = key).map Prod.snd

def asDict : Json → Option Dict
  | .obj fields => some fields
  | _ => none

def asOptionalStr : Json → Option (Option String)
  | .null => some none
  | .str s => some (some s)
  | _ => none

def asList {α : Type} (item : Json → Option α) : Json → Option (List α)
  | .arr items => items.mapM item
  | _ => none

def required {α : Type} (read : Json → Option α) (d : Dict) (key : String) : Option α :=
  (field d key).bind read

def withDefault {α : Type} (read : Json → Option α) (default : α) (d : Dict) (key : String) :
    Option α :=
  match field d key with
  | none => some default
  | some value => read value

def kindStr : LedgerKind → String
  | .approvalExec => "approval_exec"
  | .jobRun => "job_run"
  | .ruleAction => "rule_action"

def statusStr : LedgerStatus → String
  | .started => "started"
  | .succeeded => "succeeded"
  | .skipped => "skipped"
  | .failed => "failed"

/-- A `Literal` accepts its own strings. -/
def asLiteral {α : Type} (str : α → String) (values : List α) : Json → Option α
  | .str s => values.find? fun value => str value = s
  | _ => none

def optionalStr : Option String → Json
  | none => .null
  | some s => .str s

def dumpLedgerRecord (r : LedgerRecord) : Dict :=
  [("key", .str r.key), ("kind", .str (kindStr r.kind)), ("status", .str (statusStr r.status)),
    ("ts_iso", .str r.tsIso), ("correlation_id", optionalStr r.correlationId),
    ("meta", .obj r.metadata)]

def validateLedgerRecord : Json → Option LedgerRecord
  | .obj d => do
    let key ← required Json.asStr d "key"
    let kind ← required (asLiteral kindStr [.approvalExec, .jobRun, .ruleAction]) d "kind"
    let status ←
      required (asLiteral statusStr [.started, .succeeded, .skipped, .failed]) d "status"
    let tsIso ← required Json.asStr d "ts_iso"
    let correlationId ← withDefault asOptionalStr none d "correlation_id"
    let metadata ← withDefault asDict [] d "meta"
    some ⟨key, kind, status, tsIso, correlationId, metadata⟩
  | _ => none

theorem validate_dumpLedgerRecord (r : LedgerRecord) :
    validateLedgerRecord (.obj (dumpLedgerRecord r)) = some r := by
  obtain ⟨key, kind, status, tsIso, correlationId, metadata⟩ := r
  cases kind <;> cases status <;> cases correlationId <;> rfl

def dumpEpisode (e : StoredEpisode) : Dict :=
  [("id", .str e.id), ("kind", .str e.kind), ("summary", .str e.summary), ("ts_iso", .str e.tsIso),
    ("meta", .obj e.metadata)]

def validateEpisode : Json → Option StoredEpisode
  | .obj d => do
    let id ← required Json.asStr d "id"
    let kind ← required Json.asStr d "kind"
    let summary ← required Json.asStr d "summary"
    let tsIso ← required Json.asStr d "ts_iso"
    let metadata ← withDefault asDict [] d "meta"
    some { kind, summary, metadata, id, tsIso }
  | _ => none

theorem validate_dumpEpisode (e : StoredEpisode) :
    validateEpisode (.obj (dumpEpisode e)) = some e := rfl

def dumpTask (t : StoredTask) : Dict :=
  [("task_id", .str t.taskId), ("ts_iso", .str t.tsIso), ("source", .str t.source),
    ("user_message", .str t.userMessage), ("plan", .obj t.plan),
    ("step_results", .arr (t.stepResults.map .obj)),
    ("approvals_created", .arr (t.approvalsCreated.map .str)), ("answer", .str t.answer),
    ("trace_events", .arr (t.traceEvents.map .obj)), ("correlation_id", .str t.correlationId)]

def validateTask : Json → Option StoredTask
  | .obj d => do
    let taskId ← required Json.asStr d "task_id"
    let tsIso ← required Json.asStr d "ts_iso"
    let source ← withDefault Json.asStr "chat" d "source"
    let userMessage ← required Json.asStr d "user_message"
    let plan ← withDefault asDict [] d "plan"
    let stepResults ← withDefault (asList asDict) [] d "step_results"
    let approvalsCreated ← withDefault (asList Json.asStr) [] d "approvals_created"
    let answer ← required Json.asStr d "answer"
    let traceEvents ← withDefault (asList asDict) [] d "trace_events"
    let correlationId ← required Json.asStr d "correlation_id"
    some ⟨taskId, tsIso, source, userMessage, plan, stepResults, approvalsCreated, answer,
      traceEvents, correlationId⟩
  | _ => none

theorem asList_map {α : Type} {item : Json → Option α} {json : α → Json}
    (h : ∀ x, item (json x) = some x) (xs : List α) :
    asList item (.arr (xs.map json)) = some xs := by
  have hmap : (xs.map json).mapM item = some xs := by
    induction xs with
    | nil => rfl
    | cons x rest ih =>
      rw [List.map_cons, List.mapM_cons, h, ih]
      rfl
  exact hmap

theorem validate_dumpTask (t : StoredTask) : validateTask (.obj (dumpTask t)) = some t := by
  have hdicts : ∀ ds : List Dict, asList asDict (.arr (ds.map .obj)) = some ds :=
    asList_map fun _ => rfl
  have hstrings : ∀ ss : List String, asList Json.asStr (.arr (ss.map .str)) = some ss :=
    asList_map fun _ => rfl
  simp [validateTask, dumpTask, required, withDefault, field, Json.asStr, asDict, hdicts, hstrings]

end StoredRecords
