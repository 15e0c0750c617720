import Benjamin.RuleStore
import Benjamin.StoredRecords

/-!
# The models of the six JSONL files

What `model_validate` accepts for each file and what `model_dump` makes of the record. A
dumped record validates as itself, and it is made of what its payload is made of.
-/
namespace RecordModels

open PyBase PlanSchemas AssistantState ExecutionLedger CompactionRace StoredRecords RuleSchemas
  RuleStore

/-- No object of the document has a key twice, and its floats are floats. -/
inductive Genuine (IsFloat : String → Prop) : Json → Prop
  | null : Genuine IsFloat .null
  | bool (b : Bool) : Genuine IsFloat (.bool b)
  | int (n : Int) : Genuine IsFloat (.int n)
  | float {repr : String} (text : IsFloat repr) : Genuine IsFloat (.float repr)
  | str (s : String) : Genuine IsFloat (.str s)
  | arr {items : List Json} (each : ∀ item ∈ items, Genuine IsFloat item) :
      Genuine IsFloat (.arr items)
  | obj {fields : Dict} (keys : (fields.map Prod.fst).Nodup)
      (values : ∀ kv ∈ fields, Genuine IsFloat kv.2) : Genuine IsFloat (.obj fields)

/-- A pydantic model with the getter of its timestamp. -/
structure RecordModel (ρ : Type) where
  validate : Json → Option ρ
  dump : ρ → Dict
  timestamp : ρ → String
  stable : ∀ {payload record}, validate payload = some record →
    validate (.obj (dump record)) = some record
  genuine : ∀ {IsFloat payload record}, Genuine IsFloat payload →
    validate payload = some record → Genuine IsFloat (.obj (dump record))

/-- How integers and booleans are read from other values, and what the default factories give to
a payload without an identifier or a time. They draw anew at every read of a file; here the draws
are fixed, so that a payload which lacks them counts as the same record at every read. -/
structure Validation where
  asInt : Json → Option Int
  asBool : Json → Option Bool
  newId : Dict → String
  nowIso : Dict → String
  asInt_int : ∀ n, asInt (.int n) = some n
  asBool_bool : ∀ b, asBool (.bool b) = some b

structure StoredFact where
  id : String
  key : String
  value : String
  scope : String
  tags : List String
  createdAtIso : String
  updatedAtIso : String

def dumpFact (f : StoredFact) : Dict :=
  [("id", .str f.id), ("key", .str f.key), ("value", .str f.value), ("scope", .str f.scope),
    ("tags", .arr (f.tags.map .str)), ("created_at_iso", .str f.createdAtIso),
    ("updated_at_iso", .str f.updatedAtIso)]

def validateFact : Json → Option StoredFact
  | .obj d => do
    let id ← required Json.asStr d "id"
    let key ← required Json.asStr d "key"
    let value ← required Json.asStr d "value"
    let scope ← withDefault Json.asStr "global" d "scope"
    let tags ← withDefault (asList Json.asStr) [] d "tags"
    let createdAtIso ← required Json.asStr d "created_at_iso"
    let updatedAtIso ← required Json.asStr d "updated_at_iso"
    some ⟨id, key, value, scope, tags, createdAtIso, updatedAtIso⟩
  | _ => none

section Approvals

variable (v : Validation)

def dumpStep (s : PlanStep) : Dict :=
  [("id", .str s.id), ("description", .str s.description), ("skill_name", optionalStr s.skillName),
    ("args", .str s.args), ("requires_approval", .bool s.requiresApproval)]

def validateStep : Json → Option PlanStep
  | .obj d => do
    let id ← withDefault Json.asStr (v.newId d) d "id"
    let description ← required Json.asStr d "description"
    let skillName ← withDefault asOptionalStr none d "skill_name"
    let args ← withDefault Json.asStr "" d "args"
    let requiresApproval ← withDefault v.asBool false d "requires_approval"
    some ⟨id, description, skillName, args, requiresApproval⟩
  | _ => none

def dumpResult (r : StepResult) : Dict :=
  [("step_id", .str r.stepId), ("ok", .bool r.ok), ("output", optionalStr r.output),
    ("error", optionalStr r.error)]

def validateResult : Json → Option StepResult
  | .obj d => do
    let stepId ← required Json.asStr d "step_id"
    let ok ← required v.asBool d "ok"
    let output ← withDefault asOptionalStr none d "output"
    let error ← withDefault asOptionalStr none d "error"
    some ⟨stepId, ok, output, error⟩
  | _ => none

def asOptional {α : Type} (read : Json → Option α) : Json → Option (Option α)
  | .null => some none
  | value => (read value).map some

def optionalDict : Option Dict → Json
  | none => .null
  | some d => .obj d

def dumpApproval (a : StoredApproval) : Dict :=
  [("id", .str a.id), ("created_at_iso", .str a.createdAtIso),
    ("expires_at_iso", .str a.expiresAtIso), ("status", .str a.status.str),
    ("requester", .obj a.requester), ("step", .obj (dumpStep a.step)), ("context", .obj a.context),
    ("rationale", .str a.rationale), ("result", optionalDict (a.result.map dumpResult)),
    ("error", optionalStr a.error), ("required_scopes", .arr (a.requiredScopes.map .str)),
    ("policy_snapshot", .obj a.policySnapshot),
    ("policy_snapshot_at_approve", .obj a.policySnapshotAtApprove)]

def validateApproval : Json → Option StoredApproval
  | .obj d => do
    let id ← required Json.asStr d "id"
    let createdAtIso ← required Json.asStr d "created_at_iso"
    let expiresAtIso ← required Json.asStr d "expires_at_iso"
    let status ←
      required (asLiteral ApprovalStatus.str [.pending, .approved, .rejected, .expired]) d "status"
    let requester ← withDefault asDict [] d "requester"
    let step ← required (validateStep v) d "step"
    let context ← withDefault asDict [] d "context"
    let rationale ← required Json.asStr d "rationale"
    let result ← withDefault (asOptional (validateResult v)) none d "result"
    let error ← withDefault asOptionalStr none d "error"
    let requiredScopes ← withDefault (asList Json.asStr) [] d "required_scopes"
    let policySnapshot ← withDefault asDict [] d "policy_snapshot"
    let policySnapshotAtApprove ← withDefault asDict [] d "policy_snapshot_at_approve"
    some ⟨id, createdAtIso, expiresAtIso, status, requester, step, context, rationale, result,
      error, requiredScopes, policySnapshot, policySnapshotAtApprove⟩
  | _ => none

end Approvals

def triggerStr : TriggerType → String
  | .schedule => "schedule"
  | .gmail => "gmail"
  | .calendar => "calendar"

def dumpTrigger (t : RuleTrigger) : Dict :=
  [("type", .str (triggerStr t.type)), ("every_minutes", .int t.everyMinutes),
    ("query", optionalStr t.query), ("max_results", .int t.maxResults),
    ("hours_ahead", .int t.hoursAhead)]

def dumpCondition (c : RuleCondition) : Dict :=
  [("contains", optionalStr c.contains), ("not_contains", optionalStr c.notContains)]

def dumpAction : RuleAction → Dict
  | .notify title bodyTemplate =>
    [("type", .str "notify"), ("title", .str title), ("body_template", .str bodyTemplate)]
  | .proposeStep skillName args rationale =>
    [("type", .str "propose_step"), ("skill_name", .str skillName), ("args", .obj args),
      ("rationale", .str rationale)]

def dumpState (s : RuleState) : Dict :=
  [("last_run_iso", optionalStr s.lastRunIso), ("last_match_iso", optionalStr s.lastMatchIso),
    ("cooldown_until_iso", optionalStr s.cooldownUntilIso),
    ("seen_ids", .arr (s.seenIds.map .str)), ("seen_ids_max", .int s.seenIdsMax),
    ("last_cursor_iso", optionalStr s.lastCursorIso)]

def dumpRule (r : Rule) : Dict :=
  [("id", .str r.id), ("name", .str r.name), ("enabled", .bool r.enabled),
    ("created_at_iso", .str r.createdAtIso), ("updated_at_iso", .str r.updatedAtIso),
    ("trigger", .obj (dumpTrigger r.trigger)), ("condition", .obj (dumpCondition r.condition)),
    ("actions", .arr (r.actions.map fun action => .obj (dumpAction action))),
    ("max_actions_per_run", .int r.maxActionsPerRun), ("cooldown_minutes", .int r.cooldownMinutes),
    ("state", .obj (dumpState r.state)), ("last_run_iso", optionalStr r.lastRunIso),
    ("last_match_iso", optionalStr r.lastMatchIso)]

section Rules

variable (v : Validation)

def validateTrigger : Json → Option RuleTrigger
  | .obj d => do
    let type ← required (asLiteral triggerStr [.schedule, .gmail, .calendar]) d "type"
    let everyMinutes ← withDefault v.asInt 5 d "every_minutes"
    let query ← withDefault asOptionalStr none d "query"
    let maxResults ← withDefault v.asInt 5 d "max_results"
    let hoursAhead ← withDefault v.asInt 24 d "hours_ahead"
    some ⟨type, everyMinutes, query, maxResults, hoursAhead⟩
  | _ => none

def validateCondition : Json → Option RuleCondition
  | .obj d => do
    let contains ← withDefault asOptionalStr none d "contains"
    let notContains ← withDefault asOptionalStr none d "not_contains"
    some ⟨contains, notContains⟩
  | _ => none

/-- `type: Literal[word]`. -/
def asWord (word : String) : Json → Option Unit
  | .str s => if s = word then some () else none
  | _ => none

def validateNotify : Json → Option RuleAction
  | .obj d => do
    let _ ← required (asWord "notify") d "type"
    let title ← required Json.asStr d "title"
    let bodyTemplate ← required Json.asStr d "body_template"
    some (.notify title bodyTemplate)
  | _ => none

def validateProposeStep : Json → Option RuleAction
  | .obj d => do
    let _ ← required (asWord "propose_step") d "type"
    let skillName ← required Json.asStr d "skill_name"
    let args ← withDefault asDict [] d "args"
    let rationale ← required Json.asStr d "rationale"
    some (.proposeStep skillName args rationale)
  | _ => none

/-- The first model of the union that accepts; their types tell the two apart. -/
def validateAction (payload : Json) : Option RuleAction :=
  (validateNotify payload).or (validateProposeStep payload)

def validateState : Json → Option RuleState
  | .obj d => do
    let lastRunIso ← withDefault asOptionalStr none d "last_run_iso"
    let lastMatchIso ← withDefault asOptionalStr none d "last_match_iso"
    let cooldownUntilIso ← withDefault asOptionalStr none d "cooldown_until_iso"
    let seenIds ← withDefault (asList Json.asStr) [] d "seen_ids"
    let seenIdsMax ← withDefault v.asInt 200 d "seen_ids_max"
    let lastCursorIso ← withDefault asOptionalStr none d "last_cursor_iso"
    some ⟨lastRunIso, lastMatchIso, cooldownUntilIso, seenIds, seenIdsMax, lastCursorIso⟩
  | _ => none

def validateRuleFields : Json → Option Rule
  | .obj d => do
    let id ← withDefault Json.asStr (v.newId d) d "id"
    let name ← required Json.asStr d "name"
    let enabled ← withDefault v.asBool true d "enabled"
    let createdAtIso ← withDefault Json.asStr (v.nowIso d) d "created_at_iso"
    let updatedAtIso ← withDefault Json.asStr (v.nowIso d) d "updated_at_iso"
    let trigger ← required (validateTrigger v) d "trigger"
    let condition ← withDefault validateCondition ⟨none, none⟩ d "condition"
    let actions ← withDefault (asList validateAction) [] d "actions"
    let maxActionsPerRun ← withDefault v.asInt 3 d "max_actions_per_run"
    let cooldownMinutes ← withDefault v.asInt 0 d "cooldown_minutes"
    let state ← withDefault (validateState v) RuleState.initial d "state"
    let lastRunIso ← withDefault asOptionalStr none d "last_run_iso"
    let lastMatchIso ← withDefault asOptionalStr none d "last_match_iso"
    some ⟨id, name, enabled, createdAtIso, updatedAtIso, trigger, condition, actions,
      maxActionsPerRun, cooldownMinutes, state, lastRunIso, lastMatchIso⟩
  | _ => none

def validateRule (payload : Json) : Option Rule :=
  (validateRuleFields v payload).map migrateLegacyState

end Rules

theorem validate_dumpFact (f : StoredFact) : validateFact (.obj (dumpFact f)) = some f := by
  have hstrings : ∀ ss : List String, asList Json.asStr (.arr (ss.map .str)) = some ss :=
    asList_map fun _ => rfl
  simp [validateFact, dumpFact, required, withDefault, field, Json.asStr, hstrings]

theorem asOptionalStr_optionalStr (s : Option String) : asOptionalStr (optionalStr s) = some s := by
  cases s <;> rfl

section RoundTrips

variable (v : Validation)

theorem validate_dumpStep (s : PlanStep) : validateStep v (.obj (dumpStep s)) = some s := by
  simp [validateStep, dumpStep, required, withDefault, field, Json.asStr, asOptionalStr_optionalStr,
    v.asBool_bool]

theorem validate_dumpResult (r : StepResult) : validateResult v (.obj (dumpResult r)) = some r := by
  simp [validateResult, dumpResult, required, withDefault, field, Json.asStr,
    asOptionalStr_optionalStr, v.asBool_bool]

theorem asOptional_dumpResult (r : Option StepResult) :
    asOptional (validateResult v) (optionalDict (r.map dumpResult)) = some r := by
  cases r with
  | none => rfl
  | some r =>
    change (validateResult v (.obj (dumpResult r))).map some = some (some r)
    rw [validate_dumpResult]
    rfl

theorem asLiteral_status (status : ApprovalStatus) :
    asLiteral ApprovalStatus.str [.pending, .approved, .rejected, .expired] (.str status.str) =
      some status := by
  cases status <;> rfl

theorem validate_dumpApproval (a : StoredApproval) :
    validateApproval v (.obj (dumpApproval a)) = some a := by
  have hstrings : ∀ ss : List String, asList Json.asStr (.arr (ss.map .str)) = some ss :=
    asList_map fun _ => rfl
  simp [validateApproval, dumpApproval, required, withDefault, field, Json.asStr, asDict, hstrings,
    validate_dumpStep, asOptional_dumpResult, asLiteral_status, asOptionalStr_optionalStr]

theorem asLiteral_trigger (type : TriggerType) :
    asLiteral triggerStr [.schedule, .gmail, .calendar] (.str (triggerStr type)) = some type := by
  cases type <;> rfl

theorem validate_dumpTrigger (t : RuleTrigger) :
    validateTrigger v (.obj (dumpTrigger t)) = some t := by
  simp [validateTrigger, dumpTrigger, required, withDefault, field, asLiteral_trigger,
    asOptionalStr_optionalStr, v.asInt_int]

theorem validate_dumpCondition (c : RuleCondition) :
    validateCondition (.obj (dumpCondition c)) = some c := by
  simp [validateCondition, dumpCondition, withDefault, field, asOptionalStr_optionalStr]

theorem validate_dumpAction (action : RuleAction) :
    validateAction (.obj (dumpAction action)) = some action := by
  cases action with
  | notify title bodyTemplate => rfl
  | proposeStep skillName args rationale => rfl

theorem validate_dumpState (s : RuleState) : validateState v (.obj (dumpState s)) = some s := by
  have hstrings : ∀ ss : List String, asList Json.asStr (.arr (ss.map .str)) = some ss :=
    asList_map fun _ => rfl
  simp [validateState, dumpState, withDefault, field, hstrings, asOptionalStr_optionalStr,
    v.asInt_int]

theorem validateRuleFields_dumpRule (r : Rule) :
    validateRuleFields v (.obj (dumpRule r)) = some r := by
  have hactions : ∀ actions : List RuleAction,
      asList validateAction (.arr (actions.map fun action => .obj (dumpAction action))) =
        some actions := asList_map validate_dumpAction
  simp [validateRuleFields, dumpRule, required, withDefault, field, Json.asStr, hactions,
    validate_dumpTrigger, validate_dumpCondition, validate_dumpState, asOptionalStr_optionalStr,
    v.asInt_int, v.asBool_bool]

theorem carriedOver_twice (deprecated current : Option String) :
    carriedOver deprecated (carriedOver deprecated current) = carriedOver deprecated current := by
  unfold carriedOver
  split
  · split <;> rfl
  · rfl

theorem migrateLegacyState_twice (r : Rule) :
    migrateLegacyState (migrateLegacyState r) = migrateLegacyState r := by
  simp [migrateLegacyState, carriedOver_twice]

theorem validate_dumpRule {payload : Json} {r : Rule} (h : validateRule v payload = some r) :
    validateRule v (.obj (dumpRule r)) = some r := by
  obtain ⟨fields, -, rfl⟩ := Option.map_eq_some_iff.mp h
  rw [validateRule, validateRuleFields_dumpRule, Option.map_some, migrateLegacyState_twice]

end RoundTrips

variable {IsFloat : String → Prop}

theorem genuine_obj_iff {d : Dict} : Genuine IsFloat (.obj d) ↔
    (d.map Prod.fst).Nodup ∧ ∀ kv ∈ d, Genuine IsFloat kv.2 := by
  constructor
  · rintro ⟨⟩
    exact ⟨‹_›, ‹_›⟩
  · exact fun h => .obj h.1 h.2

theorem genuine_optionalStr (s : Option String) : Genuine IsFloat (optionalStr s) := by
  cases s with
  | none => exact .null
  | some s => exact .str s

theorem genuine_map {α : Type} {json : α → Json} {xs : List α}
    (h : ∀ x ∈ xs, Genuine IsFloat (json x)) : Genuine IsFloat (.arr (xs.map json)) := by
  refine .arr fun item hitem => ?_
  obtain ⟨x, hx, rfl⟩ := List.mem_map.mp hitem
  exact h x hx

theorem genuine_strings (ss : List String) : Genuine IsFloat (.arr (ss.map .str)) :=
  genuine_map fun s _ => .str s

section Fields

variable {d : Dict} {key : String}

theorem genuine_field (h : Genuine IsFloat (.obj d)) {value : Json}
    (hvalue : field d key = some value) : Genuine IsFloat value := by
  obtain ⟨kv, hfind, rfl⟩ := Option.map_eq_some_iff.mp hvalue
  exact (genuine_obj_iff.mp h).2 kv (List.mem_of_find?_eq_some hfind)

theorem genuine_empty : Genuine IsFloat (.obj []) := .obj List.nodup_nil nofun

theorem asDict_eq {value : Json} {fields : Dict} (h : asDict value = some fields) :
    value = .obj fields := by
  cases value with
  | obj other =>
    cases h
    rfl
  | _ => cases h

theorem genuine_dict (h : Genuine IsFloat (.obj d)) {fields : Dict}
    (hread : withDefault asDict [] d key = some fields) : Genuine IsFloat (.obj fields) := by
  rw [withDefault] at hread
  cases hvalue : field d key with
  | none =>
    rw [hvalue] at hread
    cases hread
    exact genuine_empty
  | some value =>
    rw [hvalue] at hread
    exact asDict_eq hread ▸ genuine_field h hvalue

theorem asList_each {α : Type} {item : Json → Option α} {values : List Json} {xs : List α}
    (h : values.mapM item = some xs) : ∀ x ∈ xs, ∃ value ∈ values, item value = some x := by
  induction values generalizing xs with
  | nil =>
    cases h
    nofun
  | cons value rest ih =>
    rw [List.mapM_cons] at h
    obtain ⟨y, hy, h⟩ := Option.bind_eq_some_iff.mp h
    obtain ⟨ys, hys, h⟩ := Option.bind_eq_some_iff.mp h
    cases h
    intro x hx
    rcases List.mem_cons.mp hx with rfl | hx
    · exact ⟨value, List.mem_cons_self, hy⟩
    · obtain ⟨other, hother, hread⟩ := ih hys x hx
      exact ⟨other, List.mem_cons_of_mem _ hother, hread⟩

/-- What is read of the items of a list. -/
theorem list_of_field (h : Genuine IsFloat (.obj d)) {α : Type} {item : Json → Option α}
    {xs : List α}
    (hread : withDefault (asList item) [] d key = some xs) :
    ∀ x ∈ xs, ∃ value, Genuine IsFloat value ∧ item value = some x := by
  unfold withDefault at hread
  cases hvalue : field d key with
  | none =>
    rw [hvalue] at hread
    cases hread
    nofun
  | some value =>
    rw [hvalue] at hread
    have hgenuine := genuine_field h hvalue
    cases value with
    | arr values =>
      intro x hx
      obtain ⟨other, hother, hitem⟩ := asList_each hread x hx
      cases hgenuine with
      | arr each => exact ⟨other, each other hother, hitem⟩
    | _ => cases hread

end Fields

section Dumps

variable {payload : Json}

theorem genuine_dumpFact (f : StoredFact) : Genuine IsFloat (.obj (dumpFact f)) := by
  refine .obj (by simp [dumpFact]) ?_
  simp [dumpFact, Genuine.str, genuine_strings]

theorem genuine_dumpEpisode {e : StoredEpisode} (h : Genuine IsFloat payload)
    (hread : validateEpisode payload = some e) : Genuine IsFloat (.obj (dumpEpisode e)) := by
  cases payload with
  | obj d =>
    simp only [validateEpisode, Option.bind_eq_bind, Option.bind_eq_some_iff] at hread
    obtain ⟨id, -, kind, -, summary, -, tsIso, -, metadata, hmetadata, ⟨⟩⟩ := hread
    refine .obj (by simp [dumpEpisode]) ?_
    simp [dumpEpisode, Genuine.str, genuine_dict h hmetadata]
  | _ => cases hread

theorem genuine_dumpLedgerRecord {r : LedgerRecord} (h : Genuine IsFloat payload)
    (hread : validateLedgerRecord payload = some r) :
    Genuine IsFloat (.obj (dumpLedgerRecord r)) := by
  cases payload with
  | obj d =>
    simp only [validateLedgerRecord, Option.bind_eq_bind, Option.bind_eq_some_iff] at hread
    obtain ⟨key, -, kind, -, status, -, tsIso, -, correlationId, -, metadata, hmetadata, ⟨⟩⟩ :=
      hread
    refine .obj (by simp [dumpLedgerRecord]) ?_
    simp [dumpLedgerRecord, Genuine.str, genuine_optionalStr, genuine_dict h hmetadata]
  | _ => cases hread

theorem genuine_dicts {d : Dict} {key : String} (h : Genuine IsFloat (.obj d)) {ds : List Dict}
    (hread : withDefault (asList asDict) [] d key = some ds) :
    Genuine IsFloat (.arr (ds.map .obj)) := by
  refine genuine_map fun fields hfields => ?_
  obtain ⟨value, hvalue, hitem⟩ := list_of_field h hread fields hfields
  exact asDict_eq hitem ▸ hvalue

theorem genuine_dumpTask {t : StoredTask} (h : Genuine IsFloat payload)
    (hread : validateTask payload = some t) : Genuine IsFloat (.obj (dumpTask t)) := by
  cases payload with
  | obj d =>
    obtain ⟨taskId, -, hread⟩ := Option.bind_eq_some_iff.mp hread
    obtain ⟨tsIso, -, hread⟩ := Option.bind_eq_some_iff.mp hread
    obtain ⟨source, -, hread⟩ := Option.bind_eq_some_iff.mp hread
    obtain ⟨userMessage, -, hread⟩ := Option.bind_eq_some_iff.mp hread
    obtain ⟨plan, hplan, hread⟩ := Option.bind_eq_some_iff.mp hread
    obtain ⟨stepResults, hsteps, hread⟩ := Option.bind_eq_some_iff.mp hread
    obtain ⟨approvalsCreated, -, hread⟩ := Option.bind_eq_some_iff.mp hread
    obtain ⟨answer, -, hread⟩ := Option.bind_eq_some_iff.mp hread
    obtain ⟨traceEvents, htrace, hread⟩ := Option.bind_eq_some_iff.mp hread
    obtain ⟨correlationId, -, hread⟩ := Option.bind_eq_some_iff.mp hread
    cases hread
    refine .obj (by simp [dumpTask]) ?_
    simp [dumpTask, Genuine.str, genuine_strings, genuine_dict h hplan,
      genuine_dicts h hsteps, genuine_dicts h htrace]
  | _ => cases hread

theorem genuine_dumpStep (s : PlanStep) : Genuine IsFloat (.obj (dumpStep s)) := by
  refine .obj (by simp [dumpStep]) ?_
  simp [dumpStep, Genuine.str, Genuine.bool, genuine_optionalStr]

theorem genuine_optionalResult (r : Option StepResult) :
    Genuine IsFloat (optionalDict (r.map dumpResult)) := by
  cases r with
  | none => exact .null
  | some r =>
    refine .obj (by simp [dumpResult]) ?_
    simp [dumpResult, Genuine.str, Genuine.bool, genuine_optionalStr]

variable (v : Validation)

theorem genuine_dumpApproval {a : StoredApproval} (h : Genuine IsFloat payload)
    (hread : validateApproval v payload = some a) : Genuine IsFloat (.obj (dumpApproval a)) := by
  cases payload with
  | obj d =>
    obtain ⟨id, -, hread⟩ := Option.bind_eq_some_iff.mp hread
    obtain ⟨createdAtIso, -, hread⟩ := Option.bind_eq_some_iff.mp hread
    obtain ⟨expiresAtIso, -, hread⟩ := Option.bind_eq_some_iff.mp hread
    obtain ⟨status, -, hread⟩ := Option.bind_eq_some_iff.mp hread
    obtain ⟨requester, hrequester, hread⟩ := Option.bind_eq_some_iff.mp hread
    obtain ⟨step, -, hread⟩ := Option.bind_eq_some_iff.mp hread
    obtain ⟨context, hcontext, hread⟩ := Option.bind_eq_some_iff.mp hread
    obtain ⟨rationale, -, hread⟩ := Option.bind_eq_some_iff.mp hread
    obtain ⟨result, -, hread⟩ := Option.bind_eq_some_iff.mp hread
    obtain ⟨error, -, hread⟩ := Option.bind_eq_some_iff.mp hread
    obtain ⟨requiredScopes, -, hread⟩ := Option.bind_eq_some_iff.mp hread
    obtain ⟨policySnapshot, hsnapshot, hread⟩ := Option.bind_eq_some_iff.mp hread
    obtain ⟨policySnapshotAtApprove, hatApprove, hread⟩ := Option.bind_eq_some_iff.mp hread
    cases hread
    refine .obj (by simp [dumpApproval]) ?_
    simp only [dumpApproval, List.forall_mem_cons]
    exact ⟨.str _, .str _, .str _, .str _, genuine_dict h hrequester, genuine_dumpStep _,
      genuine_dict h hcontext, .str _, genuine_optionalResult _, genuine_optionalStr _,
      genuine_strings _, genuine_dict h hsnapshot, genuine_dict h hatApprove, nofun⟩
  | _ => cases hread

theorem genuine_dumpTrigger (t : RuleTrigger) : Genuine IsFloat (.obj (dumpTrigger t)) := by
  refine .obj (by simp [dumpTrigger]) ?_
  simp [dumpTrigger, Genuine.str, Genuine.int, genuine_optionalStr]

theorem genuine_dumpCondition (c : RuleCondition) : Genuine IsFloat (.obj (dumpCondition c)) := by
  refine .obj (by simp [dumpCondition]) ?_
  simp [dumpCondition, genuine_optionalStr]

theorem genuine_dumpState (s : RuleState) : Genuine IsFloat (.obj (dumpState s)) := by
  refine .obj (by simp [dumpState]) ?_
  simp [dumpState, Genuine.int, genuine_strings, genuine_optionalStr]

theorem genuine_notify (title bodyTemplate : String) :
    Genuine IsFloat (.obj (dumpAction (.notify title bodyTemplate))) := by
  refine .obj (by simp [dumpAction]) ?_
  simp [dumpAction, Genuine.str]

theorem genuine_dumpAction {action : RuleAction} (h : Genuine IsFloat payload)
    (hread : validateAction payload = some action) :
    Genuine IsFloat (.obj (dumpAction action)) := by
  cases payload with
  | obj d =>
    rcases Option.or_eq_some_iff.mp hread with hnotify | ⟨-, hpropose⟩
    · simp only [validateNotify, Option.bind_eq_bind, Option.bind_eq_some_iff] at hnotify
      obtain ⟨_, -, title, -, bodyTemplate, -, ⟨⟩⟩ := hnotify
      exact genuine_notify title bodyTemplate
    · simp only [validateProposeStep, Option.bind_eq_bind, Option.bind_eq_some_iff] at hpropose
      obtain ⟨_, -, skillName, -, args, hargs, rationale, -, ⟨⟩⟩ := hpropose
      refine .obj (by simp [dumpAction]) ?_
      simp [dumpAction, Genuine.str, genuine_dict h hargs]
  | _ => cases hread

theorem genuine_dumpRule {r : Rule} (h : Genuine IsFloat payload)
    (hread : validateRule v payload = some r) : Genuine IsFloat (.obj (dumpRule r)) := by
  obtain ⟨fields, hfields, rfl⟩ := Option.map_eq_some_iff.mp hread
  cases payload with
  | obj d =>
    obtain ⟨id, -, hfields⟩ := Option.bind_eq_some_iff.mp hfields
    obtain ⟨name, -, hfields⟩ := Option.bind_eq_some_iff.mp hfields
    obtain ⟨enabled, -, hfields⟩ := Option.bind_eq_some_iff.mp hfields
    obtain ⟨createdAtIso, -, hfields⟩ := Option.bind_eq_some_iff.mp hfields
    obtain ⟨updatedAtIso, -, hfields⟩ := Option.bind_eq_some_iff.mp hfields
    obtain ⟨trigger, -, hfields⟩ := Option.bind_eq_some_iff.mp hfields
    obtain ⟨condition, -, hfields⟩ := Option.bind_eq_some_iff.mp hfields
    obtain ⟨actions, hactions, hfields⟩ := Option.bind_eq_some_iff.mp hfields
    obtain ⟨maxActionsPerRun, -, hfields⟩ := Option.bind_eq_some_iff.mp hfields
    obtain ⟨cooldownMinutes, -, hfields⟩ := Option.bind_eq_some_iff.mp hfields
    obtain ⟨state, -, hfields⟩ := Option.bind_eq_some_iff.mp hfields
    obtain ⟨lastRunIso, -, hfields⟩ := Option.bind_eq_some_iff.mp hfields
    obtain ⟨lastMatchIso, -, hfields⟩ := Option.bind_eq_some_iff.mp hfields
    cases hfields
    have heach : Genuine IsFloat (.arr (actions.map fun action => .obj (dumpAction action))) := by
      refine genuine_map fun action haction => ?_
      obtain ⟨value, hvalue, hitem⟩ := list_of_field h hactions action haction
      exact genuine_dumpAction hvalue hitem
    refine .obj (by simp [dumpRule]) ?_
    simp only [dumpRule, List.forall_mem_cons]
    exact ⟨.str _, .str _, .bool _, .str _, .str _, genuine_dumpTrigger _,
      genuine_dumpCondition _, heach, .int _, .int _, genuine_dumpState _,
      genuine_optionalStr _, genuine_optionalStr _, nofun⟩
  | _ => cases hfields

end Dumps

def semanticFact : RecordModel StoredFact where
  validate := validateFact
  dump := dumpFact
  timestamp := StoredFact.updatedAtIso
  stable _ := validate_dumpFact _
  genuine _ _ := genuine_dumpFact _

def episode : RecordModel StoredEpisode where
  validate := validateEpisode
  dump := dumpEpisode
  timestamp := StoredEpisode.tsIso
  stable _ := validate_dumpEpisode _
  genuine := genuine_dumpEpisode

def pendingApproval (v : Validation) : RecordModel StoredApproval where
  validate := validateApproval v
  dump := dumpApproval
  timestamp := StoredApproval.createdAtIso
  stable _ := validate_dumpApproval v _
  genuine := genuine_dumpApproval v

def rule (v : Validation) : RecordModel Rule where
  validate := validateRule v
  dump := dumpRule
  timestamp := Rule.updatedAtIso
  stable := validate_dumpRule v
  genuine := genuine_dumpRule v

def taskRecord : RecordModel StoredTask where
  validate := validateTask
  dump := dumpTask
  timestamp := StoredTask.tsIso
  stable _ := validate_dumpTask _
  genuine := genuine_dumpTask

def ledgerRecord : RecordModel LedgerRecord where
  validate := validateLedgerRecord
  dump := dumpLedgerRecord
  timestamp := LedgerRecord.tsIso
  stable _ := validate_dumpLedgerRecord _
  genuine := genuine_dumpLedgerRecord

end RecordModels
