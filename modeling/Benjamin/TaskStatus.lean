import Benjamin.AcceptedPlan
import Benjamin.RunSearch

/-!
# The status of a task

The executor says in the error of a step that the step waits for an approval, by the text
`approval_required:` and the id of the approval. `handle` reads the errors by this marker
when it fills `approvals_created`; the status that the dashboard shows compares the whole
error with `approval_required`.
-/
namespace TaskStatus

open PyBase PlanSchemas AssistantState Planner StoredRecords Orchestration RuleMatching RunSearch
  PlanningReturns AcceptedPlan Effect

/-- The names of the events that `handle` and the executor emit. -/
inductive TraceName where
  | taskStarted | memoryRetrieved | plannerStarted | plannerSucceeded | planCriticStarted
  | planCriticFailed | planNormalized | planCriticPassed | policyDenied | safeModeDenied
  | approvalRequired | memoryWriteProposed | memoryWriteCommitted | taskCompleted
  deriving DecidableEq, Repr

def TraceName.str : TraceName → String
  | .taskStarted => "TaskStarted"
  | .memoryRetrieved => "MemoryRetrieved"
  | .plannerStarted => "PlannerStarted"
  | .plannerSucceeded => "PlannerSucceeded"
  | .planCriticStarted => "PlanCriticStarted"
  | .planCriticFailed => "PlanCriticFailed"
  | .planNormalized => "PlanNormalized"
  | .planCriticPassed => "PlanCriticPassed"
  | .policyDenied => "PolicyDenied"
  | .safeModeDenied => "SafeModeDenied"
  | .approvalRequired => "ApprovalRequired"
  | .memoryWriteProposed => "MemoryWriteProposed"
  | .memoryWriteCommitted => "MemoryWriteCommitted"
  | .taskCompleted => "TaskCompleted"

structure TraceEvent where
  name : TraceName
  payload : Dict

/-- `Trace.emit`. -/
def TraceEvent.dump (event : TraceEvent) : Dict :=
  [("event", .str event.name.str), ("payload", .obj event.payload)]

def dumpStep (step : PlanStep) : Dict :=
  [("id", .str step.id), ("description", .str step.description),
    ("skill_name", optionalStr step.skillName), ("args", .str step.args),
    ("requires_approval", .bool step.requiresApproval)]

def dumpResult (result : StepResult) : Dict :=
  [("step_id", .str result.stepId), ("ok", .bool result.ok), ("output", optionalStr result.output),
    ("error", optionalStr result.error)]

def storedTask (record : TaskRecord) (trace : List TraceEvent) : StoredTask :=
  { taskId := record.taskId
    tsIso := record.tsIso
    source := "chat"
    userMessage := record.userMessage
    plan := [("goal", .str record.plan.goal),
      ("steps", .arr (record.plan.steps.map fun step => .obj (dumpStep step)))]
    stepResults := record.stepResults.map dumpResult
    approvalsCreated := record.approvalsCreated
    answer := record.answer
    traceEvents := trace.map TraceEvent.dump
    correlationId := record.correlationId }

def Persisted (o : Orchestrator) (llm : LanguageModel) (message : String) (w : World)
    (record : TaskRecord) : Prop :=
  ∃ result w', handle o llm message w = (.ok result, w') ∧ w'.disk.tasks.getLast? = some record

def Failed (result : StepResult) : Prop := result.ok = false ∧ createdId result = none

instance (result : StepResult) : Decidable (Failed result) :=
  inferInstanceAs (Decidable (_ ∧ _))

/-- `failed` iff a step failed for another reason than a pending approval. -/
def expectedStatus (results : List StepResult) : String :=
  if ∃ result ∈ results, Failed result then "failed" else "ok"

/-- The status is the expected one, and `approvals_created` tells the same steps apart. -/
structure ShownAsIs (rt : Runtime) (record : TaskRecord) (trace : List TraceEvent) : Prop where
  status : taskStatus rt (storedTask record trace) = .ok (expectedStatus record.stepResults)
  created : record.approvalsCreated = record.stepResults.filterMap createdId

def bareError (rt : Runtime) (result : StepResult) : Bool :=
  decide (rt.casefold (result.error.getD "") = "approval_required")

/-- No step failed, or one failed that waits for no approval, and one with another error
than the bare word. -/
def ToldApart (rt : Runtime) (results : List StepResult) : Prop :=
  (∀ result ∈ results, result.ok = true) ∨
    ((∃ result ∈ results, Failed result) ∧
      ∃ result ∈ results, result.ok = false ∧ bareError rt result = false)

/-- Folding the case of a text makes it no shorter. -/
def FoldsWithoutLoss (rt : Runtime) : Prop := ∀ s, s.length ≤ (rt.casefold s).length

section Status

variable {rt : Runtime}

theorem isSkip_dump (event : TraceEvent) : isSkip event.dump = false := by
  obtain ⟨name, payload⟩ := event
  cases name <;> rfl

theorem stepError_dump (result : StepResult) :
    stepError rt (dumpResult result) = .ok (rt.casefold (result.error.getD "")) := by
  have hlookup : (dumpResult result).lookup "error" = optionalStr result.error := rfl
  rw [stepError, hlookup]
  cases result.error with
  | none => rfl
  | some text =>
    by_cases hempty : text = ""
    · subst hempty
      rfl
    · simp [optionalStr, Json.orEmpty, Json.isTruthy, hempty]

theorem onlyApprovalRequired_dump (failures : List StepResult) :
    onlyApprovalRequired rt (failures.map dumpResult) = .ok (failures.all (bareError rt)) := by
  induction failures with
  | nil => rfl
  | cons result rest ih =>
    rw [List.map_cons, onlyApprovalRequired, stepError_dump, List.all_cons]
    dsimp only
    by_cases hbare : rt.casefold (result.error.getD "") = "approval_required"
    · rw [if_pos hbare, ih, bareError, decide_eq_true hbare, Bool.true_and]
    · rw [if_neg hbare, bareError, decide_eq_false hbare, Bool.false_and]

/-- The status of a written record: `failed` iff a failed step has another error than the
bare word. -/
theorem taskStatus_stored {record : TaskRecord} {trace : List TraceEvent}
    (hanswer : occursIn "skipped" (rt.casefold record.answer) = false) :
    taskStatus rt (storedTask record trace) =
      .ok (if ∃ result ∈ record.stepResults, result.ok = false ∧ bareError rt result = false
        then "failed" else "ok") := by
  have htrace : (storedTask record trace).traceEvents.any isSkip = false := by
    rw [storedTask, List.any_eq_false]
    intro event hevent
    obtain ⟨emitted, -, rfl⟩ := List.mem_map.mp hevent
    simp [isSkip_dump]
  have hfailures : (storedTask record trace).stepResults.filter
        (fun step => !(step.lookup "ok").isTruthy) =
      (record.stepResults.filter fun result => !result.ok).map dumpResult := by
    rw [storedTask, List.filter_map]
    rfl
  have hall : (record.stepResults.filter fun result => !result.ok).all (bareError rt) = false ↔
      ∃ result ∈ record.stepResults, result.ok = false ∧ bareError rt result = false := by
    simp [List.all_eq_false]
  have hskipped : ¬ occursIn "skipped" (rt.casefold (storedTask record trace).answer) = true := by
    rw [Bool.not_eq_true]
    exact hanswer
  rw [taskStatus, if_neg hskipped, htrace, if_neg Bool.false_ne_true, hfailures]
  cases hfailed : record.stepResults.filter fun result => !result.ok with
  | nil =>
    have hnone : ¬ ∃ result ∈ record.stepResults, result.ok = false ∧
        bareError rt result = false := by
      rw [← hall, hfailed]
      exact Bool.noConfusion
    rw [if_neg hnone]
    rfl
  | cons result rest =>
    rw [hfailed] at hall
    rw [List.map_cons]
    dsimp only
    rw [← List.map_cons, onlyApprovalRequired_dump]
    cases hbare : (result :: rest).all (bareError rt) with
    | true =>
      rw [hbare] at hall
      rw [if_neg (mt hall.mpr Bool.noConfusion)]
      rfl
    | false =>
      rw [if_pos (hall.mp hbare)]
      rfl

theorem bareError_created (hfolds : FoldsWithoutLoss rt) {result : StepResult}
    (h : createdId result ≠ none) : bareError rt result = false := by
  refine decide_eq_false ?_
  intro hbare
  cases herror : truthy result.error with
  | none => exact h (by rw [createdId, herror])
  | some text =>
    have hmarked : approvalMarker.toList <+: text.toList := by
      by_contra hnot
      refine h ?_
      rw [createdId, herror]
      dsimp only
      rw [startsWith, if_neg (mt List.isPrefixOf_iff_prefix.mp hnot)]
    have htext : result.error.getD "" = text := by
      rw [(Option.filter_eq_some_iff.mp herror).1]
      rfl
    have hlength : approvalMarker.length ≤ text.length := hmarked.length_le
    have hfolded := hfolds text
    rw [← htext, hbare, htext] at hfolded
    exact absurd (hlength.trans hfolded) (by decide)

/-- The status is the expected one iff the results can be told apart by it. -/
theorem status_as_is_iff (hfolds : FoldsWithoutLoss rt) {record : TaskRecord}
    {trace : List TraceEvent}
    (hanswer : occursIn "skipped" (rt.casefold record.answer) = false) :
    taskStatus rt (storedTask record trace) = .ok (expectedStatus record.stepResults) ↔
      ToldApart rt record.stepResults := by
  rw [taskStatus_stored hanswer, expectedStatus, ToldApart]
  have hnames : ("failed" : String) ≠ "ok" := by decide
  by_cases hfailed : ∃ result ∈ record.stepResults, Failed result
  · by_cases hother : ∃ result ∈ record.stepResults, result.ok = false ∧ bareError rt result = false
    · rw [if_pos hfailed, if_pos hother]
      exact iff_of_true rfl (.inr ⟨hfailed, hother⟩)
    · rw [if_pos hfailed, if_neg hother]
      refine iff_of_false (fun h => hnames (Except.ok.inj h).symm) ?_
      rintro (hnone | ⟨-, hword⟩)
      · obtain ⟨result, hresult, hnot, -⟩ := hfailed
        exact Bool.false_ne_true (hnot.symm.trans (hnone result hresult))
      · exact hother hword
  · by_cases hother : ∃ result ∈ record.stepResults, result.ok = false ∧ bareError rt result = false
    · rw [if_neg hfailed, if_pos hother]
      refine iff_of_false (fun h => hnames (Except.ok.inj h)) ?_
      rintro (hnone | ⟨hsome, -⟩)
      · obtain ⟨result, hresult, hnot, -⟩ := hother
        exact Bool.false_ne_true (hnot.symm.trans (hnone result hresult))
      · exact hfailed hsome
    · rw [if_neg hfailed, if_neg hother]
      refine iff_of_true rfl (.inl ?_)
      intro result hresult
      by_contra hnot
      have hok : result.ok = false := by simpa using hnot
      -- A result that is not ok asks for an approval, or it failed.
      by_cases hasks : createdId result = none
      · exact hfailed ⟨result, hresult, hok, hasks⟩
      · exact hother ⟨result, hresult, hok, bareError_created hfolds hasks⟩

end Status

section Requests

variable {o : Orchestrator} {llm : LanguageModel} {message : String} {w : World}

/-- The last task record names the approvals by the errors of its steps. -/
def LastRecorded (w : World) : Prop :=
  ∃ record, w.disk.tasks.getLast? = some record ∧
    record.approvalsCreated = record.stepResults.filterMap createdId

def Records (x : Py α) (w : World) : Prop :=
  Ends x w fun r w' => r.isOk = true → LastRecorded w'

theorem persistTaskRecord_records (p : Prepared) (answer : String) (results : List StepResult)
    (w : World) : Records (persistTaskRecord o p message answer results) w :=
  fun _ => ⟨_, BoundedLog.getLast_retain _ _ _, rfl⟩

theorem Records.after {α β : Type} {x : Py α} {f : α → Py β} (h : ∀ a w, Records (f a) w) :
    Records (x >>= f) w := by
  refine Ends.bind (Q := fun _ _ => True) trivial ?_ ?_
  · intro a t _
    exact h a t
  · intro e t _ hok
    cases hok

theorem Records.before {α β : Type} {x : Py α} {f : α → β} (h : Records x w) :
    Records (do let a ← x; pure (f a)) w := by
  refine Ends.bind h ?_ ?_
  · intro a t hrecorded _
    exact hrecorded rfl
  · intro e t _ hok
    cases hok

theorem handle_records (w : World) : Records (handle o llm message) w := by
  refine .after fun p w => ?_
  by_cases hok : p.result.ok = true
  · rw [if_pos hok]
    refine .after fun results w => .after fun _ w => ?_
    exact (persistTaskRecord_records p _ results w).before
  · rw [if_neg hok]
    exact (persistTaskRecord_records p _ [] w).before

theorem persisted_created {record : TaskRecord} (h : Persisted o llm message w record) :
    record.approvalsCreated = record.stepResults.filterMap createdId := by
  obtain ⟨result, w', hrun, hlast⟩ := h
  have hrecords : Records (handle o llm message) w := handle_records w
  rw [Records, Ends, hrun] at hrecords
  obtain ⟨recorded, hrecorded, hcreated⟩ := hrecords rfl
  cases hrecorded.symm.trans hlast
  exact hcreated

/-- A task record is shown as it is iff no step of it failed, or one failed that waits for no
approval and one with an error that is not the bare word. -/
theorem shown_as_is_iff {record : TaskRecord} (trace : List TraceEvent)
    (hfolds : FoldsWithoutLoss o.critic.lib.toRuntime)
    (hpersisted : Persisted o llm message w record)
    (hanswer : occursIn "skipped" (o.critic.lib.casefold record.answer) = false) :
    ShownAsIs o.critic.lib.toRuntime record trace ↔
      ToldApart o.critic.lib.toRuntime record.stepResults := by
  have hstatus := @status_as_is_iff _ hfolds record trace hanswer
  rw [← hstatus]
  constructor
  · exact ShownAsIs.status
  · exact fun hstatus => ⟨hstatus, persisted_created hpersisted⟩

end Requests

theorem teaRuntime_foldsWithoutLoss : FoldsWithoutLoss teaOrchestrator.critic.lib.toRuntime :=
  fun _ => le_refl _

/-- The task of a search that succeeds is shown as it is. -/
theorem search_shown : ∃ record,
    Persisted teaOrchestrator (searching false) "find it" (freshWorld exampleSurroundings) record ∧
      ∀ trace, ShownAsIs teaOrchestrator.critic.lib.toRuntime record trace := by
  have hrun : ∃ record, Persisted teaOrchestrator (searching false) "find it"
        (freshWorld exampleSurroundings) record ∧
      record.answer = "" ∧ ∀ result ∈ record.stepResults, result.ok = true :=
    ⟨_, ⟨_, _, rfl, rfl⟩, rfl, by decide⟩
  obtain ⟨record, hpersisted, hanswer, hok⟩ := hrun
  refine ⟨record, hpersisted, fun trace => ?_⟩
  refine (shown_as_is_iff trace teaRuntime_foldsWithoutLoss hpersisted ?_).mpr (.inl hok)
  rw [hanswer]
  decide

def reminderLibraries : Libraries where
  toRuntime :=
    { exampleRuntime (fun _ => .returned "") fun _ => none with
      loads := fun _ => some (.obj (teaPayload "UTC"))
      fromisoformat := fun _ => some (.naive 1767344400000000) }
  loadsRaises _ := none
  zoneInfo _ := .zone id

def reminderOrchestrator : Orchestrator := ⟨⟨reminderLibraries, "UTC"⟩, 500, false, "/"⟩

/-- The task of a reminder that waits for its approval is shown as failed. -/
theorem waiting_shown_failed : ∃ record,
    Persisted reminderOrchestrator llmOff "reminders.create tea" (freshWorld exampleSurroundings)
        record ∧
      occursIn "skipped" (reminderOrchestrator.critic.lib.casefold record.answer) = false ∧
      record.approvalsCreated = ["3"] ∧
      taskStatus reminderOrchestrator.critic.lib.toRuntime (storedTask record []) = .ok "failed" ∧
      ¬ ShownAsIs reminderOrchestrator.critic.lib.toRuntime record [] := by
  have hrun : ∃ record, Persisted reminderOrchestrator llmOff "reminders.create tea"
        (freshWorld exampleSurroundings) record ∧
      record.stepResults = [⟨"2", false, none, some "approval_required:3"⟩] ∧
      record.answer = "Approval required to proceed. Approval ID: 3. " ++
        "Use GET /approvals and POST /approvals/{id}/approve to continue." :=
    ⟨_, ⟨_, _, rfl, rfl⟩, rfl, rfl⟩
  obtain ⟨record, hpersisted, hresults, hanswer⟩ := hrun
  have hquiet : occursIn "skipped" (reminderOrchestrator.critic.lib.casefold record.answer) =
      false := by
    rw [hanswer]
    decide
  have hstatus : taskStatus reminderOrchestrator.critic.lib.toRuntime (storedTask record []) =
      .ok "failed" := by
    rw [taskStatus_stored hquiet, hresults]
    decide
  refine ⟨record, hpersisted, hquiet, ?_, hstatus, ?_⟩
  · rw [persisted_created hpersisted, hresults]
    decide
  · intro hshown
    have hexpected := hstatus.symm.trans hshown.status
    rw [hresults] at hexpected
    exact absurd hexpected (by decide)

end TaskStatus
