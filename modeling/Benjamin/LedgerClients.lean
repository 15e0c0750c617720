import Benjamin.ApprovalService
import Benjamin.RulesEvaluator

/-!
# The clients of the ledger

Each client starts a key, acts and marks the key. A client leaves its key started when
something raises between the start and the part that catches; where that cannot happen
the key ends marked, and as succeeded only after the action.
-/
namespace LedgerClients

open PyBase ExecutionLedger PlanSchemas SkillRegistry LedgerKeys AssistantState ApprovalStore
  PlanExecutor ApprovalService RuleSchemas RuleMatching RuleStore RuleEngine SchedulerJobs
  RulesEvaluator Effect

inductive Client where
  | approve (id : String) (approverNote : Option String) (registry : Registry)
  | proposeStep (engine : Engine) (turn : Turn) (index : Nat) (skillName : String) (args : Dict)
      (rationale : String)
  | reminder (call : JobCall) (message : String)
  | dailyBriefing (call : JobCall) (sources : BriefingSources)
  | rulesEvaluation (call : JobCall) (feeds : Rule → Feed)

/-- The `propose_step` branch of an evaluation. -/
def proposeBranch (rt : Runtime) (engine : Engine) (turn : Turn) (index : Nat)
    (action : RuleAction) : Job Unit := fun s =>
  let out := runAction rt engine turn index action ⟨s.world, turn.rule, []⟩
  (out.1.map fun _ => (), { s with world := out.2.world })

def Client.run (rt : Runtime) (made : Constructors) : Client → Job Unit
  | .approve id approverNote registry => do
    let _ ← onWorld (ApprovalService.approve rt id approverNote registry)
    pure ()
  | .proposeStep engine turn index skillName args rationale =>
    proposeBranch rt engine turn index (.proposeStep skillName args rationale)
  | .reminder call message => runReminder rt made call message
  | .dailyBriefing call sources => runDailyBriefing rt made call sources
  | .rulesEvaluation call feeds => do
    let _ ← runRulesEvaluation rt made call feeds
    pure ()

def JobCall.key (rt : Runtime) (call : JobCall) (default : String) (extra : Dict) (s : JobState) :
    String :=
  jobRunKey rt s.world.now (call.effectiveId default) call.scheduledRunIso extra

/-- The client gets to its start of this key. -/
def Client.Reaches (rt : Runtime) (made : Constructors) (s : JobState) (key : String) :
    Client → Prop
  | .approve id _ _ => ∃ record, Passed rt s.world id record ∧ executionKey rt record = key
  | .proposeStep _ turn index skillName args rationale =>
    s.world.safeMode = false ∧ actionKey rt turn index skillName args rationale = key
  | .reminder call message =>
    made.ledger = none ∧ JobCall.key rt call "reminder" [("message", .str message)] s = key
  | .dailyBriefing call sources =>
    made.memoryManager = none ∧ made.ledger = none ∧ (∃ body, briefingBody sources s = .ok body) ∧
      JobCall.key rt call "daily-briefing" [] s = key
  | .rulesEvaluation call _ =>
    made.memoryManager = none ∧ made.ledger = none ∧ call.jobId ≠ none ∧
      JobCall.key rt call "rules-evaluator" [] s = key

def Client.Starts (rt : Runtime) (made : Constructors) (s : JobState) (key : String)
    (client : Client) : Prop :=
  client.Reaches rt made s key ∧ refused s.world.disk.ledger key = false

def Executed (step : PlanStep) (w w' : World) : Prop :=
  truthy step.skillName = none ∨ ∃ skill requester content,
    w'.disk.events = w.disk.events ++ [.skillRun skill step requester (.returned content)]

def Proposed (key : String) (w w' : World) : Prop :=
  ∃ record, get w'.disk.approvals record.id = some record ∧
    w'.disk.events = w.disk.events ++ [.approvalCreated (.ruleAction key) record]

/-- The guarded action has been completed in a run from one state to the other. -/
def Client.Completed (rt : Runtime) (made : Constructors) (s s' : JobState) : Client → Prop
  | .approve id _ _ => ∃ record, get s.world.disk.approvals id = some record ∧
      Executed record.step s.world s'.world
  | .proposeStep _ turn index skillName args rationale =>
    Proposed (actionKey rt turn index skillName args rationale) s.world s'.world
  | .reminder _ message => ∃ metadata, s'.sent = s.sent ++ [⟨"Reminder", message, metadata, none⟩]
  | .dailyBriefing _ sources => ∃ body degraded metadata,
      briefingBody sources s = .ok (body, degraded) ∧
        s'.sent = s.sent ++ [⟨"Daily Briefing", body, metadata, none⟩]
  | .rulesEvaluation call feeds => ∃ results,
      runRulesEvaluation rt made call feeds s = (.ok results, s') ∧
        results.map RuleRunResult.ruleId = ((listAll s.rules).filter Rule.enabled).map Rule.id

def Client.Settles (rt : Runtime) (made : Constructors) (s : JobState) (key : String)
    (client : Client) : Prop :=
  ∃ r, latestRecord (client.run rt made s).2.world.disk.ledger key = some r ∧
    (r.status = .failed ∨
      r.status = .succeeded ∧ client.Completed rt made s (client.run rt made s).2)

def Unregistered (registry : Registry) (step : PlanStep) : Prop :=
  ∃ name e, truthy step.skillName = some name ∧ registry.get name = .error e

def NoRouter (made : Constructors) (call : JobCall) : Prop :=
  call.routerGiven = false ∧ made.notificationRouter ≠ none

/-- One of the constructors between the start of a rules run and its `try` raises. -/
def Unbuilt (made : Constructors) (call : JobCall) : Prop :=
  (∃ e, some e ∈ made.orchestrator ++
    [made.approvalStore, made.permissionsPolicy, made.ruleStore]) ∨
    NoRouter made call

/-- Something raises after the start of the key where nothing catches it. -/
def Client.Strands (made : Constructors) (s : JobState) : Client → Prop
  | .approve id _ registry => ∃ record, get s.world.disk.approvals id = some record ∧
      Unregistered registry record.step
  | .proposeStep .. => False
  | .reminder call _ => made.memoryManager ≠ none ∨ NoRouter made call
  | .dailyBriefing call _ => NoRouter made call
  | .rulesEvaluation call _ => Unbuilt made call

/-- The key is left started where the run strands it; otherwise it is marked, and as
succeeded only after the action. -/
def Leaves (f : LedgerFile) (key : String) (strands completed : Prop) : Prop :=
  ∃ r, latestRecord f key = some r ∧
    (strands ∧ r.status = .started ∨
      ¬ strands ∧ (r.status = .failed ∨ r.status = .succeeded ∧ completed))

theorem Leaves.settles_iff {f : LedgerFile} {key : String} {strands completed : Prop}
    (h : Leaves f key strands completed) :
    (∃ r, latestRecord f key = some r ∧ (r.status = .failed ∨ r.status = .succeeded ∧ completed)) ↔
      ¬ strands := by
  obtain ⟨r, hr, ⟨hstrands, hstarted⟩ | ⟨hmarked, hstatus⟩⟩ := h
  · refine iff_of_false ?_ (not_not.mpr hstrands)
    rintro ⟨r', hr', hstatus⟩
    cases hr.symm.trans hr'
    rcases hstatus with hstatus | ⟨hstatus, -⟩ <;> cases hstarted.symm.trans hstatus
  · exact iff_of_true ⟨r, hr, hstatus⟩ hmarked

theorem Leaves.imp {f : LedgerFile} {key : String} {strands completed completed' : Prop}
    (h : Leaves f key strands completed) (hc : completed → completed') :
    Leaves f key strands completed' := by
  obtain ⟨r, hr, hstatus⟩ := h
  exact ⟨r, hr, hstatus.imp_right (And.imp_right (Or.imp_right (And.imp_right hc)))⟩

section Marking

variable {f : LedgerFile} {key : String} {strands completed : Prop} {d d' : Stores}
  {s : Surroundings}

theorem leaves_started {kind : LedgerKind} {correlationId : Option String} {metadata : Dict}
    (hadmitted : refused d.ledger key = false) (hstrands : strands)
    (h : d'.ledger = (startKey s key kind correlationId metadata d).ledger) :
    Leaves d'.ledger key strands completed := by
  rw [h]
  exact ⟨_, latestRecord_tryStart_self hadmitted, Or.inl ⟨hstrands, rfl⟩⟩

theorem leaves_failed {metaUpdate : Dict} (hstrands : ¬ strands)
    (h : d'.ledger = (markKey s key .failed metaUpdate d).ledger) :
    Leaves d'.ledger key strands completed := by
  rw [h]
  exact ⟨_, latestRecord_mark_self .., Or.inr ⟨hstrands, Or.inl (markedRecord_status ..)⟩⟩

theorem leaves_succeeded {metaUpdate : Dict} (hstrands : ¬ strands) (hcompleted : completed)
    (h : d'.ledger = (markKey s key .succeeded metaUpdate d).ledger) :
    Leaves d'.ledger key strands completed := by
  rw [h]
  exact ⟨_, latestRecord_mark_self ..,
      Or.inr ⟨hstrands, Or.inr ⟨markedRecord_status .., hcompleted⟩⟩⟩

end Marking

theorem executeStep_forced (rt : Runtime) (context : ContextPack) (registry : Registry)
    (requester : Requester) (step : PlanStep) (w : World) :
    Ends (executeStep rt context registry requester true step) w fun r _ => match r with
      | .ok _ => ¬ Unregistered registry step
      | .error _ => Unregistered registry step := by
  have hregistered : ∀ name skill, truthy step.skillName = some name →
      registry.get name = .ok skill → ¬ Unregistered registry step := by
    rintro name skill hname hget ⟨name', e, hname', hget'⟩
    cases hname.symm.trans hname'
    cases hget.symm.trans hget'
  refine executeStep_rule ?_ ?_ ?_ ?_
  · rintro hname ⟨name, e, hname', -⟩
    cases hname.symm.trans hname'
  · intro name e hname hget
    exact ⟨name, e, hname, hget⟩
  · intro name skill w₁ hname hget _ _
    exact hregistered name skill hname hget
  · intro name skill w₁ hname hget _ _
    split_ifs with hsafe hasks
    · exact hregistered name skill hname hget
    · -- a forced step asks for nothing
      simp at hasks
    · refine (runSkill_returns rt skill step requester w₁).ends fun _ w₂ _ => ?_
      exact hregistered name skill hname hget

section Approving

variable (rt : Runtime) (approverNote : Option String) (registry : Registry)

theorem executeApproved_raises (correlationId : String) (record : PendingApproval) (w : World)
    (hadmitted : refused w.disk.ledger (executionKey rt record) = false) :
    Ends (executeApproved rt approverNote registry correlationId record) w fun r _ => match r with
      | .ok _ => ¬ Unregistered registry record.step
      | .error _ => Unregistered registry record.step := by
  unfold executeApproved
  refine (started_becomes rt record correlationId w).bind fun started w₁ hbecame => ?_
  have hstarted := hbecame.1
  simp only [hstarted, hadmitted, Bool.not_false, Bool.not_true, Bool.false_eq_true, if_false]
  have hplan : Ends (executePlan rt record.context registry
      (executionRequester record approverNote correlationId) true [record.step]) w₁ fun r _ =>
        (∀ results, r = .ok results → results ≠ [] ∧ ¬ Unregistered registry record.step) ∧
          ∀ e, r = .error e → Unregistered registry record.step := by
    refine Ends.bind (executeStep_forced rt record.context registry _ record.step w₁) ?_ ?_
    · intro result w₂ hregistered
      refine ⟨fun results hresults => ?_, nofun⟩
      cases hresults
      exact ⟨List.cons_ne_nil _ _, hregistered⟩
    · intro e w₂ hunregistered
      exact ⟨nofun, fun _ _ => hunregistered⟩
  refine Ends.bind hplan ?_ fun e w₂ hraised => hraised.2 e rfl
  intro results w₂ hreturned
  obtain ⟨hne, hregistered⟩ := hreturned.1 results rfl
  cases results with
  | nil => exact absurd rfl hne
  | cons result rest =>
    refine (marked_becomes _ result w₂).bind fun _ w₃ _ => ?_
    refine (appendEpisode_returns ..).bind fun _ w₄ _ => ?_
    exact (persistOrClean_becomes _ w₄).bind fun _ w₅ _ => hregistered

theorem approve_raises {id : String} {record : PendingApproval} {w : World}
    (hpassed : Passed rt w id record)
    (hadmitted : refused w.disk.ledger (executionKey rt record) = false) :
    Ends (approve rt id approverNote registry) w fun r _ => match r with
      | .ok _ => ¬ Unregistered registry record.step
      | .error _ => Unregistered registry record.step := by
  unfold approve
  refine Ends.read ?_
  rw [hpassed.stored]
  dsimp only
  rw [hpassed.pending]
  dsimp only
  unfold approvePending
  refine Ends.read ?_
  rw [hpassed.unsafe_off]
  refine Ends.ask ?_ ?_
  · intro expired hexpired
    cases hexpired.symm.trans hpassed.unexpired
    refine Ends.read ?_
    refine (resolveCorrelation_returns ..).bind fun correlationId w₁ ⟨_, hquiet⟩ => ?_
    have hscopes : (w.policy.checkScopes record.requiredScopes).1 = true :=
      SecurityPolicy.PermissionsPolicy.checkScopes_iff.mpr hpassed.scopes
    simp only [hscopes, Bool.not_true, Bool.false_eq_true, if_false]
    refine (logPolicyEvent_returns ..).bind fun _ w₂ hquiet₂ => ?_
    have hledger : w₂.disk.ledger = w.disk.ledger :=
      (quiet_chains.trans hquiet hquiet₂).ledger_eq
    rw [← hledger] at hadmitted
    exact executeApproved_raises rt approverNote registry correlationId _ w₂ hadmitted
  · intro e hexpired
    cases hexpired.symm.trans hpassed.unexpired

theorem approve_leaves {id : String} {record : PendingApproval} {w : World}
    (hpassed : Passed rt w id record)
    (hadmitted : refused w.disk.ledger (executionKey rt record) = false) :
    Ends (approve rt id approverNote registry) w fun _ w' =>
      Leaves w'.disk.ledger (executionKey rt record) (Unregistered registry record.step)
        (Executed record.step w w') := by
  have hraises := approve_raises rt approverNote registry hpassed hadmitted
  have hcases := approve_cases rt approverNote registry id w
  have honly : ∀ {other}, get w.disk.approvals id = some other → other = record := fun h =>
    Option.some.inj (h.symm.trans hpassed.stored)
  rw [Ends] at hraises hcases ⊢
  generalize approve rt id approverNote registry w = out at hraises hcases ⊢
  obtain ⟨r, w'⟩ := out
  cases hcases with
  | declined e why _ => exact absurd hpassed (why record)
  | duplicate other stored approved _ =>
    cases honly stored
    cases approved.symm.trans hpassed.pending
  | closed other record' e stored pending same status why _ =>
    cases honly stored
    exact absurd hpassed why
  | skipped other correlationId passed _ refused _ =>
    cases honly passed.stored
    cases refused.symm.trans hadmitted
  | aborted other e correlationId passed admitted why became =>
    cases honly passed.stored
    exact leaves_started hadmitted hraises (congrArg Stores.ledger became.stores)
  | executed other correlationId result w₁ w₂ passed correlated admitted started ran finished =>
    cases honly passed.stored
    have hledger := congrArg Stores.ledger finished.stores
    have hevents₁ : w₁.disk.events = w.disk.events := by
      rw [started.stores]
      rfl
    have hevents : w'.disk.events = w₂.disk.events :=
      (congrArg Stores.events finished.stores).trans (markedExecution_frame ..).1
    cases hok : result.ok with
    | false =>
      rw [Function.comp_apply, markedExecution, hok] at hledger
      exact leaves_failed hraises hledger
    | true =>
      rw [Function.comp_apply, markedExecution, hok] at hledger
      refine leaves_succeeded hraises ?_ hledger
      cases ran with
      | described unnamed _ => exact Or.inl unnamed
      | denied error _ _ => cases hok
      | proposed skill rationale record' _ _ _ => cases hok
      | ran skill outcome _ _ wrote =>
        cases outcome with
        | raised e => cases hok
        | returned content =>
          have hlogged := congrArg Stores.events wrote.stores
          refine Or.inr ⟨skill, executionRequester record approverNote correlationId, content, ?_⟩
          rw [← hevents₁]
          exact hevents.trans hlogged

end Approving

theorem proposeBranch_leaves (rt : Runtime) (engine : Engine) (turn : Turn) (index : Nat)
    (skillName : String) (args : Dict) (rationale : String) {s : JobState}
    (hsafe : s.world.safeMode = false)
    (hadmitted : refused s.world.disk.ledger (actionKey rt turn index skillName args rationale) =
      false) :
    Ends (proposeBranch rt engine turn index (.proposeStep skillName args rationale)) s fun _ s' =>
      Leaves s'.world.disk.ledger (actionKey rt turn index skillName args rationale) False
        (Proposed (actionKey rt turn index skillName args rationale) s.world s'.world) := by
  obtain ⟨-, hcase⟩ := runAction_cases rt engine turn index
    (.proposeStep skillName args rationale) ⟨s.world, turn.rule, []⟩
  rw [Ends, proposeBranch]
  dsimp only
  generalize runAction rt engine turn index (.proposeStep skillName args rationale)
    ⟨s.world, turn.rule, []⟩ = out at hcase ⊢
  obtain ⟨r, e'⟩ := out
  cases hcase with
  | safeMode safe _ => cases safe.symm.trans hsafe
  | deduped _ refused _ => cases refused.symm.trans hadmitted
  | blocked _ w₁ _ _ _ started marked =>
    exact leaves_failed not_false (congrArg Stores.ledger marked.stores)
  | failed e stepId _ w₁ _ _ _ _ started marked =>
    exact leaves_failed not_false (congrArg Stores.ledger marked.stores)
  | created stepId record w₁ w₂ _ _ _ _ started made marked =>
    have happrovals := congrArg Stores.approvals (marked.stores.trans
      (congrArg (markKey _ _ _ _) made.wrote.stores))
    have hevents := congrArg Stores.events (marked.stores.trans
      (congrArg (markKey _ _ _ _) made.wrote.stores))
    have hevents₁ : w₁.disk.events = s.world.disk.events := by
      rw [started.stores]
      rfl
    refine leaves_succeeded not_false ⟨record, ?_, ?_⟩ (congrArg Stores.ledger marked.stores)
    · change get e'.world.disk.approvals record.id = _
      rw [happrovals]
      exact KeyedList.get_upsert_self record w₁.disk.approvals
    · change e'.world.disk.events = _
      rw [hevents, ← hevents₁]
      rfl

theorem onWorld_returns {α : Type} {x : Py α} {s : JobState} {P : α → World → Prop}
    (h : Returns x s.world P) :
    Returns (onWorld x) s fun a s' => P a s'.world ∧ s' = { s with world := s'.world } := by
  obtain ⟨a, s', hrun, w, hP, rfl⟩ := Returns.zoom h
  exact ⟨a, _, hrun, hP, rfl⟩

theorem construct_ends {α : Type} {failure : Option PyError} {f : Unit → Job α} {s : JobState}
    {Q : Except PyError α → JobState → Prop} (hok : failure = none → Ends (f ()) s Q)
    (herr : ∀ e, failure = some e → Q (.error e) s) : Ends (construct failure >>= f) s Q := by
  cases failure with
  | none => exact hok rfl
  | some e => exact herr e rfl

/-- Several constructors raise what the first of them to raise does, and build nothing. -/
theorem constructAll_ends (failures : List (Option PyError)) (s : JobState) :
    Ends (constructAll failures) s fun r s' => s' = s ∧ match r with
      | .ok _ => ∀ e, some e ∉ failures
      | .error e => some e ∈ failures := by
  induction failures with
  | nil => exact ⟨rfl, fun e h => by cases h⟩
  | cons failure rest ih =>
    rw [constructAll]
    refine construct_ends (fun hnone => ?_) fun e h => ⟨rfl, by simp [h]⟩
    refine ih.mono fun r s' ⟨hsame, hrest⟩ => ⟨hsame, ?_⟩
    cases r with
    | ok _ => simpa [hnone] using hrest
    | error e => exact List.mem_cons_of_mem _ hrest

theorem activeRouter_ends {α : Type} {made : Constructors} {call : JobCall} {f : Unit → Job α}
    {s : JobState} {Q : Except PyError α → JobState → Prop}
    (hok : ¬ NoRouter made call → Ends (f ()) s Q)
    (herr : ∀ e, NoRouter made call → Q (.error e) s) :
    Ends (activeRouter made call >>= f) s Q := by
  rw [activeRouter]
  cases hgiven : call.routerGiven with
  | true => exact hok fun h => by cases hgiven.symm.trans h.1
  | false =>
    refine construct_ends ?_ ?_
    · intro hnone
      exact hok fun h => h.2 hnone
    · intro e hsome
      refine herr e ⟨hgiven, ?_⟩
      rw [hsome]
      exact nofun

/-- An admitted run is started, and stays so until something marks it. -/
theorem startRun_admitted (rt : Runtime) (call : JobCall) (default : String) (extra : Dict)
    (correlationId : String) {s : JobState} {key : String}
    (hkey : JobCall.key rt call default extra s = key)
    (hadmitted : refused s.world.disk.ledger key = false) :
    Returns (startRun rt call default extra correlationId) s fun answer s' =>
      answer = (key, true) ∧ s' = { s with world := s'.world } ∧
        s'.world.toSurroundings = s.world.toSurroundings ∧
        ∀ strands completed : Prop, strands →
          Leaves s'.world.disk.ledger key strands completed := by
  refine ⟨_, _, rfl, ?_, rfl, rfl, ?_⟩
  · rw [← hkey] at hadmitted ⊢
    have hresult : (tryStart s.world.maxRecords (isoformat s.world.now) s.world.disk.ledger
        (JobCall.key rt call default extra s) .jobRun (some correlationId)
        (call.startMeta default)).1 = true := by
      rw [tryStart_result, hadmitted, Bool.not_false]
    exact congrArg (Prod.mk _) hresult
  · intro strands completed hstrands
    subst hkey
    exact leaves_started (d := s.world.disk.toStores) hadmitted hstrands rfl

theorem sendAndMark_leaves (call : JobCall) (key title body : String) (metadata : Dict)
    (episode : Episode) (s : JobState) {strands : Prop} (hstrands : ¬ strands) :
    Ends (sendAndMark call key title body metadata episode) s fun _ s' =>
      Leaves s'.world.disk.ledger key strands
        (s'.sent = s.sent ++ [⟨title, body, metadata, none⟩]) := by
  rw [Ends, sendAndMark, Prog.attempt]
  cases hsend : call.sendRaises with
  | none =>
    have hrun : routerSend call title body metadata s =
        (.ok (), { s with sent := s.sent ++ [⟨title, body, metadata, none⟩] }) := by
      simp only [routerSend, hsend]
    rw [bind_ok hrun]
    exact leaves_succeeded (d := s.world.disk.toStores) hstrands rfl rfl
  | some e =>
    have hrun : routerSend call title body metadata s =
        (.error e, { s with sent := s.sent ++ [⟨title, body, metadata, some e⟩] }) := by
      simp only [routerSend, hsend]
    rw [bind_error hrun]
    exact leaves_failed (d := s.world.disk.toStores) hstrands rfl

theorem drawn_before {rt : Runtime} {call : JobCall} {default : String} {extra : Dict}
    {s s₁ : JobState} {key : String} (hquiet : Quiet s.world s₁.world)
    (hkey : JobCall.key rt call default extra s = key)
    (hadmitted : refused s.world.disk.ledger key = false) :
    JobCall.key rt call default extra s₁ = key ∧ refused s₁.world.disk.ledger key = false := by
  have hledger : s₁.world.disk.ledger = s.world.disk.ledger := hquiet.ledger_eq
  refine ⟨?_, ?_⟩
  · rw [← hkey, JobCall.key, hquiet.surroundings, JobCall.key]
  · rw [hledger]
    exact hadmitted

theorem runReminder_leaves (rt : Runtime) (made : Constructors) (call : JobCall) (message : String)
    {s : JobState} {key : String} (hledger : made.ledger = none)
    (hkey : JobCall.key rt call "reminder" [("message", .str message)] s = key)
    (hadmitted : refused s.world.disk.ledger key = false) :
    Ends (runReminder rt made call message) s fun _ s' =>
      Leaves s'.world.disk.ledger key (made.memoryManager ≠ none ∨ NoRouter made call)
        (∃ metadata, s'.sent = s.sent ++ [⟨"Reminder", message, metadata, none⟩]) := by
  rw [runReminder]
  refine (onWorld_returns (drawUuid_returns rt s.world)).bind ?_
  rintro correlationId s₁ ⟨⟨-, -, hquiet⟩, hs₁⟩
  obtain ⟨hkey₁, hadmitted₁⟩ := drawn_before hquiet hkey hadmitted
  refine construct_ends (fun _ => ?_) fun e h => by cases hledger.symm.trans h
  refine (startRun_admitted rt call "reminder" _ correlationId hkey₁ hadmitted₁).bind ?_
  rintro _ s₂ ⟨rfl, hs₂, -, hstarted⟩
  have hsent : s₂.sent = s.sent := by rw [hs₂, hs₁]
  unfold finishReminder
  refine construct_ends (fun hmemory => ?_) fun e h => hstarted _ _ (Or.inl (by simp [h]))
  simp only [Bool.not_true, Bool.false_eq_true, if_false]
  refine activeRouter_ends (fun hrouter => ?_) fun e h => hstarted _ _ (Or.inr h)
  have hunstranded : ¬ (made.memoryManager ≠ none ∨ NoRouter made call) :=
    not_or.mpr ⟨not_not.mpr hmemory, hrouter⟩
  refine Ends.mono (sendAndMark_leaves call key "Reminder" message _ _ s₂ hunstranded) ?_
  intro _ s₃ hleaves
  rw [hsent] at hleaves
  exact hleaves.imp fun hsent => ⟨_, hsent⟩

theorem runDailyBriefing_leaves (rt : Runtime) (made : Constructors) (call : JobCall)
    (sources : BriefingSources) {s : JobState} {key : String} {body : String × List String}
    (hmemory : made.memoryManager = none) (hledger : made.ledger = none)
    (hbody : briefingBody sources s = .ok body)
    (hkey : JobCall.key rt call "daily-briefing" [] s = key)
    (hadmitted : refused s.world.disk.ledger key = false) :
    Ends (runDailyBriefing rt made call sources) s fun _ s' =>
      Leaves s'.world.disk.ledger key (NoRouter made call)
        (∃ metadata, s'.sent = s.sent ++ [⟨"Daily Briefing", body.1, metadata, none⟩]) := by
  rw [runDailyBriefing]
  refine construct_ends (fun _ => ?_) fun e h => by cases hmemory.symm.trans h
  refine Ends.read (Ends.ask ?_ fun e h => by cases hbody.symm.trans h)
  intro found hfound
  cases hbody.symm.trans hfound
  refine (onWorld_returns (drawUuid_returns rt s.world)).bind ?_
  rintro correlationId s₁ ⟨⟨-, -, hquiet⟩, hs₁⟩
  obtain ⟨hkey₁, hadmitted₁⟩ := drawn_before hquiet hkey hadmitted
  refine construct_ends (fun _ => ?_) fun e h => by cases hledger.symm.trans h
  refine (startRun_admitted rt call "daily-briefing" _ correlationId hkey₁ hadmitted₁).bind ?_
  rintro _ s₂ ⟨rfl, hs₂, -, hstarted⟩
  have hsent : s₂.sent = s.sent := by rw [hs₂, hs₁]
  unfold finishBriefing
  simp only [Bool.not_true, Bool.false_eq_true, if_false]
  refine activeRouter_ends (fun hrouter => ?_) fun e h => hstarted _ _ h
  refine Ends.mono (sendAndMark_leaves call key "Daily Briefing" body.1 _ _ s₂ hrouter) ?_
  intro _ s₃ hleaves
  rw [hsent] at hleaves
  exact hleaves.imp fun hsent => ⟨_, hsent⟩

/-- The loop evaluates each enabled rule; no evaluation makes it raise. -/
theorem evaluateAll_returns (rt : Runtime) (engine : Engine) (feeds : Rule → Feed)
    (correlationId : String) (rules : List Rule) (s : JobState) :
    Returns (evaluateAll rt engine feeds correlationId rules) s fun results _ =>
      results.map RuleRunResult.ruleId = (rules.filter Rule.enabled).map Rule.id := by
  induction rules generalizing s with
  | nil => exact ⟨[], s, rfl, rfl⟩
  | cons rule rest ih =>
    cases henabled : rule.enabled with
    | false =>
      obtain ⟨results, s', hrun, hids⟩ := ih s
      refine ⟨results, s', ?_, ?_⟩
      · rw [evaluateAll, henabled]
        exact hrun
      · rw [List.filter_cons, henabled]
        exact hids
    | true =>
      obtain ⟨answer, s₁, hfirst, ⟨-, _, _, _, _, hcase⟩, -⟩ :=
        onWorld_returns (evaluateRule_cases rt engine (feeds rule) rule (some correlationId)
          s.world)
      obtain ⟨results, s₃, hrest, hids⟩ :=
        ih { s₁ with rules := upsert (isoformat s₁.world.now) answer.2 s₁.rules }
      refine ⟨answer.1 :: results, s₃, ?_, ?_⟩
      · rw [evaluateAll, henabled]
        simp only [if_true]
        rw [bind_ok hfirst]
        rw [writeBack, update_bind, bind_ok hrest]
        rfl
      · have hid : answer.1.ruleId = rule.id := hcase.ruleId
        rw [List.filter_cons, henabled]
        simp only [if_true, List.map_cons, hid, hids]

theorem buildParts_ends (made : Constructors) (call : JobCall) (s : JobState) :
    Ends (buildParts made call) s fun r s' => s' = s ∧ match r with
      | .ok _ => ¬ Unbuilt made call
      | .error _ => Unbuilt made call := by
  have hunbuilt : ∀ e, some e ∈ made.orchestrator ∨
      some e ∈ [made.approvalStore, made.permissionsPolicy, made.ruleStore] → Unbuilt made call :=
    fun e h => Or.inl ⟨e, List.mem_append.mpr h⟩
  rw [buildParts]
  refine Ends.bind (constructAll_ends made.orchestrator s) ?_
    fun e _ ⟨hsame, h⟩ => ⟨hsame, hunbuilt e (Or.inl h)⟩
  rintro _ _ ⟨rfl, horchestrator⟩
  refine Ends.bind (constructAll_ends _ _) ?_ fun e _ ⟨hsame, h⟩ => ⟨hsame, hunbuilt e (Or.inr h)⟩
  rintro _ _ ⟨rfl, hothers⟩
  refine activeRouter_ends (fun hrouter => ?_) fun e h => ⟨rfl, Or.inr h⟩
  refine construct_ends (fun _ => ?_) fun e h => ⟨rfl, hunbuilt e (Or.inr (by simp [h]))⟩
  refine ⟨rfl, ?_⟩
  rintro (⟨e, h⟩ | h)
  · rcases List.mem_append.mp h with h | h
    · exact horchestrator e h
    · exact hothers e h
  · exact hrouter h

theorem evaluateSnapshot_returns (rt : Runtime) (engine : Engine) (feeds : Rule → Feed)
    (correlationId key : String) (s : JobState) :
    Returns (evaluateSnapshot rt engine feeds correlationId (some key)) s fun results s' =>
      results.map RuleRunResult.ruleId = ((listAll s.rules).filter Rule.enabled).map Rule.id ∧
        ∃ r, latestRecord s'.world.disk.ledger key = some r ∧ r.status = .succeeded := by
  obtain ⟨results, s₁, hrun, hids⟩ :=
    evaluateAll_returns rt engine feeds correlationId (listAll s.rules) s
  obtain ⟨_, s₂, hmark, hwrote, -⟩ := onWorld_returns
    (ledgerMark_returns key .succeeded [("rule_count", .int results.length)] s₁.world)
  refine ⟨results, s₂, ?_, hids, ?_⟩
  · rw [evaluateSnapshot, Prog.attempt, read_bind, bind_ok hrun]
    have hmarked : markRun (some key) .succeeded [("rule_count", .int results.length)] s₁ =
        (.ok (), s₂) := hmark
    rw [bind_ok hmarked]
    rfl
  · have hledger : s₂.world.disk.ledger = (markKey s₁.world.toSurroundings key .succeeded
        [("rule_count", .int results.length)] s₁.world.disk.toStores).ledger :=
      congrArg Stores.ledger hwrote.stores
    rw [hledger]
    exact ⟨_, latestRecord_mark_self .., markedRecord_status ..⟩

theorem runRulesEvaluation_leaves (rt : Runtime) (made : Constructors) (call : JobCall)
    (feeds : Rule → Feed) {s : JobState} {key : String} (hmemory : made.memoryManager = none)
    (hledger : made.ledger = none) (hjob : call.jobId ≠ none)
    (hkey : JobCall.key rt call "rules-evaluator" [] s = key)
    (hadmitted : refused s.world.disk.ledger key = false) :
    Ends (runRulesEvaluation rt made call feeds) s fun answer s' =>
      Leaves s'.world.disk.ledger key (Unbuilt made call) (∃ results, answer = .ok results ∧
        results.map RuleRunResult.ruleId =
          ((listAll s.rules).filter Rule.enabled).map Rule.id) := by
  rw [runRulesEvaluation]
  refine construct_ends (fun _ => ?_) fun e h => by cases hmemory.symm.trans h
  refine construct_ends (fun _ => ?_) fun e h => by cases hledger.symm.trans h
  refine (onWorld_returns (drawUuid_returns rt s.world)).bind ?_
  rintro correlationId s₁ ⟨⟨-, -, hquiet⟩, hs₁⟩
  rw [if_neg hjob]
  obtain ⟨hkey₁, hadmitted₁⟩ := drawn_before hquiet hkey hadmitted
  refine (startRun_admitted rt call "rules-evaluator" _ correlationId hkey₁ hadmitted₁).bind ?_
  rintro _ s₂ ⟨rfl, hs₂, -, hstarted⟩
  have hrules : s₂.rules = s.rules := by rw [hs₂, hs₁]
  simp only [Bool.not_true, Bool.false_eq_true, if_false]
  rw [evaluateStarted]
  refine Ends.bind (buildParts_ends made call s₂) ?_ ?_
  · rintro engine _ ⟨rfl, hbuilt⟩
    refine (evaluateSnapshot_returns rt engine feeds correlationId key _).ends ?_
    rintro results s₃ ⟨hids, r, hr, hstatus⟩
    rw [hrules] at hids
    exact ⟨r, hr, Or.inr ⟨hbuilt, Or.inr ⟨hstatus, results, rfl, hids⟩⟩⟩
  · rintro e _ ⟨rfl, hunbuilt⟩
    exact hstarted _ _ hunbuilt

theorem discard_state {α : Type} (x : Job α) (s : JobState) :
    ((do let _ ← x; pure () : Job Unit) s).2 = (x s).2 := by
  cases h : x s with
  | mk r s' =>
    cases r with
    | ok a => rw [bind_ok h]; rfl
    | error e => rw [bind_error h]

theorem run_leaves (rt : Runtime) (made : Constructors) {s : JobState} {key : String}
    {client : Client} (hstarts : client.Starts rt made s key) :
    Leaves (client.run rt made s).2.world.disk.ledger key (client.Strands made s)
      (client.Completed rt made s (client.run rt made s).2) := by
  obtain ⟨hreaches, hadmitted⟩ := hstarts
  cases client with
  | approve id approverNote registry =>
    obtain ⟨record, hpassed, rfl⟩ := hreaches
    have hleaves := approve_leaves rt approverNote registry hpassed hadmitted
    have honly : ∀ {other}, get s.world.disk.approvals id = some other → other = record :=
      fun h => Option.some.inj (h.symm.trans hpassed.stored)
    have hstrands : (Client.approve id approverNote registry).Strands made s ↔
        Unregistered registry record.step := by
      refine ⟨?_, fun h => ⟨record, hpassed.stored, h⟩⟩
      rintro ⟨other, hstored, h⟩
      rwa [honly hstored] at h
    rw [hstrands, Client.run, discard_state]
    exact hleaves.imp fun h => ⟨record, hpassed.stored, h⟩
  | proposeStep engine turn index skillName args rationale =>
    obtain ⟨hsafe, rfl⟩ := hreaches
    exact proposeBranch_leaves rt engine turn index skillName args rationale hsafe hadmitted
  | reminder call message =>
    obtain ⟨hledger, hkey⟩ := hreaches
    exact runReminder_leaves rt made call message hledger hkey hadmitted
  | dailyBriefing call sources =>
    obtain ⟨hmemory, hledger, ⟨body, hbody⟩, hkey⟩ := hreaches
    refine Leaves.imp (runDailyBriefing_leaves rt made call sources hmemory hledger hbody hkey
      hadmitted) ?_
    rintro ⟨metadata, hsent⟩
    exact ⟨body.1, body.2, metadata, hbody, hsent⟩
  | rulesEvaluation call feeds =>
    obtain ⟨hmemory, hledger, hjob, hkey⟩ := hreaches
    have hleaves := runRulesEvaluation_leaves rt made call feeds hmemory hledger hjob hkey hadmitted
    rw [Client.run, discard_state]
    refine Leaves.imp hleaves ?_
    rintro ⟨results, hresults, hids⟩
    exact ⟨results, Prod.ext hresults rfl, hids⟩

theorem client_settles_iff (rt : Runtime) (made : Constructors) {s : JobState} {key : String}
    {client : Client} (hstarts : client.Starts rt made s key) :
    client.Settles rt made s key ↔ ¬ client.Strands made s :=
  (run_leaves rt made hstarts).settles_iff

def noteStep : PlanStep := ⟨"s", "Note", some "notes.append", "{}", true⟩

def noteRecord : PendingApproval :=
  { id := "a"
    createdAtIso := "1970-01-01T00:00:00+00:00"
    expiresAtIso := "1970-01-04T00:00:00+00:00"
    status := .pending
    requester := []
    step := noteStep
    context := ⟨"Note", none⟩
    rationale := ""
    result := none
    error := none
    requiredScopes := ["reminders.write"]
    policySnapshot := exampleSurroundings.policy.snapshotModel
    policySnapshotAtApprove := none }

def stateWith (records : List PendingApproval) : JobState :=
  let w := freshWorld exampleSurroundings
  ⟨{ w with disk := { w.disk with approvals := records } }, [], [], []⟩

def madeWith (tasksMax : Except PyError Int) : Constructors :=
  { allBuilt with tasksMax := tasksMax }

def scheduled (jobId : String) : JobCall := ⟨some jobId, none, true, none⟩

def plainRuntime : Runtime := exampleRuntime (fun _ => .returned "") fun _ => none

def approveNote : Client := .approve "a" none exampleRegistry

def evaluateRules : Client := .rulesEvaluation (scheduled "rules-evaluator") fun _ => ⟨none, none⟩

def badSetting : Constructors :=
  madeWith (.error (.valueError "invalid literal for int() with base 10: 'abc'"))

theorem keys_left_started :
    (∃ key, approveNote.Starts plainRuntime (madeWith (.ok 500)) (stateWith [noteRecord]) key ∧
      ¬ approveNote.Settles plainRuntime (madeWith (.ok 500)) (stateWith [noteRecord]) key) ∧
    ∃ key, evaluateRules.Starts plainRuntime badSetting (stateWith []) key ∧
      ¬ evaluateRules.Settles plainRuntime badSetting (stateWith []) key := by
  refine ⟨⟨executionKey plainRuntime noteRecord, ?_⟩, JobCall.key plainRuntime
    (scheduled "rules-evaluator") "rules-evaluator" [] (stateWith []), ?_⟩
  · have hstarts : approveNote.Starts plainRuntime (madeWith (.ok 500)) (stateWith [noteRecord])
        (executionKey plainRuntime noteRecord) :=
      ⟨⟨noteRecord, ⟨rfl, rfl, rfl, rfl, by decide⟩, rfl⟩, rfl⟩
    have hstrands : approveNote.Strands (madeWith (.ok 500)) (stateWith [noteRecord]) :=
      ⟨noteRecord, rfl, "notes.append", _, rfl, rfl⟩
    exact ⟨hstarts, fun h => (run_leaves _ _ hstarts).settles_iff.mp h hstrands⟩
  · have hstarts : evaluateRules.Starts plainRuntime badSetting (stateWith []) (JobCall.key
        plainRuntime (scheduled "rules-evaluator") "rules-evaluator" [] (stateWith [])) :=
      ⟨⟨rfl, rfl, nofun, rfl⟩, rfl⟩
    have hstrands : evaluateRules.Strands badSetting (stateWith []) :=
      Or.inl ⟨.valueError "invalid literal for int() with base 10: 'abc'", by
        simp [badSetting, madeWith, allBuilt, Constructors.orchestrator, errorOf]⟩
    exact ⟨hstarts, fun h => (run_leaves _ _ hstarts).settles_iff.mp h hstrands⟩

def remindTea : Client := .reminder (scheduled "tea") "Tea"

theorem reminder_settles :
    ∃ key, remindTea.Settles plainRuntime (madeWith (.ok 500)) (stateWith []) key := by
  have hstarts : remindTea.Starts plainRuntime (madeWith (.ok 500)) (stateWith []) (JobCall.key
      plainRuntime (scheduled "tea") "reminder" [("message", .str "Tea")] (stateWith [])) :=
    ⟨⟨rfl, rfl⟩, rfl⟩
  refine ⟨_, (client_settles_iff _ _ hstarts).mpr ?_⟩
  rintro (h | ⟨h, -⟩)
  · exact h rfl
  · cases h

end LedgerClients
