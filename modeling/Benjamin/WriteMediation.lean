import Benjamin.AcceptedPlan
import Benjamin.ApprovalService
import Benjamin.RuleActionOnce

/-!
# Every write goes through an approval

Serial calls of the chat, of the approval service and of the rule engine; in between the
safe mode, the policy and the clock change at will. A rule engine asks the policy that was
in force when it was built which scopes a rule may propose. Every other check of the three
paths reads the policy anew.
-/
namespace WriteMediation

open PyBase PlanSchemas SecurityPolicy SkillRegistry AssistantState ApprovalStore PlanExecutor
  ApprovalService Planner Orchestration RuleSchemas RuleMatching RuleEngine AcceptedPlan Effect

/-- `executePlan` is the executor as the chat calls it, with any plan and any registry. -/
inductive Op where
  | handle (o : Orchestrator) (llm : LanguageModel) (message : String)
  | executePlan (context : ContextPack) (registry : Registry) (requester : Requester)
      (steps : List PlanStep)
  | approve (id : String) (approverNote : Option String) (registry : Registry)
  | reject (id : String) (reason : Option String)
  | cleanupExpired
  | evaluateRule (engine : Engine) (feed : Feed) (ctxCorrelationId : Option String) (rule : Rule)
  | setSurroundings (s : Surroundings)

def withLibraries (lib : Libraries) (o : Orchestrator) : Orchestrator :=
  { o with critic := { o.critic with lib := lib } }

def apply (lib : Libraries) (w : World) : Op → World
  | .handle o llm message => (handle (withLibraries lib o) llm message w).2
  | .executePlan context registry requester steps =>
    (executePlan lib.toRuntime context registry requester false steps w).2
  | .approve id approverNote registry => (approve lib.toRuntime id approverNote registry w).2
  | .reject id reason => (reject lib.toRuntime id reason w).2
  | .cleanupExpired => (cleanupExpired lib.toRuntime w).2
  | .evaluateRule engine feed ctxCorrelationId rule =>
    (evaluateRule lib.toRuntime engine feed ctxCorrelationId rule w).2
  | .setSurroundings s => { w with toSurroundings := s }

def Op.registry : Op → Option Registry
  | .handle .. => some builtinRegistry
  | .executePlan _ registry .. | .approve _ _ registry => some registry
  | .evaluateRule engine .. => some engine.registry
  | .reject .. | .cleanupExpired | .setSurroundings _ => none

/-- The record is for a registered write skill; safe mode is off and the scopes of the
skill and of the record are enabled. -/
structure Proposable (s : Surroundings) (registry : Registry) (record : PendingApproval) :
    Prop where
  write : ∃ name skill, truthy record.step.skillName = some name ∧
    registry.get name = .ok skill ∧ skill.IsWrite ∧
    ∀ scope ∈ skill.requiredScopes, s.policy.isScopeEnabled scope = true
  unsafe_off : s.safeMode = false
  scopes : ∀ scope ∈ record.requiredScopes, s.policy.isScopeEnabled scope = true

/-- A write runs in an `approve` call that its record passes, and an approval is created
for what may be proposed; a rule may propose less. -/
def Mediated (rt : Runtime) (w : World) (op : Op) : Event → Prop
  | .skillRun skill step requester _ => skill.IsWrite →
      ∃ id approverNote registry record, op = .approve id approverNote registry ∧
        Passed rt w id record ∧ record.step = step ∧
        requester.get "approval_id" = some id ∧
        ∀ scope ∈ skill.requiredScopes, w.policy.isScopeEnabled scope = true
  | .approvalCreated _ record =>
      (∃ registry, op.registry = some registry ∧ Proposable w.toSurroundings registry record) ∧
        ∀ engine feed ctxCorrelationId rule,
          op = .evaluateRule engine feed ctxCorrelationId rule →
            ∀ scope ∈ record.requiredScopes, scope ∈ w.policy.rulesAllowedScopes
  | .notified .. => True

def newEvents (t : SerialRun.Transition World Op) : List Event :=
  t.after.disk.events.drop t.before.disk.events.length

def writesFor (id : String) : Event → Bool
  | .skillRun skill _ requester _ =>
    decide (skill.IsWrite ∧ requester.get "approval_id" = some id)
  | _ => false

/-- The rule engine lets a rule of this call propose only what the current policy does. -/
def UpToDate (w : World) : Op → Prop
  | .evaluateRule engine _ _ rule => ∀ skillName args rationale,
      .proposeStep skillName args rationale ∈ rule.actions →
      (∀ scope ∈ requiredScopesForSkill engine.registry skillName,
        scope ∈ engine.permissionsPolicy.rulesAllowedScopes) →
      ∀ scope ∈ requiredScopesForSkill engine.registry skillName,
        scope ∈ w.policy.rulesAllowedScopes
  | _ => True

def Known (rt : Runtime) (w : World) (id : String) : Prop := ∀ n, w.uuids ≤ n → rt.uuid4 n ≠ id

def Closed (records : List PendingApproval) (id : String) : Prop :=
  ∀ record, get records id = some record → record.status ≠ .pending

theorem closed_persisted (autoclean : Bool) {record : PendingApproval} (d : Stores)
    (hstatus : record.status ≠ .pending) {id : String}
    (h : id = record.id ∨ Closed d.approvals id) :
    Closed (persisted autoclean record d).approvals id := by
  intro found hfound
  by_cases hid : record.id = id
  · subst hid
    rw [get_persisted_self] at hfound
    split_ifs at hfound
    cases hfound
    exact hstatus
  · rw [get_persisted_ne autoclean hid] at hfound
    exact h.resolve_left (Ne.symm hid) found hfound

theorem mem_persisted {autoclean : Bool} {record found : PendingApproval} {d : Stores}
    (h : found ∈ (persisted autoclean record d).approvals) :
    found = record ∨ found ∈ d.approvals := by
  rw [persisted] at h
  dsimp only at h
  split_ifs at h
  · exact .inr (List.mem_of_mem_filter h)
  · exact KeyedList.mem_upsert h

theorem closed_cleanup {rt : Runtime} {autoclean : Bool} {now : Int}
    {records : List PendingApproval} {id : String} (h : Closed records id) :
    Closed (records.filterMap (afterCleanup rt autoclean now)) id := by
  intro found hfound
  cases hget : get records id with
  | none =>
    cases hfound.symm.trans (KeyedList.get_filterMap_none afterCleanup_id hget)
  | some record =>
    have hclosed := h record hget
    have hsame := KeyedList.get_filterMap afterCleanup_id hget
      (afterCleanup_closed rt autoclean now hclosed)
    cases hfound.symm.trans hsame
    exact hclosed

/-- Stored identifiers stay known and decided approvals stay decided. -/
structure Grows (rt : Runtime) (w w' : World) : Prop where
  uuids : w.uuids ≤ w'.uuids
  known : (∀ record ∈ w.disk.approvals, Known rt w record.id) →
    ∀ record ∈ w'.disk.approvals, Known rt w' record.id
  closed : ∀ id, Known rt w id → Closed w.disk.approvals id → Closed w'.disk.approvals id

section Growing

variable {rt : Runtime} {w w' w₁ : World}

theorem Known.mono {id : String} (h : Known rt w id) (hle : w.uuids ≤ w'.uuids) :
    Known rt w' id := fun n hn => h n (hle.trans hn)

theorem grows_chains : Chains (Grows rt) := by
  refine ⟨fun w => ⟨le_refl _, fun h => h, fun _ _ h => h⟩, ?_⟩
  intro w w₁ w₂ h h'
  refine ⟨h.uuids.trans h'.uuids, fun hknown => h'.known (h.known hknown), ?_⟩
  intro id hid hclosed
  exact h'.closed id (hid.mono h.uuids) (h.closed id hid hclosed)

theorem Grows.of_same (huuids : w.uuids ≤ w'.uuids)
    (hsame : w'.disk.approvals = w.disk.approvals) : Grows rt w w' := by
  refine ⟨huuids, ?_, ?_⟩
  · intro hknown record hrecord
    rw [hsame] at hrecord
    exact (hknown record hrecord).mono huuids
  · intro id _ hclosed
    rw [hsame]
    exact hclosed

/-- A stored record has been decided and is written back or removed. -/
theorem Grows.of_persisted {autoclean : Bool} {record stored : PendingApproval} {d : Stores}
    (huuids : w.uuids ≤ w'.uuids) (hsame : d.approvals = w.disk.approvals)
    (hstores : w'.disk.toStores = persisted autoclean record d)
    (hstored : stored ∈ w.disk.approvals) (hid : record.id = stored.id)
    (hstatus : record.status ≠ .pending) : Grows rt w w' := by
  have happrovals : w'.disk.approvals = (persisted autoclean record d).approvals :=
    congrArg Stores.approvals hstores
  refine ⟨huuids, ?_, ?_⟩
  · intro hknown found hfound
    rw [happrovals] at hfound
    rcases mem_persisted hfound with rfl | hmem
    · rw [hid]
      exact (hknown stored hstored).mono huuids
    · rw [hsame] at hmem
      exact (hknown found hmem).mono huuids
  · intro id _ hclosed
    rw [happrovals]
    rw [← hsame] at hclosed
    exact closed_persisted autoclean d hstatus (.inr hclosed)

theorem Grows.of_created (huuid : Function.Injective rt.uuid4) {origin : Origin} {step : PlanStep}
    {rationale : String} {registry : Registry} {scopes : Option (List String)}
    {record : PendingApproval}
    (h : Created rt origin step rationale registry scopes w w' record) : Grows rt w w' := by
  obtain ⟨n, hn, hn', hid⟩ := h.fresh
  have happrovals : w'.disk.approvals = upsert record w.disk.approvals :=
    congrArg Stores.approvals h.wrote.stores
  refine ⟨h.wrote.uuids, ?_, ?_⟩
  · intro hknown found hfound
    rw [happrovals] at hfound
    rcases KeyedList.mem_upsert hfound with rfl | hmem
    · intro m hm heq
      have := huuid (heq.trans hid)
      omega
    · exact (hknown found hmem).mono h.wrote.uuids
  · intro id hknown hclosed
    rw [happrovals]
    intro found hfound
    have hne : record.id ≠ id := fun heq => hknown n hn (hid.symm.trans heq)
    exact hclosed found ((KeyedList.get_upsert_ne hne w.disk.approvals).symm.trans hfound)

end Growing

/-- Events of one kind are added; the surroundings stay. -/
structure Extends (rt : Runtime) (P : Event → Prop) (w w' : World) : Prop
    extends Grows rt w w' where
  surroundings : w'.toSurroundings = w.toSurroundings
  events : ∃ more, w'.disk.events = w.disk.events ++ more ∧ ∀ e ∈ more, P e

/-- What a program does that starts in the given surroundings. -/
def Within (rt : Runtime) (s : Surroundings) (P : Event → Prop) (w w' : World) : Prop :=
  w.toSurroundings = s → Extends rt P w w'

section Extending

variable {rt : Runtime} {P : Event → Prop} {w w' : World}

theorem Extends.of_wrote {f : Stores → Stores} {more : List Event} (h : Wrote f w w')
    (happrovals : (f w.disk.toStores).approvals = w.disk.approvals)
    (hevents : (f w.disk.toStores).events = w.disk.events ++ more) (hmore : ∀ e ∈ more, P e) :
    Extends rt P w w' where
  toGrows := .of_same h.uuids ((congrArg Stores.approvals h.stores).trans happrovals)
  surroundings := h.surroundings
  events := ⟨more, (congrArg Stores.events h.stores).trans hevents, hmore⟩

theorem Extends.of_quiet (h : Quiet w w') : Extends rt P w w' where
  toGrows := .of_same h.uuids h.approvals_eq
  surroundings := h.surroundings
  events := by
    have hsame : w'.disk.events = w.disk.events := h.events_eq
    exact ⟨[], hsame.trans (List.append_nil _).symm, fun _ hmem => nomatch hmem⟩

theorem Extends.of_log {e : Event} (h : Wrote (fun d => d.log e) w w') (he : P e) :
    Extends rt P w w' :=
  .of_wrote h rfl rfl fun _ hmem => List.mem_singleton.mp hmem ▸ he

theorem Extends.of_created (huuid : Function.Injective rt.uuid4) {origin : Origin}
    {step : PlanStep} {rationale : String} {registry : Registry} {scopes : Option (List String)}
    {record : PendingApproval}
    (h : Created rt origin step rationale registry scopes w w' record)
    (hrecord : P (.approvalCreated origin record)) : Extends rt P w w' where
  toGrows := .of_created huuid h
  surroundings := h.wrote.surroundings
  events := ⟨_, congrArg Stores.events h.wrote.stores,
    fun _ hmem => List.mem_singleton.mp hmem ▸ hrecord⟩

theorem Extends.trans {w₁ : World} (h : Extends rt P w w₁) (h' : Extends rt P w₁ w') :
    Extends rt P w w' := by
  obtain ⟨more, hevents, hmore⟩ := h.events
  obtain ⟨more', hevents', hmore'⟩ := h'.events
  refine ⟨grows_chains.trans h.toGrows h'.toGrows, h'.surroundings.trans h.surroundings,
    more ++ more', ?_, ?_⟩
  · rw [hevents', hevents, List.append_assoc]
  · intro e he
    exact (List.mem_append.mp he).elim (hmore e) (hmore' e)

theorem within_chains (rt : Runtime) (s : Surroundings) (P : Event → Prop) :
    Chains (Within rt s P) := by
  refine ⟨fun w _ => .of_quiet (Quiet.refl w), ?_⟩
  intro w w₁ w₂ h h' hs
  have hfirst := h hs
  exact hfirst.trans (h' (hfirst.surroundings.trans hs))

theorem Within.of_quiet {α : Type} {s : Surroundings} {x : Py α} (h : Keeps Quiet x) :
    Keeps (Within rt s P) x := fun w _ => .of_quiet (h w)

end Extending

def ChatEvent (s : Surroundings) (registry : Registry) : Event → Prop
  | .skillRun skill .. => ¬ skill.IsWrite
  | .approvalCreated _ record => Proposable s registry record
  | .notified .. => True

section Chat

variable {rt : Runtime} {w w' : World}

/-- A record that has been created may be proposed, if it asks for the scopes of its skill. -/
theorem created_proposable {origin : Origin} {step : PlanStep} {rationale : String}
    {registry : Registry} {scopes : List String} {record : PendingApproval}
    (h : Created rt origin step rationale registry (some scopes) w w' record)
    (hscopes : ∀ name skill, truthy step.skillName = some name → registry.get name = .ok skill →
      scopes = skill.requiredScopes) :
    record.requiredScopes = scopes ∧ Proposable w.toSurroundings registry record := by
  obtain ⟨skill, hcheck⟩ := h.checked
  obtain ⟨⟨name, hname, hget⟩, hsafe, hwrite, hrecord, henabled⟩ := checkPending_ok.mp hcheck
  have hown := hscopes name skill hname hget
  rw [hown, approvalScopes_registered hget] at hrecord
  refine ⟨hrecord.trans hown.symm, ⟨name, skill, ?_, hget, hwrite, ?_⟩, hsafe, henabled⟩
  · rw [h.step_eq]
    exact hname
  · rw [← hrecord]
    exact henabled

theorem step_extends (huuid : Function.Injective rt.uuid4) {registry : Registry}
    {requester : Requester} {step : PlanStep} {r : Except PyError StepResult}
    (hcase : StepCase rt registry requester false step w w' r) :
    Extends rt (ChatEvent w.toSurroundings registry) w w' := by
  cases hcase with
  | described unnamed quiet => exact .of_quiet quiet
  | denied error why quiet => exact .of_quiet quiet
  | failed e why quiet => exact .of_quiet quiet
  | proposed skill rationale record unforced cleared created =>
    refine .of_created huuid created (created_proposable created ?_).2
    intro name other hname hget
    obtain ⟨name', hname', hget'⟩ := cleared.named
    cases hname'.symm.trans hname
    cases hget'.symm.trans hget
    rfl
  | ran skill outcome cleared write wrote =>
    exact .of_log wrote fun hwrite => Bool.false_ne_true (write hwrite).2

theorem executePlan_extends (huuid : Function.Injective rt.uuid4) (s : Surroundings)
    (context : ContextPack) (registry : Registry) (requester : Requester) (steps : List PlanStep) :
    Keeps (Within rt s (ChatEvent s registry))
      (executePlan rt context registry requester false steps) := by
  have hR := within_chains rt s (ChatEvent s registry)
  induction steps with
  | nil => exact .pure hR _
  | cons step rest ih =>
    refine .bind hR ?_ fun _ => .bind hR ih fun _ => .pure hR _
    intro w hs
    have hcase := executeStep_cases rt context registry requester false step w
    exact hs ▸ step_extends huuid hcase

theorem onDisk_quiet {f : StateDir → StateDir} (h : ∀ d, (f d).toStores = d.toStores) :
    Keeps Quiet (onDisk f) := by
  intro w
  refine ⟨rfl, le_refl _, h w.disk, [w.disk], rfl, ?_⟩
  intro d hd
  exact .inl (congrArg StateDir.toStores (List.mem_singleton.mp hd))

theorem persistTaskRecord_quiet (o : Orchestrator) (p : Prepared) (message answer : String)
    (results : List StepResult) : Keeps Quiet (persistTaskRecord o p message answer results) := by
  have hR := quiet_chains
  refine .bind hR (.read hR _) fun now => .bind hR ?_ fun _ => ?_
  · exact onDisk_quiet fun _ => rfl
  · exact onDisk_quiet fun _ => rfl

theorem rememberTask_quiet (o : Orchestrator) (message answer : String) :
    Keeps Quiet (rememberTask o message answer) := by
  rw [rememberTask]
  split
  · exact onDisk_quiet fun _ => rfl
  · exact .pure quiet_chains _

theorem handle_extends (o : Orchestrator) (huuid : Function.Injective o.critic.lib.uuid4)
    (s : Surroundings) (llm : LanguageModel) (message : String) :
    Keeps (Within o.critic.lib.toRuntime s (ChatEvent s builtinRegistry))
      (handle o llm message) := by
  have hR := within_chains o.critic.lib.toRuntime s (ChatEvent s builtinRegistry)
  refine .bind hR (.of_quiet fun w => (prepare_drawn w).1) fun p => ?_
  split
  · refine .bind hR (executePlan_extends huuid s _ _ _ _) fun results => ?_
    refine .bind hR (.of_quiet (rememberTask_quiet _ _ _)) fun _ => ?_
    exact .bind hR (.of_quiet (persistTaskRecord_quiet _ _ _ _ _)) fun _ => .pure hR _
  · exact .bind hR (.of_quiet (persistTaskRecord_quiet _ _ _ _ _)) fun _ => .pure hR _

end Chat

/-- Rules run no skill and propose only what the policy lets a rule propose. -/
def RuleEvent (s : Surroundings) (registry : Registry) : Event → Prop
  | .skillRun .. => False
  | .approvalCreated _ record => Proposable s registry record ∧
      ∀ scope ∈ record.requiredScopes, scope ∈ s.policy.rulesAllowedScopes
  | .notified .. => True

theorem requiredScopesForSkill_registered {registry : Registry} {name : String} {skill : Skill}
    (h : registry.get name = .ok skill) :
    requiredScopesForSkill registry name = skill.requiredScopes := by
  have hne := (get_registered h).2.2
  simp only [requiredScopesForSkill, h]
  exact if_neg hne

section Rules

variable {rt : Runtime} {engine : Engine} {w w' : World}

theorem Extends.of_ledger {P : Event → Prop} {f : Stores → Stores} (h : Wrote f w w')
    (hsame : ∀ d, (f d).approvals = d.approvals ∧ (f d).events = d.events) :
    Extends rt P w w' := by
  have hevents := (hsame w.disk.toStores).2.trans (List.append_nil _).symm
  exact .of_wrote h (hsame w.disk.toStores).1 hevents fun _ hmem => nomatch hmem

theorem action_extends (huuid : Function.Injective rt.uuid4) {t : Turn} {index : Nat}
    {action : RuleAction} {r : Except PyError Bool}
    (hcurrent : ∀ skillName args rationale, action = .proposeStep skillName args rationale →
      (∀ scope ∈ requiredScopesForSkill engine.registry skillName,
        scope ∈ engine.permissionsPolicy.rulesAllowedScopes) →
      ∀ scope ∈ requiredScopesForSkill engine.registry skillName,
        scope ∈ w.policy.rulesAllowedScopes)
    (hcase : ActionCase rt engine t index w w' action r) :
    Extends rt (RuleEvent w.toSurroundings engine.registry) w w' := by
  cases hcase with
  | sent wrote => exact .of_log wrote trivial
  | unsent e why wrote => exact .of_log wrote trivial
  | safeMode safe quiet => exact .of_quiet quiet
  | deduped unsafe_off refused quiet => exact .of_quiet quiet
  | blocked metaUpdate w₁ unsafe_off admitted why started marked =>
    exact (Extends.of_ledger started fun _ => ⟨rfl, rfl⟩).trans
      (.of_ledger marked fun _ => ⟨rfl, rfl⟩)
  | failed e stepId metaUpdate w₁ unsafe_off admitted allowed why started marked =>
    exact (Extends.of_ledger started fun _ => ⟨rfl, rfl⟩).trans
      (.of_ledger marked fun _ => ⟨rfl, rfl⟩)
  | @created skillName rationale args stepId record w₁ w₂ unsafe_off admitted allowed creatable
      started made marked =>
    have hmade : record.requiredScopes = requiredScopesForSkill engine.registry skillName ∧
        Proposable w₁.toSurroundings engine.registry record := by
      refine created_proposable made ?_
      intro name skill hname hget
      have hsame : skillName = name := by
        rw [proposedStep, truthy] at hname
        grind
      rw [hsame]
      exact requiredScopesForSkill_registered hget
    have hallowed := hcurrent skillName args rationale rfl fun scope hscope =>
      (allowed scope hscope).1
    refine (Extends.of_ledger started fun _ => ⟨rfl, rfl⟩).trans (.trans ?_
      (.of_ledger marked fun _ => ⟨rfl, rfl⟩))
    refine .of_created huuid made ⟨?_, ?_⟩
    · rw [← started.surroundings]
      exact hmade.2
    · rw [hmade.1]
      exact hallowed

theorem acted_extends (huuid : Function.Injective rt.uuid4) {correlationId : String} {rule : Rule}
    {found : Matches} {r : Except PyError Nat}
    (hcurrent : ∀ feed ctx, UpToDate w (.evaluateRule engine feed ctx rule))
    (h : Acted rt engine correlationId rule found w w' r) :
    Extends rt (RuleEvent w.toSurroundings engine.registry) w w' := by
  refine h.ran.chain (within_chains rt w.toSurroundings _) ?_ rfl
  intro index action hmem v v' r hcase hv
  have haction : action ∈ rule.actions := by
    rw [actionsOf] at hmem
    split_ifs at hmem
    · cases hmem
    · exact hmem
  rw [← hv]
  refine action_extends huuid ?_ hcase
  rintro skillName args rationale rfl
  rw [hv]
  exact hcurrent ⟨none, none⟩ none skillName args rationale haction

theorem evaluation_extends (huuid : Function.Injective rt.uuid4) {feed : Feed}
    {correlationId : String} {rule : Rule} {result : RuleRunResult} {state : RuleState}
    (hcurrent : ∀ feed ctx, UpToDate w (.evaluateRule engine feed ctx rule))
    (hcase : EvaluationCase rt engine feed correlationId rule w w' result state) :
    Extends rt (RuleEvent w.toSurroundings engine.registry) w w' := by
  cases hcase with
  | cooling notes active quiet => exact .of_quiet quiet
  | interrupted notes exc w₁ state how quiet same =>
    cases how with
    | unread why quiet₁ => exact (Extends.of_quiet quiet₁).trans (.of_quiet quiet)
    | aborted found r inactive read acted why =>
      exact (acted_extends huuid hcurrent acted).trans (.of_quiet quiet)
  | completed notes found executed w₁ state₁ state inactive read acted quiet same remembered =>
    exact (acted_extends huuid hcurrent acted).trans (.of_quiet quiet)

theorem evaluateRule_extends (huuid : Function.Injective rt.uuid4) {feed : Feed}
    {ctxCorrelationId : Option String} {rule : Rule}
    (hcurrent : UpToDate w (.evaluateRule engine feed ctxCorrelationId rule)) :
    Extends rt (RuleEvent w.toSurroundings engine.registry) w
      (evaluateRule rt engine feed ctxCorrelationId rule w).2 := by
  obtain ⟨answer, w', hrun, -, correlationId, w₀, -, hquiet, hcase⟩ :=
    evaluateRule_cases rt engine feed rule ctxCorrelationId w
  have hsame : w₀.toSurroundings = w.toSurroundings := hquiet.surroundings
  have hcurrent₀ : ∀ feed ctx, UpToDate w₀ (.evaluateRule engine feed ctx rule) := by
    intro feed ctx
    rw [UpToDate, hsame]
    exact hcurrent
  have hrest := evaluation_extends huuid hcurrent₀ hcase
  rw [hsame] at hrest
  rw [hrun]
  exact (Extends.of_quiet hquiet).trans hrest

end Rules

/-- Nothing has run, or the skill of a record that passed, which is decided afterwards. -/
def RanOnce (rt : Runtime) (id : String) (w w' : World) : Prop :=
  w'.disk.events = w.disk.events ∨
    ∃ record skill requester outcome, Passed rt w id record ∧
      w'.disk.events = w.disk.events ++ [.skillRun skill record.step requester outcome] ∧
      requester.get "approval_id" = some id ∧
      (∀ scope ∈ skill.requiredScopes, w.policy.isScopeEnabled scope = true) ∧
      Closed w'.disk.approvals id

section Service

variable {rt : Runtime} {w w' : World}

theorem became_persisted {autoclean : Bool} {record stored : PendingApproval}
    (became : Became (persisted autoclean record) w w') (hstored : stored ∈ w.disk.approvals)
    (hid : record.id = stored.id) (hstatus : record.status ≠ .pending) :
    Grows rt w w' ∧ w'.disk.events = w.disk.events :=
  ⟨.of_persisted became.uuids rfl became.stores hstored hid hstatus,
    (congrArg Stores.events became.stores).trans rfl⟩

theorem forced_step {registry : Registry} {requester : Requester} {step : PlanStep}
    {result : StepResult} (hcase : StepCase rt registry requester true step w w' (.ok result)) :
    w.uuids ≤ w'.uuids ∧ w'.disk.approvals = w.disk.approvals ∧
      (w'.disk.events = w.disk.events ∨ ∃ skill outcome, Cleared w registry step skill ∧
        w'.disk.events = w.disk.events ++ [.skillRun skill step requester outcome]) := by
  cases hcase with
  | described unnamed quiet =>
    exact ⟨quiet.uuids, quiet.approvals_eq, .inl quiet.events_eq⟩
  | denied error why quiet =>
    exact ⟨quiet.uuids, quiet.approvals_eq, .inl quiet.events_eq⟩
  | proposed skill rationale record unforced cleared created => cases unforced
  | ran skill outcome cleared write wrote =>
    exact ⟨wrote.uuids, (congrArg Stores.approvals wrote.stores).trans rfl,
      .inr ⟨skill, outcome, cleared, congrArg Stores.events wrote.stores⟩⟩

theorem approve_runs {id : String} {approverNote : Option String} {registry : Registry}
    {r : Except PyError PendingApproval}
    (hcase : ApproveCase rt approverNote registry id w w' r) :
    Grows rt w w' ∧ RanOnce rt id w w' := by
  cases hcase with
  | declined e why quiet =>
    exact ⟨.of_same quiet.uuids quiet.approvals_eq, .inl quiet.events_eq⟩
  | duplicate record stored approved quiet =>
    exact ⟨.of_same quiet.uuids quiet.approvals_eq, .inl quiet.events_eq⟩
  | closed record record' e stored pending same status why became =>
    have hstatus : record'.status ≠ .pending := by
      rcases status with hs | hs <;> rw [hs] <;> decide
    exact (became_persisted became (KeyedList.get_mem stored) same.1 hstatus).imp_right .inl
  | skipped record correlationId passed correlated refused became =>
    exact (became_persisted became (KeyedList.get_mem passed.stored) rfl nofun).imp_right .inl
  | aborted record e correlationId passed admitted why became =>
    exact ⟨.of_same became.uuids ((congrArg Stores.approvals became.stores).trans rfl),
      .inl ((congrArg Stores.events became.stores).trans rfl)⟩
  | executed record correlationId result w₁ w₂ passed correlated admitted started ran finished =>
    obtain ⟨huuids, happrovals, hran⟩ := forced_step ran
    obtain ⟨hmarkedEvents, hmarked⟩ := markedExecution_frame w.toSurroundings
      (executionKey rt record) result w₂.disk.toStores
    have happrovals₂ : w₂.disk.approvals = w.disk.approvals :=
      happrovals.trans ((congrArg Stores.approvals started.stores).trans rfl)
    have hevents₁ : w₁.disk.events = w.disk.events :=
      (congrArg Stores.events started.stores).trans rfl
    have hevents : w'.disk.events = w₂.disk.events :=
      (congrArg Stores.events finished.stores).trans hmarkedEvents
    have hstored : record ∈ w₂.disk.approvals :=
      happrovals₂ ▸ KeyedList.get_mem passed.stored
    have hclosed : (executedRecord (withSnapshot w.policy record) result correlationId).status ≠
        .pending := nofun
    have hgrows : Grows rt w w' :=
      grows_chains.trans (.of_same (started.uuids.trans huuids) happrovals₂)
        (.of_persisted finished.uuids hmarked finished.stores hstored rfl hclosed)
    refine ⟨hgrows, ?_⟩
    rcases hran with hnone | ⟨skill, outcome, cleared, hrun⟩
    · exact .inl (hevents.trans (hnone.trans hevents₁))
    · have hid : record.id = id := KeyedList.get_key passed.stored
      refine .inr ⟨record, skill, executionRequester record approverNote correlationId, outcome,
        passed, ?_, congrArg some hid, ?_, ?_⟩
      · rw [hevents, hrun, hevents₁]
      · have hscopes := cleared.scopes
        rw [started.surroundings] at hscopes
        exact hscopes
      · have hdecided : w'.disk.approvals = _ := congrArg Stores.approvals finished.stores
        rw [hdecided]
        exact closed_persisted w.autoclean _ hclosed (.inl hid.symm)

theorem reject_grows {id : String} {reason : Option String} {r : Except PyError PendingApproval}
    (hcase : RejectCase rt id reason w w' r) :
    Grows rt w w' ∧ w'.disk.events = w.disk.events := by
  cases hcase with
  | declined e why quiet =>
    exact ⟨.of_same quiet.uuids quiet.approvals_eq, quiet.events_eq⟩
  | closed record record' e stored pending same due expired became =>
    have hstatus : record'.status ≠ .pending := by
      rw [expired]
      decide
    exact became_persisted became (KeyedList.get_mem stored) same.1 hstatus
  | rejected record correlationId stored pending correlated unexpired became =>
    exact became_persisted became (KeyedList.get_mem stored) rfl nofun

theorem cleanup_grows (rt : Runtime) (w : World) :
    Grows rt w (cleanupExpired rt w).2 ∧
      (cleanupExpired rt w).2.disk.events = w.disk.events := by
  have hends := cleanupExpired_becomes rt w
  rw [Ends] at hends
  rcases hends with hsame | became
  · rw [hsame]
    exact ⟨grows_chains.refl w, rfl⟩
  · have happrovals := congrArg Stores.approvals became.stores
    refine ⟨⟨became.uuids, ?_, ?_⟩, (congrArg Stores.events became.stores).trans rfl⟩
    · intro hknown found hfound
      rw [happrovals] at hfound
      obtain ⟨old, hold, hclean⟩ := List.mem_filterMap.mp hfound
      rw [afterCleanup_id old found hclean]
      exact (hknown old hold).mono became.uuids
    · intro id _ hclosed
      rw [happrovals]
      exact closed_cleanup hclosed

end Service

def runs (id : String) (w : World) : Nat := w.disk.events.countP (writesFor id)

/-- An approval whose write has run once is decided, and its identifier is not drawn again. -/
structure Accounted (rt : Runtime) (w : World) : Prop where
  known : ∀ record ∈ w.disk.approvals, Known rt w record.id
  once : ∀ id, runs id w ≤ 1
  spent : ∀ id, 0 < runs id w → Known rt w id ∧ Closed w.disk.approvals id

section System

variable {lib : Libraries} {w : World} {op : Op}

theorem op_grows (huuid : Function.Injective lib.uuid4) (hcurrent : UpToDate w op) :
    Grows lib.toRuntime w (apply lib w op) := by
  cases op with
  | handle o llm message =>
    exact (handle_extends (withLibraries lib o) huuid _ llm message w rfl).toGrows
  | executePlan context registry requester steps =>
    exact (executePlan_extends huuid _ context registry requester steps w rfl).toGrows
  | approve id approverNote registry =>
    exact (approve_runs (approve_cases lib.toRuntime approverNote registry id w)).1
  | reject id reason => exact (reject_grows (reject_cases lib.toRuntime id reason w)).1
  | cleanupExpired => exact (cleanup_grows lib.toRuntime w).1
  | evaluateRule engine feed ctxCorrelationId rule =>
    exact (evaluateRule_extends huuid hcurrent).toGrows
  | setSurroundings s => exact .of_same (le_refl _) rfl

theorem chat_mediated {rt : Runtime} {registry : Registry} {e : Event}
    (hregistry : op.registry = some registry)
    (hchat : ∀ engine feed ctx rule, op ≠ .evaluateRule engine feed ctx rule)
    (h : ChatEvent w.toSurroundings registry e) : Mediated rt w op e := by
  cases e with
  | skillRun skill step requester outcome =>
    intro hwrite
    exact absurd hwrite h
  | approvalCreated origin record =>
    refine ⟨⟨registry, hregistry, h⟩, ?_⟩
    intro engine feed ctx rule hop
    exact absurd hop (hchat engine feed ctx rule)
  | notified title body ruleId correlationId failure => trivial

theorem rule_mediated {rt : Runtime} {engine : Engine} {feed : Feed}
    {ctxCorrelationId : Option String} {rule : Rule} {e : Event}
    (h : RuleEvent w.toSurroundings engine.registry e) :
    Mediated rt w (.evaluateRule engine feed ctxCorrelationId rule) e := by
  cases e with
  | skillRun skill step requester outcome => exact h.elim
  | approvalCreated origin record =>
    exact ⟨⟨engine.registry, rfl, h.1⟩, fun _ _ _ _ _ => h.2⟩
  | notified title body ruleId correlationId failure => trivial

theorem op_mediated (huuid : Function.Injective lib.uuid4) (hcurrent : UpToDate w op) :
    ∃ more, (apply lib w op).disk.events = w.disk.events ++ more ∧
      ∀ e ∈ more, Mediated lib.toRuntime w op e := by
  have hquiet : ∀ {w' : World}, w'.disk.events = w.disk.events →
      ∃ more, w'.disk.events = w.disk.events ++ more ∧
        ∀ e ∈ more, Mediated lib.toRuntime w op e := by
    intro w' hsame
    exact ⟨[], hsame.trans (List.append_nil _).symm, fun _ hmem => nomatch hmem⟩
  cases op with
  | handle o llm message =>
    obtain ⟨more, hevents, hmore⟩ :=
      (handle_extends (withLibraries lib o) huuid _ llm message w rfl).events
    refine ⟨more, hevents, fun e he => chat_mediated rfl ?_ (hmore e he)⟩
    intro engine feed ctx rule hop
    cases hop
  | executePlan context registry requester steps =>
    obtain ⟨more, hevents, hmore⟩ :=
      (executePlan_extends huuid _ context registry requester steps w rfl).events
    refine ⟨more, hevents, fun e he => chat_mediated rfl ?_ (hmore e he)⟩
    intro engine feed ctx rule hop
    cases hop
  | approve id approverNote registry =>
    rcases (approve_runs (approve_cases lib.toRuntime approverNote registry id w)).2 with
      hsame | ⟨record, skill, requester, outcome, hpassed, hevents, hid, hscopes, -⟩
    · exact hquiet hsame
    · refine ⟨_, hevents, fun e he => ?_⟩
      cases List.mem_singleton.mp he
      intro _
      exact ⟨id, approverNote, registry, record, rfl, hpassed, rfl, hid, hscopes⟩
  | reject id reason => exact hquiet (reject_grows (reject_cases lib.toRuntime id reason w)).2
  | cleanupExpired => exact hquiet (cleanup_grows lib.toRuntime w).2
  | evaluateRule engine feed ctxCorrelationId rule =>
    obtain ⟨more, hevents, hmore⟩ :=
      (evaluateRule_extends huuid hcurrent).events
    exact ⟨more, hevents, fun e he => rule_mediated (hmore e he)⟩
  | setSurroundings s => exact hquiet rfl

theorem Accounted.grows {rt : Runtime} {w' : World} (h : Accounted rt w) (hgrows : Grows rt w w')
    (hruns : ∀ id, runs id w' = runs id w) : Accounted rt w' := by
  refine ⟨hgrows.known h.known, ?_, ?_⟩
  · intro id
    rw [hruns]
    exact h.once id
  · intro id hran
    rw [hruns] at hran
    obtain ⟨hknown, hclosed⟩ := h.spent id hran
    exact ⟨hknown.mono hgrows.uuids, hgrows.closed id hknown hclosed⟩

theorem runs_append {w' : World} {more : List Event}
    (hevents : w'.disk.events = w.disk.events ++ more) (id : String) :
    runs id w' = runs id w + more.countP (writesFor id) := by
  rw [runs, hevents, List.countP_append, runs]

/-- A record that passes is pending, so nothing has run for it before. -/
theorem Accounted.approved {rt : Runtime} {w' : World} {id : String} (h : Accounted rt w)
    (hgrows : Grows rt w w') (hran : RanOnce rt id w w') : Accounted rt w' := by
  rcases hran with hsame | ⟨record, skill, requester, outcome, hpassed, hevents, hid, -, hclosed⟩
  · exact h.grows hgrows fun id => by rw [runs, hsame, runs]
  · have hown : record.id = id := KeyedList.get_key hpassed.stored
    have hknown : Known rt w id := hown ▸ h.known record (KeyedList.get_mem hpassed.stored)
    have hnone : runs id w = 0 := by
      by_contra hsome
      exact (h.spent id (Nat.pos_of_ne_zero hsome)).2 record hpassed.stored hpassed.pending
    have hothers : ∀ other, other ≠ id → runs other w' = runs other w := by
      intro other hne
      have hnot : writesFor other (.skillRun skill record.step requester outcome) = false := by
        simp [writesFor, hid, Ne.symm hne]
      rw [runs_append hevents, List.countP_singleton, hnot]
      rfl
    refine ⟨hgrows.known h.known, ?_, ?_⟩
    · intro other
      by_cases hother : other = id
      · rw [runs_append hevents, hother, hnone, Nat.zero_add]
        exact List.countP_le_length
      · rw [hothers other hother]
        exact h.once other
    · intro other hran
      by_cases hother : other = id
      · rw [hother]
        exact ⟨hknown.mono hgrows.uuids, hclosed⟩
      · rw [hothers other hother] at hran
        obtain ⟨hknown', hclosed'⟩ := h.spent other hran
        exact ⟨hknown'.mono hgrows.uuids, hgrows.closed other hknown' hclosed'⟩

/-- No operation but `approve` runs a write. -/
theorem op_accounted (huuid : Function.Injective lib.uuid4) (hcurrent : UpToDate w op)
    (h : Accounted lib.toRuntime w) : Accounted lib.toRuntime (apply lib w op) := by
  by_cases happrove : ∃ id approverNote registry, op = .approve id approverNote registry
  · obtain ⟨id, approverNote, registry, rfl⟩ := happrove
    obtain ⟨hgrows, hran⟩ := approve_runs (approve_cases lib.toRuntime approverNote registry id w)
    exact h.approved hgrows hran
  · obtain ⟨more, hevents, hmore⟩ := op_mediated huuid hcurrent
    refine h.grows (op_grows huuid hcurrent) fun id => ?_
    have hnone : more.countP (writesFor id) = 0 := by
      refine List.countP_eq_zero.mpr fun e he hwrites => ?_
      cases e with
      | skillRun skill step requester outcome =>
        obtain ⟨hwrite, -⟩ := of_decide_eq_true hwrites
        obtain ⟨other, approverNote, registry, record, hop, -⟩ := hmore _ he hwrite
        exact happrove ⟨other, approverNote, registry, hop⟩
      | approvalCreated origin record => cases hwrites
      | notified title body ruleId correlationId failure => cases hwrites
    rw [runs_append hevents, hnone, Nat.add_zero]

end System

/-- In every run in which no rule engine is behind the policy, each write and each new
approval is mediated, and no approval has two writes. -/
theorem writes_mediated (lib : Libraries) (huuid : Function.Injective lib.uuid4) (w : World)
    (hevents : w.disk.events = [])
    (hknown : ∀ record ∈ w.disk.approvals, Known lib.toRuntime w record.id) (ops : List Op)
    (hcurrent : ∀ t ∈ SerialRun.transitions (apply lib) w ops, UpToDate t.before t.op) :
    (∀ t ∈ SerialRun.transitions (apply lib) w ops, ∀ e ∈ newEvents t,
      Mediated lib.toRuntime t.before t.op e) ∧
    ∀ id, runs id (SerialRun.final (apply lib) w ops) ≤ 1 := by
  have hinit : Accounted lib.toRuntime w := by
    refine ⟨hknown, ?_, ?_⟩ <;> intro id <;> simp [runs, hevents]
  obtain ⟨-, hfinal⟩ := SerialRun.invariant_along (C := fun t => UpToDate t.before t.op)
    (fun _ _ hcurrent h => op_accounted huuid hcurrent h) hcurrent hinit
  refine ⟨?_, hfinal.once⟩
  intro t ht e he
  obtain ⟨more, hmore, hall⟩ := op_mediated huuid (hcurrent t ht)
  rw [newEvents, SerialRun.after_eq ht, hmore, List.drop_left] at he
  exact hall e he

def plainLibraries : Libraries where
  toRuntime := exampleRuntime (fun _ => .returned "created") fun _ => none
  loadsRaises _ := none
  zoneInfo _ := .notFound

theorem plainLibraries_uuid4_injective : Function.Injective plainLibraries.uuid4 :=
  exampleRuntime_uuid4_injective (fun _ => .returned "created") fun _ => none

def remindOnMail : Op :=
  .evaluateRule exampleEngine (oneMessage "m" none) (some "c") RuleActionOnce.reminderRule

def approvedTwice : List Op :=
  [remindOnMail, .approve "1" none exampleRegistry, .approve "1" none exampleRegistry]

theorem reminder_mediated :
    (∀ t ∈ SerialRun.transitions (apply plainLibraries) (freshWorld exampleSurroundings)
      approvedTwice, ∀ e ∈ newEvents t, Mediated plainLibraries.toRuntime t.before t.op e) ∧
    runs "1" (SerialRun.final (apply plainLibraries) (freshWorld exampleSurroundings)
      approvedTwice) = 1 := by
  have hcurrent : ∀ t ∈ SerialRun.transitions (apply plainLibraries)
      (freshWorld exampleSurroundings) approvedTwice, UpToDate t.before t.op := by
    intro t ht
    rcases List.mem_cons.mp ht with rfl | ht
    · intro skillName args rationale hmem hallowed
      exact hallowed
    rcases List.mem_cons.mp ht with rfl | ht
    · trivial
    rcases List.mem_cons.mp ht with rfl | ht
    · trivial
    · cases ht
  obtain ⟨hmediated, honce⟩ := writes_mediated plainLibraries plainLibraries_uuid4_injective
    (freshWorld exampleSurroundings) rfl (fun _ hmem => nomatch hmem) approvedTwice hcurrent
  exact ⟨hmediated, Nat.le_antisymm (honce "1") (by decide)⟩

def rulesSilenced : Surroundings :=
  { exampleSurroundings with
    policy := { exampleSurroundings.policy with rulesAllowedScopes := [] } }

/-- The engine was built before the allowlist was emptied. -/
def staleEngine : List Op := [.setSurroundings rulesSilenced, remindOnMail]

theorem stale_engine_proposes :
    ¬ ∀ t ∈ SerialRun.transitions (apply plainLibraries) (freshWorld exampleSurroundings)
      staleEngine, ∀ e ∈ newEvents t, Mediated plainLibraries.toRuntime t.before t.op e := by
  intro h
  let w := apply plainLibraries (freshWorld exampleSurroundings) (.setSurroundings rulesSilenced)
  let t : SerialRun.Transition World Op := ⟨w, remindOnMail, apply plainLibraries w remindOnMail⟩
  have ht : t ∈ SerialRun.transitions (apply plainLibraries) (freshWorld exampleSurroundings)
      staleEngine := List.mem_cons_of_mem _ List.mem_cons_self
  have hcreated : ∃ origin record, Event.approvalCreated origin record ∈ newEvents t ∧
      "reminders.write" ∈ record.requiredScopes := ⟨_, _, List.mem_cons_self, by decide⟩
  obtain ⟨origin, record, hmem, hscope⟩ := hcreated
  exact absurd ((h t ht _ hmem).2 _ _ _ _ rfl _ hscope) (by decide)

end WriteMediation
