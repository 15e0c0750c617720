import Benjamin.ApprovalCleanup
import Benjamin.OneWayRecords
import Benjamin.WriteMediation

/-!
# The life of an approval

An approval is stored as pending. One later call decides it, with what is then kept of it
or nothing; before and after that no call of the assistant changes it.
-/
namespace ApprovalLifecycle

open PyBase PlanSchemas SecurityPolicy SkillRegistry AssistantState ApprovalStore PlanExecutor
  ApprovalService Planner Orchestration RuleSchemas RuleMatching RuleEngine AcceptedPlan Effect
  WriteMediation

inductive Decides (rt : Runtime) (w : World) (record : PendingApproval) :
    Op → PendingApproval → Prop
  | cleaned (due : isExpired rt w.now record = .ok true) :
      Decides rt w record .cleanupExpired { record with status := .expired }
  | approvedLate (approverNote : Option String) (registry : Registry)
      (unsafe_off : w.safeMode = false) (due : isExpired rt w.now record = .ok true) :
      Decides rt w record (.approve record.id approverNote registry)
        { record with status := .expired, error := some "approval expired" }
  | rejectedLate (reason : Option String) (due : isExpired rt w.now record = .ok true) :
      Decides rt w record (.reject record.id reason)
        { record with status := .expired, error := some "approval expired" }
  | denied (approverNote : Option String) (registry : Registry)
      (unsafe_off : w.safeMode = false) (unexpired : isExpired rt w.now record = .ok false)
      (disabled : ∃ scope ∈ record.requiredScopes, w.policy.isScopeEnabled scope = false) :
      Decides rt w record (.approve record.id approverNote registry)
        { withSnapshot w.policy record with
          status := .rejected
          error := some (policyError (w.policy.checkScopes record.requiredScopes).2) }
  | rejected (reason : Option String) (correlationId : String)
      (unexpired : isExpired rt w.now record = .ok false) :
      Decides rt w record (.reject record.id reason)
        (withCorrelation { record with status := .rejected, error := reason } correlationId)
  | approved (approverNote : Option String) (registry : Registry) (result : StepResult)
      (correlationId : String) (passed : Passed rt w record.id record) :
      Decides rt w record (.approve record.id approverNote registry)
        (executedRecord (withSnapshot w.policy record) result correlationId)

/-- What a decision leaves of a record. The requester may get another correlation id. -/
structure SameTerms (record record' : PendingApproval) : Prop where
  id : record'.id = record.id
  createdAtIso : record'.createdAtIso = record.createdAtIso
  expiresAtIso : record'.expiresAtIso = record.expiresAtIso
  step : record'.step = record.step
  context : record'.context = record.context
  rationale : record'.rationale = record.rationale
  requiredScopes : record'.requiredScopes = record.requiredScopes
  policySnapshot : record'.policySnapshot = record.policySnapshot
  requester : ∀ name, name ≠ "correlation_id" →
    record'.requester.get name = record.requester.get name

theorem requester_get_set_ne (r : Requester) {key name : String} (h : name ≠ key)
    (value : String) : (r.set key value).get name = r.get name := by
  induction r with
  | nil => simp [Requester.set, Requester.get, List.find?, Ne.symm h]
  | cons entry rest ih =>
    obtain ⟨k, v⟩ := entry
    unfold Requester.set
    by_cases hk : k = key
    · subst hk
      simp [Requester.get, List.find?, Ne.symm h]
    · simp only [hk, if_false]
      by_cases hname : k = name
      · simp [Requester.get, List.find?, hname]
      · simpa [Requester.get, List.find?, hname] using ih

theorem sameTerms_withCorrelation {record record' : PendingApproval} (h : SameTerms record record')
    (correlationId : String) : SameTerms record (withCorrelation record' correlationId) where
  id := h.id
  createdAtIso := h.createdAtIso
  expiresAtIso := h.expiresAtIso
  step := h.step
  context := h.context
  rationale := h.rationale
  requiredScopes := h.requiredScopes
  policySnapshot := h.policySnapshot
  requester name hname :=
    (requester_get_set_ne record'.requester hname correlationId).trans (h.requester name hname)

theorem Decides.sameTerms {rt : Runtime} {w : World} {op : Op} {record record' : PendingApproval}
    (h : Decides rt w record op record') : SameTerms record record' := by
  cases h with
  | cleaned | approvedLate | rejectedLate | denied => constructor <;> intros <;> rfl
  | rejected => exact sameTerms_withCorrelation (by constructor <;> intros <;> rfl) _
  | approved => exact sameTerms_withCorrelation (by constructor <;> intros <;> rfl) _

theorem Decides.closed {rt : Runtime} {w : World} {op : Op} {record record' : PendingApproval}
    (h : Decides rt w record op record') : record'.status ≠ .pending := by
  cases h <;> intro hstatus <;> cases hstatus

/-- The records stay, or one pending record is decided and written back or removed. -/
def Answers (rt : Runtime) (w : World) (op : Op) (w' : World) : Prop :=
  w'.disk.approvals = w.disk.approvals ∨
    ∃ record record', record ∈ w.disk.approvals ∧
      get w.disk.approvals record.id = some record ∧ record.status = .pending ∧
      Decides rt w record op record' ∧
      w'.disk.approvals = (persisted w.autoclean record' w.disk.toStores).approvals

section Service

variable {rt : Runtime} {w w' : World}

theorem Answers.of_quiet {op : Op} (h : Quiet w w') : Answers rt w op w' := .inl h.approvals_eq

theorem Answers.of_became {op : Op} {id : String} {record record' : PendingApproval}
    (hstored : get w.disk.approvals id = some record) (hpending : record.status = .pending)
    (hdecides : Decides rt w record op record')
    (became : Became (persisted w.autoclean record') w w') : Answers rt w op w' := by
  have hid : record.id = id := KeyedList.get_key hstored
  exact .inr ⟨record, record', KeyedList.get_mem hstored, hid ▸ hstored, hpending, hdecides,
    congrArg Stores.approvals became.stores⟩

theorem disabled_of_unchecked {policy : PermissionsPolicy} {scopes : List String}
    (h : (policy.checkScopes scopes).1 ≠ true) :
    ∃ scope ∈ scopes, policy.isScopeEnabled scope = false := by
  by_contra hnone
  apply h
  rw [PermissionsPolicy.checkScopes_iff]
  intro scope hscope
  by_contra hdisabled
  exact hnone ⟨scope, hscope, by simpa using hdisabled⟩

theorem executed_answers {id : String} {approverNote : Option String} {registry : Registry}
    {r : Except PyError PendingApproval} (hcase : ApproveCase rt approverNote registry id w w' r)
    {record : PendingApproval} (hpassed : Passed rt w id record) :
    Answers rt w (.approve id approverNote registry) w' := by
  have hid : record.id = id := KeyedList.get_key hpassed.stored
  subst hid
  have hsame : ∀ {other}, Passed rt w record.id other → other = record := fun h =>
    Option.some.inj (h.stored.symm.trans hpassed.stored)
  cases hcase with
  | declined e why quiet => exact .of_quiet quiet
  | duplicate found stored approved quiet => exact .of_quiet quiet
  | closed found record' e stored pending same status why became =>
    cases stored.symm.trans hpassed.stored
    exact absurd hpassed why
  | skipped found correlationId passed correlated refused became =>
    cases hsame passed
    exact .of_became passed.stored passed.pending
      (.approved approverNote registry (duplicateResult record.step) correlationId passed) became
  | aborted found e correlationId passed admitted why became =>
    exact .inl ((congrArg Stores.approvals became.stores).trans rfl)
  | executed found correlationId result w₁ w₂ passed correlated admitted started ran finished =>
    cases hsame passed
    have hran := (forced_step ran).2.1
    have hmarked := (markedExecution_frame w.toSurroundings (executionKey rt record) result
      w₂.disk.toStores).2
    have hsame₂ : w₂.disk.approvals = w.disk.approvals :=
      hran.trans ((congrArg Stores.approvals started.stores).trans rfl)
    refine .inr ⟨record, _, KeyedList.get_mem passed.stored, passed.stored, passed.pending,
      .approved approverNote registry result correlationId passed, ?_⟩
    rw [congrArg Stores.approvals finished.stores, Function.comp_apply]
    simp only [persisted, hmarked, hsame₂]

theorem approvePending_answers {approverNote : Option String} {registry : Registry}
    {record : PendingApproval} (hstored : get w.disk.approvals record.id = some record)
    (hpending : record.status = .pending) :
    Ends (approvePending rt approverNote registry record) w fun _ w' =>
      Answers rt w (.approve record.id approverNote registry) w' := by
  by_cases hpassed : Passed rt w record.id record
  · have hcase := approvePending_cases rt approverNote registry hstored hpending
    exact hcase.mono fun _ _ h => executed_answers h hpassed
  unfold approvePending
  refine Ends.read ?_
  cases hsafe : w.safeMode with
  | true =>
    simp only [if_true]
    refine Ends.read ?_
    refine (appendEpisode_returns ..).bind fun _ w₁ hquiet => ?_
    exact .of_quiet hquiet
  | false =>
    simp only [Bool.false_eq_true, if_false]
    refine Ends.ask ?_ fun e _ => .of_quiet (Quiet.refl w)
    intro expired hexpired
    cases expired with
    | true =>
      simp only [if_true]
      refine (persistOrClean_becomes _ w).bind fun _ w₁ hpersist => ?_
      exact .of_became hstored hpending (.approvedLate approverNote registry hsafe hexpired)
          hpersist
    | false =>
      simp only [Bool.false_eq_true, if_false]
      refine Ends.read ?_
      refine (resolveCorrelation_returns ..).bind fun correlationId w₁ ⟨_, hquiet⟩ => ?_
      have hscopes : (w.policy.checkScopes record.requiredScopes).1 ≠ true := by
        intro hscopes
        exact hpassed ⟨hstored, hpending, hsafe, hexpired,
          PermissionsPolicy.checkScopes_iff.mp hscopes⟩
      simp only [hscopes, Bool.not_false, if_true]
      refine (appendEpisode_returns ..).bind fun _ w₂ hquiet₂ => ?_
      refine (logPolicyEvent_returns ..).bind fun _ w₃ hquiet₃ => ?_
      refine (persistOrClean_becomes _ w₃).bind fun _ w₄ hpersist => ?_
      have hq : Quiet w w₃ := quiet_chains.trans (quiet_chains.trans hquiet hquiet₂) hquiet₃
      have hbecame := (became_id hq).then hpersist
      rw [Function.comp_id, hq.autoclean_eq] at hbecame
      exact .of_became hstored hpending (.denied approverNote registry hsafe hexpired
        (disabled_of_unchecked hscopes)) hbecame

theorem approve_answers (rt : Runtime) (id : String) (approverNote : Option String)
    (registry : Registry) (w : World) :
    Answers rt w (.approve id approverNote registry)
      (approve rt id approverNote registry w).2 := by
  suffices h : Ends (approve rt id approverNote registry) w fun _ w' =>
    Answers rt w (.approve id approverNote registry) w' from h
  unfold approve
  refine Ends.read ?_
  cases hstored : get w.disk.approvals id with
  | none => exact .of_quiet (Quiet.refl w)
  | some record =>
    have hid : record.id = id := KeyedList.get_key hstored
    subst hid
    dsimp only
    split
    · exact .of_quiet (Quiet.refl w)
    · exact .of_quiet (Quiet.refl w)
    · exact .of_quiet (Quiet.refl w)
    · rename_i hstatus
      exact approvePending_answers hstored hstatus

theorem reject_answers (rt : Runtime) (id : String) (reason : Option String) (w : World) :
    Answers rt w (.reject id reason) (reject rt id reason w).2 := by
  suffices h : Ends (reject rt id reason) w fun _ w' => Answers rt w (.reject id reason) w' from h
  unfold reject
  refine Ends.read ?_
  cases hstored : get w.disk.approvals id with
  | none => exact .of_quiet (Quiet.refl w)
  | some record =>
    have hid : record.id = id := KeyedList.get_key hstored
    subst hid
    by_cases hpending : record.status = .pending
    · simp only [hpending, ne_eq, not_true_eq_false, if_false]
      refine Ends.ask ?_ fun e _ => .of_quiet (Quiet.refl w)
      intro expired hexpired
      cases expired with
      | true =>
        simp only [if_true]
        refine (persistOrClean_becomes _ w).bind fun _ w₁ hpersist => ?_
        exact .of_became hstored hpending (.rejectedLate reason hexpired) hpersist
      | false =>
        simp only [Bool.false_eq_true, if_false]
        refine (resolveCorrelation_returns ..).bind fun correlationId w₁ ⟨_, hquiet⟩ => ?_
        refine (appendEpisode_returns ..).bind fun _ w₂ hquiet₂ => ?_
        refine (persistOrClean_becomes _ w₂).bind fun _ w₃ hpersist => ?_
        have hq : Quiet w w₂ := quiet_chains.trans hquiet hquiet₂
        have hbecame := (became_id hq).then hpersist
        rw [Function.comp_id, hq.autoclean_eq] at hbecame
        exact .of_became hstored hpending (.rejected reason correlationId hexpired) hbecame
    · simp only [ne_eq, hpending, not_false_eq_true, if_true]
      exact .of_quiet (Quiet.refl w)

end Service

/-- The stored identifiers differ, and none is drawn again. -/
structure Sound (rt : Runtime) (w : World) : Prop where
  known : ∀ record ∈ w.disk.approvals, Known rt w record.id
  nodup : (w.disk.approvals.map PendingApproval.id).Nodup

structure Adds (rt : Runtime) (w w' : World) : Prop where
  uuids : w.uuids ≤ w'.uuids
  sound : Sound rt w → Sound rt w'
  added : Sound rt w → ∀ id, get w'.disk.approvals id = get w.disk.approvals id ∨
    get w.disk.approvals id = none ∧ ¬ Known rt w id ∧
      ∃ record, get w'.disk.approvals id = some record ∧ record.status = .pending

section Adding

variable {rt : Runtime} {w w' : World}

theorem Sound.of_same (h : Sound rt w) (huuids : w.uuids ≤ w'.uuids)
    (hsame : w'.disk.approvals = w.disk.approvals) : Sound rt w' := by
  refine ⟨?_, by rw [hsame]; exact h.nodup⟩
  intro record hrecord
  rw [hsame] at hrecord
  exact (h.known record hrecord).mono huuids

theorem Adds.of_same (huuids : w.uuids ≤ w'.uuids)
    (hsame : w'.disk.approvals = w.disk.approvals) : Adds rt w w' :=
  ⟨huuids, fun h => h.of_same huuids hsame, fun _ id => .inl (by rw [hsame])⟩

theorem Adds.of_quiet (h : Quiet w w') : Adds rt w w' := .of_same h.uuids h.approvals_eq

theorem Adds.of_frame {f : Stores → Stores} (h : Wrote f w w')
    (hf : ∀ d, (f d).approvals = d.approvals) : Adds rt w w' :=
  .of_same h.uuids ((congrArg Stores.approvals h.stores).trans (hf _))

theorem adds_chains (rt : Runtime) : Chains (Adds rt) := by
  refine ⟨fun w => .of_quiet (Quiet.refl w), ?_⟩
  intro w w₁ w₂ h h'
  refine ⟨h.uuids.trans h'.uuids, fun hsound => h'.sound (h.sound hsound), ?_⟩
  intro hsound id
  rcases h'.added (h.sound hsound) id with hsame | ⟨hnone, hfresh, record, hrecord, hpending⟩
  · rw [hsame]
    exact h.added hsound id
  · rcases h.added hsound id with hsame | ⟨_, _, other, hother, _⟩
    · rw [hnone] at hsame
      exact .inr ⟨hsame.symm, fun hid => hfresh (hid.mono h.uuids), record, hrecord, hpending⟩
    · cases hnone.symm.trans hother

theorem Adds.of_created (huuid : Function.Injective rt.uuid4) {origin : Origin} {step : PlanStep}
    {rationale : String} {registry : Registry} {scopes : Option (List String)}
    {record : PendingApproval}
    (h : Created rt origin step rationale registry scopes w w' record) : Adds rt w w' := by
  obtain ⟨n, hn, hn', hid⟩ := h.fresh
  have happrovals : w'.disk.approvals = upsert record w.disk.approvals :=
    congrArg Stores.approvals h.wrote.stores
  have hfresh : ¬ Known rt w record.id := fun hknown => hknown n hn hid.symm
  refine ⟨h.wrote.uuids, ?_, ?_⟩
  · intro hsound
    refine ⟨(Grows.of_created huuid h).known hsound.known, ?_⟩
    rw [happrovals]
    exact KeyedList.nodup_upsert hsound.nodup
  · intro hsound id
    rw [happrovals]
    by_cases hsame : record.id = id
    · subst hsame
      refine .inr ⟨?_, hfresh, record, KeyedList.get_upsert_self record _, h.pending⟩
      rw [KeyedList.get_none_iff]
      intro other hother heq
      exact hfresh (heq ▸ hsound.known other hother)
    · exact .inl (KeyedList.get_upsert_ne hsame _)

theorem step_adds (huuid : Function.Injective rt.uuid4) {registry : Registry}
    {requester : Requester} {step : PlanStep} {r : Except PyError StepResult}
    (hcase : StepCase rt registry requester false step w w' r) : Adds rt w w' := by
  cases hcase with
  | described unnamed quiet => exact .of_quiet quiet
  | denied error why quiet => exact .of_quiet quiet
  | failed e why quiet => exact .of_quiet quiet
  | proposed skill rationale record unforced cleared created => exact .of_created huuid created
  | ran skill outcome cleared write wrote => exact .of_frame wrote fun _ => rfl

theorem executePlan_adds (huuid : Function.Injective rt.uuid4) (context : ContextPack)
    (registry : Registry) (requester : Requester) (steps : List PlanStep) :
    Keeps (Adds rt) (executePlan rt context registry requester false steps) := by
  have hR := adds_chains rt
  induction steps with
  | nil => exact .pure hR _
  | cons step rest ih =>
    refine .bind hR ?_ fun _ => .bind hR ih fun _ => .pure hR _
    intro w
    exact step_adds huuid (executeStep_cases rt context registry requester false step w)

theorem handle_adds (o : Orchestrator) (huuid : Function.Injective o.critic.lib.uuid4)
    (llm : LanguageModel) (message : String) :
    Keeps (Adds o.critic.lib.toRuntime) (handle o llm message) := by
  have hR := adds_chains o.critic.lib.toRuntime
  have hquiet : ∀ {α : Type} {x : Py α}, Keeps Quiet x → Keeps (Adds o.critic.lib.toRuntime) x :=
    fun h w => .of_quiet (h w)
  refine .bind hR (hquiet fun w => (prepare_drawn w).1) fun p => ?_
  split
  · refine .bind hR (executePlan_adds huuid _ _ _ _) fun results => ?_
    refine .bind hR (hquiet (rememberTask_quiet _ _ _)) fun _ => ?_
    exact .bind hR (hquiet (persistTaskRecord_quiet _ _ _ _ _)) fun _ => .pure hR _
  · exact .bind hR (hquiet (persistTaskRecord_quiet _ _ _ _ _)) fun _ => .pure hR _

theorem action_adds (huuid : Function.Injective rt.uuid4) {engine : Engine} {t : Turn}
    {index : Nat} {action : RuleAction} {r : Except PyError Bool}
    (hcase : ActionCase rt engine t index w w' action r) : Adds rt w w' := by
  have hR := adds_chains rt
  cases hcase with
  | sent wrote => exact .of_frame wrote fun _ => rfl
  | unsent e why wrote => exact .of_frame wrote fun _ => rfl
  | safeMode safe quiet => exact .of_quiet quiet
  | deduped unsafe_off refused quiet => exact .of_quiet quiet
  | blocked metaUpdate w₁ unsafe_off admitted why started marked =>
    exact hR.trans (.of_frame started fun _ => rfl) (.of_frame marked fun _ => rfl)
  | failed e stepId metaUpdate w₁ unsafe_off admitted allowed why started marked =>
    exact hR.trans (.of_frame started fun _ => rfl) (.of_frame marked fun _ => rfl)
  | created stepId record w₁ w₂ unsafe_off admitted allowed creatable started made marked =>
    refine hR.trans (.of_frame started fun _ => rfl) (hR.trans (.of_created huuid made) ?_)
    exact .of_frame marked fun _ => rfl

theorem evaluation_adds (huuid : Function.Injective rt.uuid4) {engine : Engine} {feed : Feed}
    {correlationId : String} {rule : Rule} {result : RuleRunResult} {state : RuleState}
    (hcase : EvaluationCase rt engine feed correlationId rule w w' result state) :
    Adds rt w w' := by
  have hR := adds_chains rt
  have hacted : ∀ {found : Matches} {v v' : World} {r : Except PyError Nat},
      Acted rt engine correlationId rule found v v' r → Adds rt v v' :=
    fun h => h.ran.chain hR fun _ _ _ _ _ _ hcase => action_adds huuid hcase
  cases hcase with
  | cooling notes active quiet => exact .of_quiet quiet
  | interrupted notes exc w₁ state how quiet same =>
    cases how with
    | unread why quiet₁ => exact hR.trans (.of_quiet quiet₁) (.of_quiet quiet)
    | aborted found r inactive read acted why => exact hR.trans (hacted acted) (.of_quiet quiet)
  | completed notes found executed w₁ state₁ state inactive read acted quiet same remembered =>
    exact hR.trans (hacted acted) (.of_quiet quiet)

theorem evaluateRule_adds (huuid : Function.Injective rt.uuid4) (engine : Engine) (feed : Feed)
    (ctxCorrelationId : Option String) (rule : Rule) (w : World) :
    Adds rt w (evaluateRule rt engine feed ctxCorrelationId rule w).2 := by
  obtain ⟨answer, w', hrun, -, correlationId, w₀, -, hquiet, hcase⟩ :=
    evaluateRule_cases rt engine feed rule ctxCorrelationId w
  rw [hrun]
  exact (adds_chains rt).trans (.of_quiet hquiet) (evaluation_adds huuid hcase)

end Adding

/-- What one call does to the record under an identifier. -/
inductive Move (rt : Runtime) (w : World) (op : Op) (id : String) :
    Option PendingApproval → Option PendingApproval → Prop
  | kept (stored : Option PendingApproval) : Move rt w op id stored stored
  | created (record : PendingApproval) (fresh : ¬ Known rt w id)
      (pending : record.status = .pending) : Move rt w op id none (some record)
  | decided (record record' : PendingApproval) (pending : record.status = .pending)
      (decides : Decides rt w record op record') :
      Move rt w op id (some record) (if w.autoclean then none else some record')

/-- The identifiers stay sound, and every record moves as the call allows. -/
structure Moved (rt : Runtime) (w : World) (op : Op) (w' : World) : Prop where
  uuids : w.uuids ≤ w'.uuids
  sound : Sound rt w'
  moves : ∀ id, Move rt w op id (get w.disk.approvals id) (get w'.disk.approvals id)

section Calls

variable {rt : Runtime} {w w' : World} {op : Op}

theorem Adds.moved (h : Adds rt w w') (hsound : Sound rt w) : Moved rt w op w' := by
  refine ⟨h.uuids, h.sound hsound, fun id => ?_⟩
  rcases h.added hsound id with hsame | ⟨hnone, hfresh, record, hrecord, hpending⟩
  · rw [hsame]
    exact .kept _
  · rw [hnone, hrecord]
    exact .created record hfresh hpending

theorem Answers.moved (h : Answers rt w op w') (huuids : w.uuids ≤ w'.uuids)
    (hsound : Sound rt w) : Moved rt w op w' := by
  rcases h with hsame | ⟨record, record', hmem, hstored, hpending, hdecides, happrovals⟩
  · exact (Adds.of_same huuids hsame).moved hsound
  have hid : record'.id = record.id := hdecides.sameTerms.id
  have hclosed : record'.status ≠ .pending := hdecides.closed
  refine ⟨huuids, ⟨?_, ?_⟩, fun id => ?_⟩
  · intro found hfound
    rw [happrovals] at hfound
    rcases mem_persisted hfound with rfl | hold
    · rw [hid]
      exact (hsound.known record hmem).mono huuids
    · exact (hsound.known found hold).mono huuids
  · rw [happrovals, persisted]
    dsimp only
    split
    · exact KeyedList.nodup_delete hsound.nodup
    · exact KeyedList.nodup_upsert hsound.nodup
  · rw [happrovals]
    by_cases hsame : record'.id = id
    · subst hsame
      rw [get_persisted_self, hid, hstored]
      have hmove : Move rt w op record.id (some record)
          (if w.autoclean then none else some record') :=
        .decided record record' hpending hdecides
      cases hauto : w.autoclean <;> simpa [hauto, hclosed] using hmove
    · rw [get_persisted_ne w.autoclean hsame]
      exact .kept _

theorem cleanup_moved (rt : Runtime) (w : World) (hsound : Sound rt w) :
    Moved rt w .cleanupExpired (cleanupExpired rt w).2 := by
  have hends := cleanupExpired_becomes rt w
  rw [Ends] at hends
  rcases hends with hsame | became
  · rw [hsame]
    exact (Adds.of_same (le_refl _) rfl).moved hsound
  have happrovals := congrArg Stores.approvals became.stores
  refine ⟨became.uuids, ⟨?_, ?_⟩, fun id => ?_⟩
  · exact (cleanup_grows rt w).1.known hsound.known
  · rw [happrovals]
    exact KeyedList.nodup_filterMap afterCleanup_id hsound.nodup
  · have hafter : get (cleanupExpired rt w).2.disk.approvals id =
        (get w.disk.approvals id).bind (afterCleanup rt w.autoclean w.now) := by
      rw [happrovals]
      exact KeyedList.get_filterMap_bind afterCleanup_id hsound.nodup id
    rw [hafter]
    cases hstored : get w.disk.approvals id with
    | none => exact .kept none
    | some record =>
      rw [Option.bind_some]
      by_cases hstale : ApprovalCleanup.Stale rt w.now record
      · have hpending : record.status = .pending := hstale.pending
        have hdue : isExpired rt w.now record = .ok true := by
          simpa [ApprovalCleanup.Stale, staleRecord, hpending] using hstale
        rw [ApprovalCleanup.afterCleanup_stale hstale]
        exact .decided record _ hpending (.cleaned hdue)
      · rw [ApprovalCleanup.afterCleanup_kept hstale]
        exact .kept _

theorem op_moved {lib : Libraries} (huuid : Function.Injective lib.uuid4) (w : World) (op : Op)
    (hsound : Sound lib.toRuntime w) : Moved lib.toRuntime w op (apply lib w op) := by
  cases op with
  | handle o llm message =>
    exact (handle_adds (withLibraries lib o) huuid llm message w).moved hsound
  | executePlan context registry requester steps =>
    exact (executePlan_adds huuid context registry requester steps w).moved hsound
  | approve id approverNote registry =>
    have hgrows := (approve_runs (approve_cases lib.toRuntime approverNote registry id w)).1
    exact (approve_answers lib.toRuntime id approverNote registry w).moved hgrows.uuids hsound
  | reject id reason =>
    have hgrows := (reject_grows (reject_cases lib.toRuntime id reason w)).1
    exact (reject_answers lib.toRuntime id reason w).moved hgrows.uuids hsound
  | cleanupExpired => exact cleanup_moved lib.toRuntime w hsound
  | evaluateRule engine feed ctxCorrelationId rule =>
    exact (evaluateRule_adds huuid engine feed ctxCorrelationId rule w).moved hsound
  | setSurroundings s =>
    have hadds : Adds lib.toRuntime w (apply lib w (.setSurroundings s)) :=
      .of_same (le_refl _) rfl
    exact hadds.moved hsound

end Calls

theorem Sound.held {rt : Runtime} {w : World} (h : Sound rt w) {id : String}
    {record : PendingApproval} (hrecord : get w.disk.approvals id = some record) :
    Known rt w id := by
  have hid : record.id = id := KeyedList.get_key hrecord
  exact hid ▸ h.known record (KeyedList.get_mem hrecord)

/-- The approvals as records that are decided once. -/
def approvalRules (rt : Runtime) : OneWayRecords.Rules World String PendingApproval where
  lookup w id := get w.disk.approvals id
  fresh w id := ¬ Known rt w id
  isOpen record := record.status = .pending
  terms := SameTerms
  valid := Sound rt
  held _ _ _ hsound hrecord hfresh := hfresh (hsound.held hrecord)

instance (rt : Runtime) : DecidablePred (approvalRules rt).isOpen := fun record =>
  inferInstanceAs (Decidable (record.status = .pending))

theorem Move.oneWay {rt : Runtime} {w : World} {op : Op} {id : String}
    {stored stored' : Option PendingApproval} (h : Move rt w op id stored stored') :
    OneWayRecords.Move (approvalRules rt) w id stored stored' := by
  cases h with
  | kept => exact .kept _
  | created record fresh pending => exact .created record fresh pending
  | decided record record' pending decides =>
    split
    · exact .removed record pending
    · exact .decided record record' pending decides.closed decides.sameTerms

theorem op_oneWay {lib : Libraries} (huuid : Function.Injective lib.uuid4) (w : World) (op : Op)
    (hsound : Sound lib.toRuntime w) :
    (approvalRules lib.toRuntime).Step w (apply lib w op) := by
  have hmoved := op_moved huuid w op hsound
  refine ⟨hmoved.sound, ?_, fun id => (hmoved.moves id).oneWay⟩
  intro id hknown hfresh
  exact hknown fun h => hfresh (h.mono hmoved.uuids)

def decisions (rt : Runtime) (id : String)
    (ts : List (SerialRun.Transition World Op)) : Nat :=
  ts.countP (OneWayRecords.closes (approvalRules rt) id)

/-- In every run each call moves each approval as it may: no approval is decided twice, a
decided one never changes, and an identifier that has lost its record never gets another. -/
theorem approvals_decided_once (lib : Libraries) (huuid : Function.Injective lib.uuid4)
    (w : World) (hsound : Sound lib.toRuntime w) (ops : List Op) :
    (∀ t ∈ SerialRun.transitions (apply lib) w ops, ∀ id, Move lib.toRuntime t.before t.op id
      (get t.before.disk.approvals id) (get t.after.disk.approvals id)) ∧
    ∀ id, decisions lib.toRuntime id (SerialRun.transitions (apply lib) w ops) ≤ 1 ∧
      (∀ record, get w.disk.approvals id = some record →
        OneWayRecords.Left (approvalRules lib.toRuntime) w (SerialRun.final (apply lib) w ops) id
          record) ∧
      (Known lib.toRuntime w id → get w.disk.approvals id = none →
        get (SerialRun.final (apply lib) w ops).disk.approvals id = none) := by
  have hstep := @op_oneWay lib huuid
  refine ⟨?_, fun id => ⟨?_, ?_, ?_⟩⟩
  · intro t ht id
    have hbefore : Sound lib.toRuntime t.before :=
      ((SerialRun.invariant_along (C := fun _ => True) (I := Sound lib.toRuntime)
        (fun w op _ h => (op_moved huuid w op h).sound) (fun _ _ => trivial) hsound).1 t ht).1
    rw [SerialRun.after_eq ht]
    exact (op_moved huuid t.before t.op hbefore).moves id
  · exact OneWayRecords.closes_once (R := approvalRules lib.toRuntime) hstep hsound ops
  · intro record hrecord
    exact OneWayRecords.final_left (R := approvalRules lib.toRuntime) hstep hsound hrecord ops
  · intro hknown habsent
    exact OneWayRecords.final_absent (R := approvalRules lib.toRuntime) hstep hsound
      (fun hfresh => hfresh hknown) habsent ops

/-- The first of two approvals decides the proposed reminder. -/
theorem reminder_decided_once :
    decisions plainLibraries.toRuntime "1" (SerialRun.transitions (apply plainLibraries)
      (freshWorld exampleSurroundings) approvedTwice) = 1 := by
  have hsound : Sound plainLibraries.toRuntime (freshWorld exampleSurroundings) :=
    ⟨fun _ hmem => (List.not_mem_nil hmem).elim, List.nodup_nil⟩
  have honce := (approvals_decided_once plainLibraries plainLibraries_uuid4_injective
    (freshWorld exampleSurroundings) hsound approvedTwice).2 "1"
  exact Nat.le_antisymm honce.1 (by decide)

end ApprovalLifecycle
