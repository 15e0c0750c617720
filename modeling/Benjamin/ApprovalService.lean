import Benjamin.PlanExecutor

/-!
# Approving and rejecting

`approve` and `reject` with their helpers, cut where the source branches. A call of
`approve` ends in one of the ways of `ApproveCase`.
-/
namespace ApprovalService

open PyBase ExecutionLedger PlanSchemas SecurityPolicy SkillRegistry AssistantState ApprovalStore
  PlanExecutor LedgerKeys Effect

def duplicateResult (step : PlanStep) : StepResult :=
  ⟨step.id, true, some r#"{"skipped":true,"reason":"idempotent_duplicate"}"#, none⟩

def skillLabel (step : PlanStep) : String := step.skillName.getD "None"

def optional (s : Option String) : Json := (s.map Json.str).getD .null

/-- What `_persist_or_clean` does to the store. -/
def persisted (autoclean : Bool) (record : PendingApproval) (d : Stores) : Stores :=
  { d with
    approvals :=
      if autoclean = true ∧ record.status ≠ .pending then delete record.id d.approvals
      else upsert record d.approvals }

theorem get_persisted_self (autoclean : Bool) (record : PendingApproval) (d : Stores) :
    get (persisted autoclean record d).approvals record.id =
      if autoclean = true ∧ record.status ≠ .pending then none else some record := by
  rw [persisted]
  dsimp only
  split
  · exact KeyedList.get_delete_self record.id d.approvals
  · exact KeyedList.get_upsert_self record d.approvals

theorem get_persisted_ne (autoclean : Bool) {record : PendingApproval} {id : String}
    (h : record.id ≠ id) (d : Stores) :
    get (persisted autoclean record d).approvals id = get d.approvals id := by
  rw [persisted]
  dsimp only
  split
  · exact KeyedList.get_delete_ne h d.approvals
  · exact KeyedList.get_upsert_ne h d.approvals

def persistOrClean (record : PendingApproval) : Py Unit := fun w =>
  (.ok (), w.writeStores (persisted w.autoclean record))

def executionKey (rt : Runtime) (record : PendingApproval) : String :=
  approvalExecutionKey rt record.id record.step

def executionMeta (record : PendingApproval) : Dict :=
  [("approval_id", .str record.id), ("skill_name", optional record.step.skillName)]

def executionRequester (record : PendingApproval) (approverNote : Option String)
    (correlationId : String) : Requester :=
  [("source", some "approval"), ("approval_id", some record.id), ("approver_note", approverNote),
    ("correlation_id", some correlationId)]

def withCorrelation (record : PendingApproval) (correlationId : String) : PendingApproval :=
  { record with requester := record.requester.set "correlation_id" correlationId }

def withSnapshot (policy : PermissionsPolicy) (record : PendingApproval) : PendingApproval :=
  { record with policySnapshotAtApprove := some policy.snapshotModel }

def skippedRecord (record : PendingApproval) (correlationId : String) : PendingApproval :=
  withCorrelation
    { record with
      status := .approved
      result := some (duplicateResult record.step)
      error := none } correlationId

def executedRecord (record : PendingApproval) (result : StepResult) (correlationId : String) :
    PendingApproval :=
  withCorrelation
    { record with
      status := .approved
      result := some result
      error := result.error } correlationId

def markExecution (key : String) (result : StepResult) : Py Unit :=
  if result.ok then ledgerMark key .succeeded []
  else ledgerMark key .failed
    [("error", .str ((truthy result.error).getD "execution_failed"))]

/-- The part of `approve` after every check has passed. -/
def executeApproved (rt : Runtime) (approverNote : Option String) (registry : Registry)
    (correlationId : String) (record : PendingApproval) : Py PendingApproval := do
  let key := executionKey rt record
  let started ← ledgerTryStart key .approvalExec (some correlationId) (executionMeta record)
  if !started then do
    appendEpisode "approval" ("Skipped duplicate approval for " ++ skillLabel record.step)
      [("approval_id", .str record.id), ("step_id", .str record.step.id), ("ok", .bool true),
        ("approver_note", optional approverNote), ("correlation_id", .str correlationId),
        ("skipped", .bool true), ("reason", .str "idempotent_duplicate")]
    persistOrClean (skippedRecord record correlationId)
    pure (skippedRecord record correlationId)
  else do
    let results ← executePlan rt record.context registry
      (executionRequester record approverNote correlationId) true [record.step]
    match results with
    | [] => Prog.raise (.other "list index out of range")
    | result :: _ => do
      markExecution key result
      appendEpisode "approval" ("Approved and executed " ++ skillLabel record.step)
        [("approval_id", .str record.id), ("step_id", .str record.step.id), ("ok", .bool result.ok),
          ("approver_note", optional approverNote), ("correlation_id", .str correlationId)]
      persistOrClean (executedRecord record result correlationId)
      pure (executedRecord record result correlationId)

def remediation : String :=
  "Policy denied at approval time. Required scopes are disabled. " ++
    "Go to /ui/scopes or use POST /v1/security/scopes/enable."

def policyError (disabled : List String) : String :=
  "policy_denied:" ++ ",".intercalate disabled ++ " | " ++ remediation

def logDecision (record : PendingApproval) (policy : PermissionsPolicy) (correlationId decision
    reason : String) : Py Unit :=
  logPolicyEvent correlationId "approval" decision ((truthy record.step.skillName).getD "unknown")
    record.requiredScopes policy.snapshotModel reason
    [("approval_id", .str record.id),
      ("task_id", .str ((truthy (record.requester.get "task_id")).getD ""))]

def approvePending (rt : Runtime) (approverNote : Option String) (registry : Registry)
    (record : PendingApproval) : Py PendingApproval := do
  let safeMode ← Prog.read fun w : World => w.safeMode
  if safeMode then do
    let correlationId ← Prog.read fun w : World => (truthy w.correlationId).getD ""
    appendEpisode "policy" ("Safe mode blocked approval execution for " ++ skillLabel record.step)
      [("approval_id", .str record.id), ("step_id", .str record.step.id),
        ("correlation_id", .str correlationId)]
    Prog.raise (.httpException 409 "Safe mode enabled; approval execution is disabled")
  else do
    let expired ← Prog.ask fun w => isExpired rt w.now record
    if expired then do
      persistOrClean { record with status := .expired, error := some "approval expired" }
      Prog.raise (.httpException 400 "approval expired")
    else do
      let policy ← Prog.read fun w : World => w.policy
      let correlationId ← resolveCorrelation rt record.requester
      let snapshot := withSnapshot policy record
      let (scopesOk, disabled) := policy.checkScopes record.requiredScopes
      if !scopesOk then do
        appendEpisode "approval" ("Rejected " ++ skillLabel record.step ++ " due to policy")
          [("approval_id", .str record.id), ("step_id", .str record.step.id),
            ("disabled_scopes", strings disabled), ("correlation_id", .str correlationId)]
        logDecision snapshot policy correlationId "denied" "scope_disabled"
        persistOrClean { snapshot with status := .rejected, error := some (policyError disabled) }
        Prog.raise (.httpException 400 (policyError disabled))
      else do
        logDecision snapshot policy correlationId "allowed" "allowed"
        executeApproved rt approverNote registry correlationId snapshot

def approve (rt : Runtime) (id : String) (approverNote : Option String) (registry : Registry) :
    Py PendingApproval := do
  let stored ← Prog.read fun w : World => get w.disk.approvals id
  match stored with
  | none => Prog.raise (.httpException 404 "approval not found")
  | some record =>
    match record.status with
    | .approved => pure { record with result := some (duplicateResult record.step) }
    | .rejected | .expired =>
      Prog.raise (.httpException 400 ("approval is " ++ record.status.str))
    | .pending => approvePending rt approverNote registry record

def reject (rt : Runtime) (id : String) (reason : Option String) : Py PendingApproval := do
  let stored ← Prog.read fun w : World => get w.disk.approvals id
  match stored with
  | none => Prog.raise (.httpException 404 "approval not found")
  | some record =>
    if record.status ≠ .pending then
      Prog.raise (.httpException 400 ("approval is " ++ record.status.str))
    else do
      let expired ← Prog.ask fun w => isExpired rt w.now record
      if expired then do
        persistOrClean { record with status := .expired, error := some "approval expired" }
        Prog.raise (.httpException 400 "approval expired")
      else do
        let correlationId ← resolveCorrelation rt record.requester
        appendEpisode "approval" ("Rejected " ++ skillLabel record.step)
          [("approval_id", .str record.id), ("reason", optional reason),
            ("correlation_id", .str correlationId)]
        let rejected := withCorrelation { record with status := .rejected, error := reason }
          correlationId
        persistOrClean rejected
        pure rejected

/-- The record passed every check of `approve`. -/
structure Passed (rt : Runtime) (w : World) (id : String) (record : PendingApproval) : Prop where
  stored : get w.disk.approvals id = some record
  pending : record.status = .pending
  unsafe_off : w.safeMode = false
  unexpired : isExpired rt w.now record = .ok false
  scopes : ∀ scope ∈ record.requiredScopes, w.policy.isScopeEnabled scope = true

def startedExecution (rt : Runtime) (s : Surroundings) (record : PendingApproval)
    (correlationId : String) : Stores → Stores :=
  startKey s (executionKey rt record) .approvalExec (some correlationId) (executionMeta record)

def markedExecution (s : Surroundings) (key : String) (result : StepResult) : Stores → Stores :=
  if result.ok then markKey s key .succeeded []
  else markKey s key .failed [("error", .str ((truthy result.error).getD "execution_failed"))]

theorem markedExecution_frame (s : Surroundings) (key : String) (result : StepResult)
    (d : Stores) :
    (markedExecution s key result d).events = d.events ∧
      (markedExecution s key result d).approvals = d.approvals := by
  rw [markedExecution]
  split <;> exact ⟨rfl, rfl⟩

/-- The stores change by `f`; the surroundings do not. -/
structure Became (f : Stores → Stores) (w w' : World) : Prop where
  surroundings : w'.toSurroundings = w.toSurroundings
  uuids : w.uuids ≤ w'.uuids
  stores : w'.disk.toStores = f w.disk.toStores

theorem Became.of_wrote {f : Stores → Stores} {w w' : World} (h : Wrote f w w') : Became f w w' :=
  ⟨h.surroundings, h.uuids, h.stores⟩

theorem Became.then {f g : Stores → Stores} {w w₁ w₂ : World} (h : Became f w w₁)
    (h' : Became g w₁ w₂) : Became (g ∘ f) w w₂ :=
  ⟨h'.surroundings.trans h.surroundings, h.uuids.trans h'.uuids, by
    rw [h'.stores, h.stores, Function.comp_apply]⟩

def Correlated (record : PendingApproval) (correlationId : String) : Prop :=
  ∃ other, correlationId = (truthy (record.requester.get "correlation_id")).getD other

inductive ApproveCase (rt : Runtime) (approverNote : Option String) (registry : Registry)
    (id : String) (w w' : World) : Except PyError PendingApproval → Prop
  | declined (e : PyError) (why : ∀ record, ¬ Passed rt w id record) (quiet : Quiet w w') :
      ApproveCase rt approverNote registry id w w' (.error e)
  | duplicate (record : PendingApproval) (stored : get w.disk.approvals id = some record)
      (approved : record.status = .approved) (quiet : Quiet w w') :
      ApproveCase rt approverNote registry id w w'
        (.ok { record with result := some (duplicateResult record.step) })
  | closed (record record' : PendingApproval) (e : PyError)
      (stored : get w.disk.approvals id = some record) (pending : record.status = .pending)
      (same : record'.id = record.id ∧ record'.step = record.step)
      (status : record'.status = .expired ∨ record'.status = .rejected)
      (why : ¬ Passed rt w id record)
      (became : Became (persisted w.autoclean record') w w') :
      ApproveCase rt approverNote registry id w w' (.error e)
  | skipped (record : PendingApproval) (correlationId : String) (passed : Passed rt w id record)
      (correlated : Correlated record correlationId)
      (refused : refused w.disk.ledger (executionKey rt record) = true)
      (became : Became (persisted w.autoclean
        (skippedRecord (withSnapshot w.policy record) correlationId)) w w') :
      ApproveCase rt approverNote registry id w w'
        (.ok (skippedRecord (withSnapshot w.policy record) correlationId))
  | aborted (record : PendingApproval) (e : PyError) (correlationId : String)
      (passed : Passed rt w id record)
      (admitted : ExecutionLedger.refused w.disk.ledger (executionKey rt record) = false)
      (why : ∀ skill, ¬ Cleared w registry record.step skill)
      (became : Became (startedExecution rt w.toSurroundings record correlationId) w w') :
      ApproveCase rt approverNote registry id w w' (.error e)
  | executed (record : PendingApproval) (correlationId : String) (result : StepResult)
      (w₁ w₂ : World) (passed : Passed rt w id record)
      (correlated : Correlated record correlationId)
      (admitted : ExecutionLedger.refused w.disk.ledger (executionKey rt record) = false)
      (started : Became (startedExecution rt w.toSurroundings record correlationId) w w₁)
      (ran : StepCase rt registry (executionRequester record approverNote correlationId) true
        record.step w₁ w₂ (.ok result))
      (finished : Became (persisted w.autoclean
          (executedRecord (withSnapshot w.policy record) result correlationId) ∘
        markedExecution w.toSurroundings (executionKey rt record) result) w₂ w') :
      ApproveCase rt approverNote registry id w w'
        (.ok (executedRecord (withSnapshot w.policy record) result correlationId))

theorem Became.congr {f g : Stores → Stores} {w w' : World} (h : Became f w w')
    (hfg : f w.disk.toStores = g w.disk.toStores) : Became g w w' :=
  ⟨h.surroundings, h.uuids, h.stores.trans hfg⟩

theorem Became.then_quiet {f : Stores → Stores} {w w₁ w₂ : World} (h : Became f w w₁)
    (h' : Quiet w₁ w₂) : Became f w w₂ :=
  ⟨h'.surroundings.trans h.surroundings, h.uuids.trans h'.uuids, h'.stores_eq.trans h.stores⟩

theorem became_id {w w' : World} (h : Quiet w w') : Became id w w' := .of_wrote h

theorem started_becomes (rt : Runtime) (record : PendingApproval) (correlationId : String)
    (w : World) :
    Returns (ledgerTryStart (executionKey rt record) .approvalExec (some correlationId)
        (executionMeta record)) w fun started w' =>
      started = (!refused w.disk.ledger (executionKey rt record)) ∧
        Became (startedExecution rt w.toSurroundings record correlationId) w w' :=
  ⟨_, _, rfl, tryStart_result, .of_wrote (wrote_writeStores _ w)⟩

theorem marked_becomes (key : String) (result : StepResult) (w : World) :
    Returns (markExecution key result) w fun _ w' =>
      Became (markedExecution w.toSurroundings key result) w w' := by
  rw [markExecution, markedExecution]
  split <;> exact ⟨_, _, rfl, .of_wrote (wrote_writeStores _ w)⟩

theorem persistOrClean_becomes (record : PendingApproval) (w : World) :
    Returns (persistOrClean record) w fun _ w' => Became (persisted w.autoclean record) w w' :=
  ⟨_, _, rfl, .of_wrote (wrote_writeStores _ w)⟩

theorem Became.autoclean_eq {f : Stores → Stores} {w w' : World} (h : Became f w w') :
    w'.autoclean = w.autoclean := congrArg Surroundings.autoclean h.surroundings

section Cases

variable (rt : Runtime) (approverNote : Option String) (registry : Registry)

theorem executeApproved_cases (correlationId : String) {approvalId : String}
    {record : PendingApproval} {w w₀ : World} (hcorrelated : Correlated record correlationId)
    (hquiet : Quiet w w₀)
    (hpassed : Passed rt w approvalId record) :
    Ends (executeApproved rt approverNote registry correlationId (withSnapshot w.policy record)) w₀
      fun r w' => ApproveCase rt approverNote registry approvalId w w' r := by
  have hledger : w₀.disk.ledger = w.disk.ledger := hquiet.ledger_eq
  rw [executeApproved]
  refine (started_becomes rt _ correlationId w₀).bind fun started w₁ ⟨hstarted, hbecame⟩ => ?_
  have hstart : Became (startedExecution rt w.toSurroundings record correlationId) w w₁ := by
    have := (became_id hquiet).then hbecame
    rwa [hquiet.surroundings, Function.comp_id] at this
  have hstarted' : started = !refused w.disk.ledger (executionKey rt record) := by
    rw [← hledger]; exact hstarted
  cases href : refused w.disk.ledger (executionKey rt record) with
  | true =>
    simp only [hstarted', href, Bool.not_true, Bool.not_false, if_true]
    refine (appendEpisode_returns ..).bind fun _ w₂ hquiet₂ => ?_
    refine (persistOrClean_becomes _ w₂).bind fun _ w₃ hpersist => ?_
    refine .skipped record correlationId hpassed hcorrelated href ?_
    rw [hquiet₂.autoclean_eq, hstart.autoclean_eq] at hpersist
    refine ((hstart.then_quiet hquiet₂).then hpersist).congr ?_
    have hunchanged : startedExecution rt w.toSurroundings record correlationId w.disk.toStores =
        w.disk.toStores := startKey_refused href
    rw [Function.comp_apply, hunchanged]
  | false =>
    simp only [hstarted', href, Bool.not_false, Bool.not_true, Bool.false_eq_true, if_false]
    refine Ends.bind (executePlan_single rt record.context registry _ true record.step w₁) ?_ ?_
    · rintro results w₂ ⟨result, rfl, hcase⟩
      have hsame : w₂.toSurroundings = w.toSurroundings :=
        hcase.surroundings.trans hstart.surroundings
      refine (marked_becomes _ result w₂).bind fun _ w₃ hmarked => ?_
      refine (appendEpisode_returns ..).bind fun _ w₄ hquiet₄ => ?_
      refine (persistOrClean_becomes _ w₄).bind fun _ w₅ hpersist => ?_
      refine .executed record correlationId result w₁ w₂ hpassed hcorrelated href hstart hcase ?_
      have hauto : w₄.autoclean = w.autoclean := by
        rw [hquiet₄.autoclean_eq, hmarked.autoclean_eq, hsame]
      rw [hauto] at hpersist
      rw [hsame] at hmarked
      exact (hmarked.then_quiet hquiet₄).then hpersist
    · intro e w₂ hcase
      cases hcase with
      | failed e why hquiet₂ =>
        refine .aborted record e correlationId hpassed href ?_ (hstart.then_quiet hquiet₂)
        intro skill hcleared
        have := why skill ⟨hcleared.named, (congrArg Surroundings.policy hstart.surroundings) ▸
          hcleared.scopes⟩
        cases this

theorem approvePending_cases {approvalId : String} {record : PendingApproval} {w : World}
    (hstored : get w.disk.approvals approvalId = some record)
    (hpending : record.status = .pending) :
    Ends (approvePending rt approverNote registry record) w
      fun r w' => ApproveCase rt approverNote registry approvalId w w' r := by
  have hsame : ∀ {other}, Passed rt w approvalId other → other = record := fun h =>
    Option.some.inj (h.stored.symm.trans hstored)
  rw [approvePending]
  refine Ends.read ?_
  cases hsafe : w.safeMode with
  | true =>
    simp only [if_true]
    refine Ends.read ?_
    refine (appendEpisode_returns ..).bind fun _ w₁ hquiet => ?_
    refine .declined _ ?_ hquiet
    intro other hpassed
    cases hsafe.symm.trans hpassed.unsafe_off
  | false =>
    simp only [Bool.false_eq_true, if_false]
    refine Ends.ask ?_ ?_
    · intro expired hexpired
      cases expired with
      | true =>
        simp only [if_true]
        refine (persistOrClean_becomes _ w).bind fun _ w₁ hpersist => ?_
        refine .closed record _ _ hstored hpending ?_ ?_ ?_ hpersist
        · exact ⟨rfl, rfl⟩
        · exact Or.inl rfl
        · intro hpassed
          cases hexpired.symm.trans hpassed.unexpired
      | false =>
        simp only [Bool.false_eq_true, if_false]
        refine Ends.read ?_
        refine (resolveCorrelation_returns ..).bind
          fun correlationId w₁ ⟨hcorrelated, hquiet⟩ => ?_
        by_cases hscopes : (w.policy.checkScopes record.requiredScopes).1 = true
        · simp only [hscopes, Bool.not_true, Bool.false_eq_true, if_false]
          refine (logPolicyEvent_returns ..).bind fun _ w₂ hquiet₂ => ?_
          exact executeApproved_cases rt approverNote registry correlationId hcorrelated
            (quiet_chains.trans hquiet hquiet₂)
            ⟨hstored, hpending, hsafe, hexpired, PermissionsPolicy.checkScopes_iff.mp hscopes⟩
        · simp only [hscopes, Bool.not_false, if_true]
          refine (appendEpisode_returns ..).bind fun _ w₂ hquiet₂ => ?_
          refine (logPolicyEvent_returns ..).bind fun _ w₃ hquiet₃ => ?_
          refine (persistOrClean_becomes _ w₃).bind fun _ w₄ hpersist => ?_
          have hq : Quiet w w₃ := quiet_chains.trans (quiet_chains.trans hquiet hquiet₂) hquiet₃
          have hbecame := (became_id hq).then hpersist
          rw [Function.comp_id, hq.autoclean_eq] at hbecame
          refine .closed record _ _ hstored hpending ?_ ?_ ?_ hbecame
          · exact ⟨rfl, rfl⟩
          · exact Or.inr rfl
          · intro hpassed
            exact hscopes (PermissionsPolicy.checkScopes_iff.mpr hpassed.scopes)
    · intro e hexpired
      refine .declined e ?_ (Quiet.refl w)
      intro other hpassed
      cases hsame hpassed
      cases hexpired.symm.trans hpassed.unexpired

theorem approve_cases (approvalId : String) (w : World) :
    Ends (approve rt approvalId approverNote registry) w
      fun r w' => ApproveCase rt approverNote registry approvalId w w' r := by
  rw [approve]
  refine Ends.read ?_
  cases hstored : get w.disk.approvals approvalId with
  | none =>
    refine .declined _ ?_ (Quiet.refl w)
    intro record hpassed
    cases hstored.symm.trans hpassed.stored
  | some record =>
    have hpassed : ∀ {other}, Passed rt w approvalId other → record.status = .pending := by
      intro other h
      cases hstored.symm.trans h.stored
      exact h.pending
    dsimp only
    split
    · rename_i hstatus
      exact .duplicate record hstored hstatus (Quiet.refl w)
    · rename_i hstatus
      exact .declined _ (fun _ h => by cases hstatus.symm.trans (hpassed h)) (Quiet.refl w)
    · rename_i hstatus
      exact .declined _ (fun _ h => by cases hstatus.symm.trans (hpassed h)) (Quiet.refl w)
    · rename_i hstatus
      exact approvePending_cases rt approverNote registry hstored hstatus

end Cases

inductive RejectCase (rt : Runtime) (id : String) (reason : Option String) (w w' : World) :
    Except PyError PendingApproval → Prop
  | declined (e : PyError) (why : ∀ record, get w.disk.approvals id = some record →
        record.status = .pending → isExpired rt w.now record ≠ .ok false) (quiet : Quiet w w') :
      RejectCase rt id reason w w' (.error e)
  | closed (record record' : PendingApproval) (e : PyError)
      (stored : get w.disk.approvals id = some record) (pending : record.status = .pending)
      (same : record'.id = record.id ∧ record'.step = record.step)
      (due : isExpired rt w.now record = .ok true) (expired : record'.status = .expired)
      (became : Became (persisted w.autoclean record') w w') :
      RejectCase rt id reason w w' (.error e)
  | rejected (record : PendingApproval) (correlationId : String)
      (stored : get w.disk.approvals id = some record) (pending : record.status = .pending)
      (correlated : Correlated record correlationId)
      (unexpired : isExpired rt w.now record = .ok false)
      (became : Became (persisted w.autoclean (withCorrelation
        { record with status := .rejected, error := reason } correlationId)) w w') :
      RejectCase rt id reason w w' (.ok (withCorrelation
        { record with status := .rejected, error := reason } correlationId))

theorem reject_cases (rt : Runtime) (approvalId : String) (reason : Option String) (w : World) :
    Ends (reject rt approvalId reason) w fun r w' => RejectCase rt approvalId reason w w' r := by
  rw [reject]
  refine Ends.read ?_
  cases hstored : get w.disk.approvals approvalId with
  | none =>
    refine .declined _ ?_ (Quiet.refl w)
    intro other hother
    cases hstored.symm.trans hother
  | some record =>
    by_cases hpending : record.status = .pending
    · simp only [hpending, ne_eq, not_true_eq_false, if_false]
      refine Ends.ask ?_ ?_
      · intro expired hexpired
        cases expired with
        | true =>
          simp only [if_true]
          refine (persistOrClean_becomes _ w).bind fun _ w₁ hpersist => ?_
          refine .closed record _ _ hstored hpending ?_ hexpired ?_ hpersist
          · exact ⟨rfl, rfl⟩
          · rfl
        | false =>
          simp only [Bool.false_eq_true, if_false]
          refine (resolveCorrelation_returns ..).bind
            fun correlationId w₁ ⟨hcorrelated, hquiet⟩ => ?_
          refine (appendEpisode_returns ..).bind fun _ w₂ hquiet₂ => ?_
          refine (persistOrClean_becomes _ w₂).bind fun _ w₃ hpersist => ?_
          have hq : Quiet w w₂ := quiet_chains.trans hquiet hquiet₂
          have hbecame := (became_id hq).then hpersist
          rw [Function.comp_id, hq.autoclean_eq] at hbecame
          exact .rejected record correlationId hstored hpending hcorrelated hexpired hbecame
      · intro e hexpired
        refine .declined e ?_ (Quiet.refl w)
        intro other hother _ hunexpired
        cases hstored.symm.trans hother
        cases hexpired.symm.trans hunexpired
    · simp only [ne_eq, hpending, not_false_eq_true, if_true]
      refine .declined _ ?_ (Quiet.refl w)
      intro other hother hother'
      cases hstored.symm.trans hother
      exact absurd hother' hpending

/-- What is left of a record after a cleanup. -/
def afterCleanup (rt : Runtime) (autoclean : Bool) (now : Int) (record : PendingApproval) :
    Option PendingApproval :=
  match staleRecord rt now record with
  | .ok true => cleaned autoclean record
  | _ => some record

theorem afterCleanup_cases {rt : Runtime} {autoclean : Bool} {now : Int}
    {record record' : PendingApproval} (h : afterCleanup rt autoclean now record = some record') :
    record' = record ∨ record' = { record with status := .expired } := by
  rw [afterCleanup, cleaned] at h
  split at h
  · split at h <;> cases h
    exact Or.inr rfl
  · cases h
    exact Or.inl rfl

theorem afterCleanup_id {rt : Runtime} {autoclean : Bool} {now : Int}
    (record record' : PendingApproval) (h : afterCleanup rt autoclean now record = some record') :
    record'.id = record.id := by
  rcases afterCleanup_cases h with rfl | rfl <;> rfl

theorem afterCleanup_closed (rt : Runtime) (autoclean : Bool) (now : Int)
    {record : PendingApproval} (h : record.status ≠ .pending) :
    afterCleanup rt autoclean now record = some record := by
  simp [afterCleanup, staleRecord, h]

theorem cleanupRecords_eq {rt : Runtime} {autoclean : Bool} {now : Int}
    {records rewritten : List PendingApproval} {changed : Nat}
    (h : cleanupRecords rt autoclean now records = .ok (changed, rewritten)) :
    rewritten = records.filterMap (afterCleanup rt autoclean now) ∧
      (changed = 0 → rewritten = records) := by
  induction records generalizing changed rewritten with
  | nil =>
    cases h
    exact ⟨rfl, fun _ => rfl⟩
  | cons record rest ih =>
    rw [cleanupRecords] at h
    cases hstale : staleRecord rt now record with
    | error e => simp [hstale] at h
    | ok stale =>
      cases hrest : cleanupRecords rt autoclean now rest with
      | error e => simp [hstale, hrest] at h
      | ok answer =>
        obtain ⟨changed', rewritten'⟩ := answer
        obtain ⟨hrewritten, hzero⟩ := ih hrest
        cases stale with
        | true =>
          simp only [hstale, hrest, if_true, Except.ok.injEq, Prod.mk.injEq] at h
          obtain ⟨rfl, rfl⟩ := h
          refine ⟨?_, by omega⟩
          cases hclean : cleaned autoclean record <;>
            simp [afterCleanup, hstale, hclean, hrewritten]
        | false =>
          simp only [hstale, hrest, Bool.false_eq_true, if_false, Except.ok.injEq,
            Prod.mk.injEq] at h
          obtain ⟨rfl, rfl⟩ := h
          refine ⟨?_, fun hz => by rw [hzero hz]⟩
          simp [afterCleanup, hstale, hrewritten]

theorem cleanupExpired_becomes (rt : Runtime) (w : World) :
    Ends (cleanupExpired rt) w fun _ w' => w' = w ∨
      Became (fun d => { d with
        approvals := d.approvals.filterMap (afterCleanup rt w.autoclean w.now) }) w w' := by
  rw [Ends, cleanupExpired]
  split
  · exact Or.inl rfl
  · exact Or.inl rfl
  · rename_i changed rewritten _ hok
    right
    have hwrote := wrote_writeStores (fun d => { d with approvals := rewritten }) w
    exact (Became.of_wrote hwrote).congr (by rw [(cleanupRecords_eq hok).1])

end ApprovalService
