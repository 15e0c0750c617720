import Benjamin.ApprovalStore

/-!
# The executor

`execute_step` and `execute_plan`. The trace is left out. A step ends in one of the
ways of `StepCase`; nothing else is ever written.
-/
namespace PlanExecutor

open PyBase PlanSchemas SecurityPolicy SkillRegistry AssistantState ApprovalStore Effect

def approvalPayload (rt : Runtime) (step : PlanStep) : Except PyError String :=
  if step.skillName ≠ some "reminders.create" then
    .ok ("This action will execute " ++ step.skillName.getD "None" ++ ".")
  else
    match rt.loads step.args with
    | none => .ok "This action will create a reminder."
    | some (.obj payload) =>
      let field := fun key => match payload.find? fun kv => kv.1 = key with
        | some (_, value) => rt.str value
        | none => ""
      .ok ("This action will create a reminder scheduled at " ++ field "run_at_iso" ++
        " with message '" ++ field "message" ++ "'.")
    | some _ => .error (.other "object has no attribute 'get'")

def requiresApproval (skill : Skill) (stepRequiresApproval : Bool) : Bool :=
  stepRequiresApproval || decide (skill.sideEffect = "write")

def failedStep (step : PlanStep) (error : String) : StepResult := ⟨step.id, false, none, some error⟩

def ranResult (step : PlanStep) : SkillOutcome → StepResult
  | .returned content => ⟨step.id, true, some content, none⟩
  | .raised e => failedStep step e.str

/-- `force` is the argument `force_execute_writes`. -/
def executeStep (rt : Runtime) (context : ContextPack) (registry : Registry)
    (requester : Requester) (force : Bool) (step : PlanStep) : Py StepResult :=
  match truthy step.skillName with
  | none => pure ⟨step.id, true, some ("done:" ++ step.description), none⟩
  | some skillName => do
    let policy ← Prog.read fun w : World => w.policy
    let skill ← Prog.ofExcept (registry.get skillName)
    let (scopesOk, disabled) := policy.checkScopes skill.requiredScopes
    let correlationId := (truthy (requester.get "correlation_id")).getD ""
    let source := (truthy (requester.get "source")).getD "chat"
    let extraMeta : Dict :=
      [("task_id", .str ((truthy (requester.get "task_id")).getD "")),
        ("approval_id", .str ((truthy (requester.get "approval_id")).getD ""))]
    if !scopesOk then do
      logPolicyEvent correlationId source "denied" skillName skill.requiredScopes
        policy.snapshotModel "scope_disabled" extraMeta
      pure (failedStep step ("policy_denied:" ++ ",".intercalate disabled))
    else do
      logPolicyEvent correlationId source "allowed" skillName skill.requiredScopes
        policy.snapshotModel "allowed" extraMeta
      let safeMode ← Prog.read fun w : World => w.safeMode
      if skill.sideEffect = "write" ∧ safeMode = true then
        pure (failedStep step "safe_mode_denied")
      else if requiresApproval skill step.requiresApproval && !force then do
        let payload ← Prog.ofExcept (approvalPayload rt step)
        let approval ← createPending rt .step step context requester payload registry
          (some skill.requiredScopes)
        pure (failedStep step ("approval_required:" ++ approval.id))
      else do
        let outcome ← runSkill rt skill step requester
        pure (ranResult step outcome)

def executePlan (rt : Runtime) (context : ContextPack) (registry : Registry)
    (requester : Requester) (force : Bool) : List PlanStep → Py (List StepResult)
  | [] => pure []
  | step :: rest => do
    let result ← executeStep rt context registry requester force step
    let results ← executePlan rt context registry requester force rest
    pure (result :: results)

structure Cleared (w : World) (registry : Registry) (step : PlanStep) (skill : Skill) : Prop where
  named : ∃ name, truthy step.skillName = some name ∧ registry.get name = .ok skill
  scopes : ∀ scope ∈ skill.requiredScopes, w.policy.isScopeEnabled scope = true

inductive StepCase (rt : Runtime) (registry : Registry) (requester : Requester) (force : Bool)
    (step : PlanStep) (w w' : World) : Except PyError StepResult → Prop
  | described (unnamed : truthy step.skillName = none) (quiet : Quiet w w') :
      StepCase rt registry requester force step w w'
        (.ok ⟨step.id, true, some ("done:" ++ step.description), none⟩)
  | denied (error : String)
      (why : ∀ skill, Cleared w registry step skill → skill.IsWrite ∧ w.safeMode = true)
      (quiet : Quiet w w') :
      StepCase rt registry requester force step w w' (.ok (failedStep step error))
  | failed (e : PyError) (why : ∀ skill, Cleared w registry step skill → force = false)
      (quiet : Quiet w w') :
      StepCase rt registry requester force step w w' (.error e)
  | proposed (skill : Skill) (rationale : String) (record : PendingApproval)
      (unforced : force = false) (cleared : Cleared w registry step skill)
      (created : Created rt .step step rationale registry (some skill.requiredScopes) w w' record) :
      StepCase rt registry requester force step w w'
        (.ok (failedStep step ("approval_required:" ++ record.id)))
  | ran (skill : Skill) (outcome : SkillOutcome) (cleared : Cleared w registry step skill)
      (write : skill.IsWrite → w.safeMode = false ∧ force = true)
      (wrote : Wrote (fun d => d.log (.skillRun skill step requester outcome)) w w') :
      StepCase rt registry requester force step w w' (.ok (ranResult step outcome))

theorem checkPending_congr {w w' : World} (h : w'.toSurroundings = w.toSurroundings)
    (step : PlanStep) (registry : Registry) (requiredScopes : Option (List String)) :
    checkPending w' step registry requiredScopes = checkPending w step registry requiredScopes := by
  simp only [checkPending, h]

theorem created_after_quiet {rt : Runtime} {origin : Origin} {step : PlanStep}
    {rationale : String} {registry : Registry} {requiredScopes : Option (List String)}
    {w w₁ w₂ : World} {record : PendingApproval} (h : Quiet w w₁)
    (hc : Created rt origin step rationale registry requiredScopes w₁ w₂ record) :
    Created rt origin step rationale registry requiredScopes w w₂ record := by
  obtain ⟨n, hn, hn', hid⟩ := hc.fresh
  obtain ⟨skill, hcheck⟩ := hc.checked
  exact
    { hc with
      checked := ⟨skill, (checkPending_congr h.surroundings ..) ▸ hcheck⟩
      fresh := ⟨n, h.uuids.trans hn, hn', hid⟩
      wrote := Wrote.after_quiet h hc.wrote }

/-- How a step ends, from the calls that it makes: the skill is looked up, its scopes are
checked, and what is allowed is asked for or run. -/
theorem executeStep_rule {rt : Runtime} {context : ContextPack} {registry : Registry}
    {requester : Requester} {force : Bool} {step : PlanStep} {w : World}
    {Q : Except PyError StepResult → World → Prop}
    (hunnamed : truthy step.skillName = none →
      Q (.ok ⟨step.id, true, some ("done:" ++ step.description), none⟩) w)
    (hunknown : ∀ name e, truthy step.skillName = some name → registry.get name = .error e →
      Q (.error e) w)
    (hdenied : ∀ name skill w₁, truthy step.skillName = some name →
      registry.get name = .ok skill → (w.policy.checkScopes skill.requiredScopes).1 = false →
      Quiet w w₁ → Q (.ok (failedStep step ("policy_denied:" ++
        ",".intercalate (w.policy.checkScopes skill.requiredScopes).2))) w₁)
    (hallowed : ∀ name skill w₁, truthy step.skillName = some name →
      registry.get name = .ok skill → (w.policy.checkScopes skill.requiredScopes).1 = true →
      Quiet w w₁ →
        if skill.sideEffect = "write" ∧ w.safeMode = true then
          Q (.ok (failedStep step "safe_mode_denied")) w₁
        else if requiresApproval skill step.requiresApproval && !force then
          (∀ e, approvalPayload rt step = .error e → Q (.error e) w₁) ∧
            ∀ payload, approvalPayload rt step = .ok payload →
              Ends (createPending rt .step step context requester payload registry
                (some skill.requiredScopes)) w₁ fun r w₂ =>
                  Q (r.map fun record => failedStep step ("approval_required:" ++ record.id)) w₂
        else Ends (runSkill rt skill step requester) w₁ fun r w₂ => Q (r.map (ranResult step)) w₂) :
    Ends (executeStep rt context registry requester force step) w Q := by
  rw [executeStep]
  cases hname : truthy step.skillName with
  | none => exact hunnamed hname
  | some name =>
    refine Ends.read (Ends.ofExcept ?_ fun e hget => hunknown name e hname hget)
    intro skill hget
    dsimp only
    cases hscopes : (w.policy.checkScopes skill.requiredScopes).1 with
    | false =>
      simp only [Bool.not_false, if_true]
      refine (logPolicyEvent_returns ..).bind fun _ w₁ hquiet => ?_
      exact hdenied name skill w₁ hname hget hscopes hquiet
    | true =>
      simp only [Bool.not_true, Bool.false_eq_true, if_false]
      refine (logPolicyEvent_returns ..).bind fun _ w₁ hquiet => Ends.read ?_
      have hends := hallowed name skill w₁ hname hget hscopes hquiet
      rw [hquiet.safeMode_eq]
      split_ifs at hends ⊢
      · exact hends
      · refine Ends.ofExcept ?_ hends.1
        intro payload hpayload
        exact Ends.bind (hends.2 payload hpayload) (fun _ _ h => h) fun _ _ h => h
      · exact Ends.bind hends (fun _ _ h => h) fun _ _ h => h

theorem executeStep_cases (rt : Runtime) (context : ContextPack) (registry : Registry)
    (requester : Requester) (force : Bool) (step : PlanStep) (w : World) :
    Ends (executeStep rt context registry requester force step) w
      fun r w' => StepCase rt registry requester force step w w' r := by
  have hsame : ∀ {name skill other}, truthy step.skillName = some name →
      registry.get name = .ok skill → Cleared w registry step other → skill = other := by
    rintro name skill other hname hget ⟨⟨name', hname', hget'⟩, -⟩
    cases hname.symm.trans hname'
    cases hget.symm.trans hget'
    rfl
  refine executeStep_rule ?_ ?_ ?_ ?_
  · intro hname
    exact .described hname (Quiet.refl w)
  · intro name e hname hget
    refine .failed e ?_ (Quiet.refl w)
    rintro other ⟨⟨name', hname', hget'⟩, -⟩
    cases hname.symm.trans hname'
    cases hget.symm.trans hget'
  · intro name skill w₁ hname hget hscopes hquiet
    refine .denied _ ?_ hquiet
    intro other hother
    cases hsame hname hget hother
    rw [PermissionsPolicy.checkScopes_iff.mpr hother.scopes] at hscopes
    cases hscopes
  · intro name skill w₁ hname hget hscopes hquiet
    have hcleared : Cleared w registry step skill :=
      ⟨⟨name, hname, hget⟩, PermissionsPolicy.checkScopes_iff.mp hscopes⟩
    by_cases hsafe : skill.sideEffect = "write" ∧ w.safeMode = true
    · rw [if_pos hsafe]
      refine .denied _ ?_ hquiet
      intro other hother
      cases hsame hname hget hother
      exact hsafe
    · rw [if_neg hsafe]
      by_cases hasks : (requiresApproval skill step.requiresApproval && !force) = true
      · rw [if_pos hasks]
        have hunforced : force = false := by simp_all
        refine ⟨fun e _ => .failed e (fun _ _ => hunforced) hquiet, fun payload _ => ?_⟩
        refine (createPending_ends rt .step step context requester payload registry
          (some skill.requiredScopes) w₁).mono ?_
        rintro (e | record) w₂ ⟨-, hends⟩
        · exact .failed e (fun _ _ => hunforced) (quiet_chains.trans hquiet hends)
        · exact .proposed skill payload record hunforced hcleared
            (created_after_quiet hquiet hends)
      · rw [if_neg hasks]
        refine (runSkill_returns rt skill step requester w₁).ends fun outcome w₂ hwrote => ?_
        refine .ran skill outcome hcleared ?_ (Wrote.after_quiet hquiet hwrote)
        intro hwrite
        have hside : skill.sideEffect = "write" := hwrite
        simp_all [requiresApproval]

theorem StepCase.surroundings {rt : Runtime} {registry : Registry} {requester : Requester}
    {force : Bool} {step : PlanStep} {w w' : World} {r : Except PyError StepResult}
    (h : StepCase rt registry requester force step w w' r) :
    w'.toSurroundings = w.toSurroundings := by
  cases h with
  | described _ quiet => exact quiet.surroundings
  | denied _ _ quiet => exact quiet.surroundings
  | failed _ _ quiet => exact quiet.surroundings
  | proposed _ _ _ _ _ created => exact created.wrote.surroundings
  | ran _ _ _ _ wrote => exact wrote.surroundings

theorem executePlan_single (rt : Runtime) (context : ContextPack) (registry : Registry)
    (requester : Requester) (force : Bool) (step : PlanStep) (w : World) :
    Ends (executePlan rt context registry requester force [step]) w fun r w' =>
      match r with
      | .ok results => ∃ result, results = [result] ∧
          StepCase rt registry requester force step w w' (.ok result)
      | .error e => StepCase rt registry requester force step w w' (.error e) := by
  refine Ends.bind (executeStep_cases rt context registry requester force step w) ?_ ?_
  · intro result w' hcase
    exact ⟨result, rfl, hcase⟩
  · intro e w' hcase
    exact hcase

end PlanExecutor
