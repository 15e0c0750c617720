import Mathlib.Data.List.Forall2
import Benjamin.Orchestrator
import Benjamin.ReminderSkill

/-!
# One result a step

How an accepted plan is executed for the chat. Every step has a fate that the world
before the request and the plan decide: it leaves no trace in the stores, asks for an
approval, runs its skill or raises.
-/
namespace PlanResults

open PyBase PlanSchemas SecurityPolicy SkillRegistry AssistantState ApprovalStore PlanExecutor
  PlanCritic PlanReview Planner Orchestration Effect

inductive Fate where
  | quiet | asks | raises | runs
  deriving DecidableEq, Repr

def expiryExists (w : World) : Bool :=
  match w.ttlHours with
  | .ok hours =>
    match addHours w.now hours with
    | .ok _ => true
    | .error _ => false
  | .error _ => false

/-- The fate of a step of the skill whose scopes are enabled. -/
def skillFate (w : World) (skill : Skill) (requiresApproval : Bool) : Fate :=
  if skill.sideEffect = "write" then
    if w.safeMode then .quiet else if expiryExists w then .asks else .raises
  else if requiresApproval then .raises
  else .runs

def stepFate (w : World) (registry : Registry) (step : PlanStep) : Fate :=
  match truthy step.skillName with
  | none => .quiet
  | some name =>
    match registry.get name with
    | .error _ => .raises
    | .ok skill =>
      if (w.policy.checkScopes skill.requiredScopes).1 then
        skillFate w skill step.requiresApproval
      else .quiet

inductive Fared (rt : Runtime) (registry : Registry) (requester : Requester) (step : PlanStep)
    (w w' : World) : Fate → Except PyError StepResult → Prop
  | quiet (result : StepResult) (named : result.stepId = step.id)
      (unasked : createdId result = none) (quiet : Quiet w w') :
      Fared rt registry requester step w w' .quiet (.ok result)
  | asks (skill : Skill) (rationale : String) (record : PendingApproval)
      (created : Created rt .step step rationale registry (some skill.requiredScopes) w w' record) :
      Fared rt registry requester step w w' .asks
        (.ok (failedStep step (approvalMarker ++ record.id)))
  | raises (e : PyError) : Fared rt registry requester step w w' .raises (.error e)
  | runs (skill : Skill)
      (wrote : Wrote (fun d => d.log (.skillRun skill step requester
        (rt.skillRun w.disk.events.length))) w w') :
      Fared rt registry requester step w w' .runs
        (.ok (ranResult step (rt.skillRun w.disk.events.length)))

theorem expiryExists_iff {w : World} :
    expiryExists w = true ↔
      ∃ ttlHours expiresAt, w.ttlHours = .ok ttlHours ∧
      addHours w.now ttlHours = .ok expiresAt := by
  rw [expiryExists]
  cases w.ttlHours with
  | error e => simp
  | ok hours => cases hadd : addHours w.now hours <;> simp [hadd]

def ReadableReminder (rt : Runtime) (step : PlanStep) : Prop :=
  step.skillName = some "reminders.create" → ∃ payload, rt.loads step.args = some (.obj payload)

theorem approvalPayload_ok {rt : Runtime} {step : PlanStep} (h : ReadableReminder rt step) :
    ∃ rationale, approvalPayload rt step = .ok rationale := by
  rw [approvalPayload]
  by_cases hskill : step.skillName = some "reminders.create"
  · obtain ⟨payload, hloads⟩ := h hskill
    rw [if_neg (not_not.mpr hskill), hloads]
    exact ⟨_, rfl⟩
  · rw [if_pos hskill]
    exact ⟨_, rfl⟩

theorem truthy_some (s : String) : truthy (some s) = if s = "" then none else some s := by
  by_cases h : s = "" <;> simp [truthy, Option.filter, h]

theorem createdId_failed (step : PlanStep) {error : String}
    (h : startsWith approvalMarker error = false) : createdId (failedStep step error) = none := by
  rw [createdId, failedStep, truthy_some]
  by_cases hempty : error = "" <;> simp [hempty, h]

theorem createdId_denied (step : PlanStep) (reason : String) :
    createdId (failedStep step ("policy_denied:" ++ reason)) = none := by
  apply createdId_failed
  rw [startsWith, String.toList_append]
  rfl

section Steps

variable {rt : Runtime} {registry : Registry} {requester : Requester} {step : PlanStep}

theorem creatable_iff {w : World} {name : String} {skill : Skill}
    (hname : truthy step.skillName = some name) (hget : registry.get name = .ok skill)
    (hscopes : (w.policy.checkScopes skill.requiredScopes).1 = true) :
    Creatable w step registry (some skill.requiredScopes) ↔
      w.safeMode = false ∧ skill.IsWrite ∧ expiryExists w = true := by
  rw [expiryExists_iff]
  rw [Creatable]
  constructor
  · rintro ⟨⟨⟨other, scopes⟩, hcheck⟩, hexpiry⟩
    obtain ⟨⟨name', hname', hget'⟩, hsafe, hwrite, -⟩ := checkPending_ok.mp hcheck
    cases hname.symm.trans hname'
    cases hget.symm.trans hget'
    exact ⟨hsafe, hwrite, hexpiry⟩
  · rintro ⟨hsafe, hwrite, hexpiry⟩
    refine ⟨⟨(skill, skill.requiredScopes), checkPending_ok.mpr
      ⟨⟨name, hname, hget⟩, hsafe, hwrite, (approvalScopes_registered hget).symm, ?_⟩⟩, hexpiry⟩
    exact PermissionsPolicy.checkScopes_iff.mp hscopes

theorem runSkill_outcome (rt : Runtime) (skill : Skill) (step : PlanStep) (requester : Requester)
    (w : World) :
    Returns (runSkill rt skill step requester) w fun outcome w' =>
      outcome = rt.skillRun w.disk.events.length ∧
        Wrote (fun d => d.log (.skillRun skill step requester outcome)) w w' :=
  ⟨_, _, rfl, rfl, wrote_writeStores _ w⟩

/-- A step that has to be approved: the approval is made or the checks of
`create_pending` raise. -/
theorem proposal_ends {Q : Except PyError StepResult → World → Prop} (context : ContextPack)
    (w : World) (hreadable : ReadableReminder rt step) (scopes : List String)
    (hasked : ∀ rationale record w', Creatable w step registry (some scopes) →
      Created rt .step step rationale registry (some scopes) w w' record →
        Q (.ok (failedStep step (approvalMarker ++ record.id))) w')
    (hrefused : ∀ e w', ¬ Creatable w step registry (some scopes) → Q (.error e) w') :
    (∀ e, approvalPayload rt step = .error e → Q (.error e) w) ∧
      ∀ payload, approvalPayload rt step = .ok payload →
        Ends (createPending rt .step step context requester payload registry (some scopes)) w
          fun r w' => Q (r.map fun record =>
            failedStep step ("approval_required:" ++ record.id)) w' := by
  obtain ⟨rationale, hpayload⟩ := approvalPayload_ok hreadable
  constructor
  · intro e herror
    cases hpayload.symm.trans herror
  · intro payload _
    refine (createPending_ends rt .step step context requester payload registry
      (some scopes) w).mono ?_
    rintro (e | record) w' hends
    · exact hrefused e w' hends.1
    · exact hasked payload record w' hends.1 hends.2

theorem executeStep_fares (context : ContextPack) (w : World)
    (hreadable : ReadableReminder rt step) :
    Ends (executeStep rt context registry requester false step) w
      fun r w' => Fared rt registry requester step w w' (stepFate w registry step) r := by
  refine executeStep_rule ?_ ?_ ?_ ?_
  · intro hname
    rw [stepFate, hname]
    exact .quiet _ rfl rfl (Quiet.refl w)
  · intro name e hname hget
    simp only [stepFate, hname, hget]
    exact .raises e
  · intro name skill w₁ hname hget hscopes hquiet
    simp only [stepFate, hname, hget, hscopes, Bool.false_eq_true, if_false]
    exact .quiet _ rfl (createdId_denied step _) hquiet
  · intro name skill w₁ hname hget hscopes hquiet
    have hcreatable := (creatable_congr hquiet.surroundings ..).trans
      (creatable_iff hname hget hscopes)
    simp only [stepFate, hname, hget, hscopes, if_true, skillFate]
    by_cases hwrite : skill.sideEffect = "write"
    · rw [if_pos hwrite]
      by_cases hsafe : w.safeMode = true
      · rw [if_pos ⟨hwrite, hsafe⟩, if_pos hsafe]
        exact .quiet _ rfl (createdId_failed step rfl) hquiet
      · have hasks : (requiresApproval skill step.requiresApproval && !false) = true := by
          simp [requiresApproval, hwrite]
        rw [if_neg (fun h => hsafe h.2), if_neg hsafe, if_pos hasks]
        refine proposal_ends (Q := fun r w₂ => Fared rt registry requester step w w₂
          (if expiryExists w = true then .asks else .raises) r) context w₁ hreadable
          skill.requiredScopes ?_ ?_
        · intro rationale record w₂ hok hcreated
          rw [if_pos (hcreatable.mp hok).2.2]
          exact .asks skill rationale record (created_after_quiet hquiet hcreated)
        · intro e w₂ hnot
          have hexpiry : ¬ expiryExists w = true := fun hexpiry =>
            hnot (hcreatable.mpr ⟨by simpa using hsafe, hwrite, hexpiry⟩)
          rw [if_neg hexpiry]
          exact .raises e
    · rw [if_neg hwrite, if_neg (fun h => hwrite h.1)]
      by_cases hflag : step.requiresApproval = true
      · have hasks : (requiresApproval skill step.requiresApproval && !false) = true := by
          simp [requiresApproval, hflag]
        rw [if_pos hasks, if_pos hflag]
        refine proposal_ends (Q := fun r w₂ => Fared rt registry requester step w w₂ .raises r)
          context w₁ hreadable skill.requiredScopes ?_ ?_
        · intro rationale record w₂ hok _
          exact absurd (hcreatable.mp hok).2.1 hwrite
        · intro e w₂ _
          exact .raises e
      · have hruns : ¬ (requiresApproval skill step.requiresApproval && !false) = true := by
          simp [requiresApproval, hflag, hwrite]
        rw [if_neg hruns, if_neg hflag]
        refine (runSkill_outcome rt skill step requester w₁).ends fun outcome w₂ h => ?_
        obtain ⟨rfl, hwrote⟩ := h
        have hevents : w₁.disk.events = w.disk.events := hquiet.events_eq
        rw [hevents] at hwrote ⊢
        exact .runs skill (Wrote.after_quiet hquiet hwrote)

end Steps

/-- Identifiers still to be drawn name no stored approval. -/
def FreshIds (rt : Runtime) (w : World) : Prop :=
  ∀ record ∈ w.disk.approvals, ∀ n, w.uuids ≤ n → rt.uuid4 n ≠ record.id

/-- The exception's text looks like an approval. -/
def misleads : SkillOutcome → Bool
  | .returned _ => false
  | .raised e => startsWith approvalMarker e.str

def misleading (rt : Runtime) (w : World) (registry : Registry) (n : Nat) : List PlanStep → Nat
  | [] => 0
  | step :: rest =>
    match stepFate w registry step with
    | .quiet | .raises => misleading rt w registry n rest
    | .asks => misleading rt w registry (n + 1) rest
    | .runs =>
      (if misleads (rt.skillRun n) then 1 else 0) + misleading rt w registry (n + 1) rest

/-- What the execution of the steps leaves. -/
structure Yielded (rt : Runtime) (registry : Registry) (steps : List PlanStep)
    (results : List StepResult) (w w' : World) : Prop where
  ids : results.map StepResult.stepId = steps.map PlanStep.id
  surroundings : w'.toSurroundings = w.toSurroundings
  stored : ∃ news, w'.disk.approvals = w.disk.approvals ++ news ∧
    (approvalsCreated results).length =
      news.length + misleading rt w registry w.disk.events.length steps ∧
    (misleading rt w registry w.disk.events.length steps = 0 →
      approvalsCreated results = news.map PendingApproval.id)

theorem createdId_asked (step : PlanStep) (id : String) :
    createdId (failedStep step (approvalMarker ++ id)) = some id := by
  have hne : approvalMarker ++ id ≠ "" := by
    intro h
    have := congrArg String.length h
    simp [approvalMarker] at this
  have hstart : startsWith approvalMarker (approvalMarker ++ id) = true := by
    rw [startsWith, String.toList_append]
    exact List.isPrefixOf_iff_prefix.mpr (List.prefix_append _ _)
  have hid : afterColon (approvalMarker ++ id) = id := by
    rw [afterColon, String.toList_append]
    exact String.ofList_toList
  rw [createdId, failedStep, truthy_some]
  simp [hne, hstart, hid]

theorem createdId_ran (step : PlanStep) (outcome : SkillOutcome) :
    createdId (ranResult step outcome) = none ↔ misleads outcome = false := by
  cases outcome with
  | returned content => exact iff_of_true rfl rfl
  | raised e =>
    rw [createdId, ranResult, failedStep, misleads, truthy_some]
    by_cases hempty : e.str = ""
    · rw [if_pos hempty]
      refine iff_of_true rfl ?_
      rw [hempty]
      rfl
    · by_cases hstart : startsWith approvalMarker e.str = true <;> simp [hempty, hstart]

theorem expiryExists_congr {w w' : World} (h : w'.toSurroundings = w.toSurroundings) :
    expiryExists w' = expiryExists w := by
  simp only [expiryExists, h]

theorem stepFate_congr {w w' : World} (h : w'.toSurroundings = w.toSurroundings)
    (registry : Registry) (step : PlanStep) :
    stepFate w' registry step = stepFate w registry step := by
  simp only [stepFate, skillFate, expiryExists_congr h, h]

theorem misleading_congr {w w' : World} (h : w'.toSurroundings = w.toSurroundings) (rt : Runtime)
    (registry : Registry) (n : Nat) (steps : List PlanStep) :
    misleading rt w' registry n steps = misleading rt w registry n steps := by
  induction steps generalizing n with
  | nil => rfl
  | cons step rest ih => simp only [misleading, stepFate_congr h, ih]

section Plans

variable {rt : Runtime} {registry : Registry} {requester : Requester}

theorem FreshIds.quiet {w w' : World} (h : FreshIds rt w) (hquiet : Quiet w w') :
    FreshIds rt w' := by
  intro record hmem n hn
  rw [hquiet.approvals_eq] at hmem
  exact h record hmem n (hquiet.uuids.trans hn)

theorem upsert_fresh {records : List PendingApproval} {record : PendingApproval}
    (h : ∀ other ∈ records, other.id ≠ record.id) :
    upsert record records = records ++ [record] := by
  induction records with
  | nil => rfl
  | cons other rest ih =>
    have hne := h other (by simp)
    have hrest := ih fun x hx => h x (by simp [hx])
    simp only [upsert, KeyedList.upsert, if_neg hne, List.cons_append] at hrest ⊢
    rw [hrest]

theorem FreshIds.created {w w' : World} (huuid : Function.Injective rt.uuid4) (h : FreshIds rt w)
    {step : PlanStep} {rationale : String} {scopes : Option (List String)}
    {record : PendingApproval}
    (hcreated : Created rt .step step rationale registry scopes w w' record) :
    FreshIds rt w' ∧ w'.disk.approvals = w.disk.approvals ++ [record] ∧
      w'.disk.events.length = w.disk.events.length + 1 := by
  obtain ⟨n, hle, hlt, hid⟩ := hcreated.fresh
  have hstores := hcreated.wrote.stores
  have happrovals : w'.disk.approvals = w.disk.approvals ++ [record] := by
    rw [hstores]
    exact upsert_fresh fun other hother hsame => h other hother n hle (hid.symm.trans hsame.symm)
  have hevents : w'.disk.events = w.disk.events ++ [.approvalCreated .step record] := by
    rw [hstores]
    rfl
  refine ⟨?_, happrovals, by simp [hevents]⟩
  intro other hother m hm
  rw [happrovals] at hother
  rcases List.mem_append.mp hother with hold | hnew
  · exact h other hold m (by omega)
  · cases List.mem_singleton.mp hnew
    rw [hid]
    intro hsame
    have := huuid hsame
    omega

theorem approvalsCreated_none {result : StepResult} (h : createdId result = none)
    (results : List StepResult) :
    approvalsCreated (result :: results) = approvalsCreated results :=
  List.filterMap_cons_none h

theorem approvalsCreated_some {result : StepResult} {id : String} (h : createdId result = some id)
    (results : List StepResult) :
    approvalsCreated (result :: results) = id :: approvalsCreated results :=
  List.filterMap_cons_some h

theorem yielded_cons {step : PlanStep} {rest : List PlanStep} {result : StepResult}
    {results : List StepResult} {w w₁ w₂ : World} (huuid : Function.Injective rt.uuid4)
    (hfresh : FreshIds rt w)
    (hstep : Fared rt registry requester step w w₁ (stepFate w registry step) (.ok result))
    (hrest : Yielded rt registry rest results w₁ w₂) :
    Yielded rt registry (step :: rest) (result :: results) w w₂ := by
  obtain ⟨hids, hsame, news, happrovals, hcount, hexact⟩ := hrest
  cases hfate : stepFate w registry step with
  | raises =>
    rw [hfate] at hstep
    cases hstep
  | quiet =>
    rw [hfate] at hstep
    cases hstep with
    | quiet _ named unasked quiet =>
      have hevents : w₁.disk.events = w.disk.events := quiet.events_eq
      have hstored : w₁.disk.approvals = w.disk.approvals := quiet.approvals_eq
      rw [hevents, misleading_congr quiet.surroundings] at hcount hexact
      refine ⟨by simp [named, hids], hsame.trans quiet.surroundings, news, ?_, ?_, ?_⟩
      · rw [happrovals, hstored]
      · rw [approvalsCreated_none unasked]
        simpa [misleading, hfate] using hcount
      · rw [approvalsCreated_none unasked]
        simpa [misleading, hfate] using hexact
  | asks =>
    rw [hfate] at hstep
    cases hstep with
    | asks skill rationale record created =>
      obtain ⟨-, hstored, hevents⟩ := hfresh.created huuid created
      have hcreated := approvalsCreated_some (createdId_asked step record.id) results
      rw [hevents, misleading_congr created.wrote.surroundings] at hcount hexact
      refine ⟨by simp [failedStep, hids], hsame.trans created.wrote.surroundings,
        record :: news, ?_, ?_, ?_⟩
      · rw [happrovals, hstored, List.append_assoc, List.singleton_append]
      · rw [hcreated]
        simp only [misleading, hfate, List.length_cons]
        omega
      · intro hzero
        simp only [misleading, hfate] at hzero
        rw [hcreated, hexact hzero, List.map_cons]
  | runs =>
    rw [hfate] at hstep
    cases hstep with
    | runs skill wrote =>
      have hevents : w₁.disk.events.length = w.disk.events.length + 1 := by
        rw [wrote.stores]
        simp [Stores.log]
      have hstored : w₁.disk.approvals = w.disk.approvals := by
        rw [wrote.stores]
        rfl
      have hid := createdId_ran step (rt.skillRun w.disk.events.length)
      have hname : (ranResult step (rt.skillRun w.disk.events.length)).stepId = step.id := by
        cases rt.skillRun w.disk.events.length <;> rfl
      rw [hevents, misleading_congr wrote.surroundings] at hcount hexact
      refine ⟨by simp [hname, hids], hsame.trans wrote.surroundings, news, ?_, ?_, ?_⟩
      · rw [happrovals, hstored]
      · simp only [misleading, hfate]
        cases hmisleads : misleads (rt.skillRun w.disk.events.length) with
        | false =>
          rw [approvalsCreated_none (hid.mpr hmisleads)]
          simpa using hcount
        | true =>
          obtain ⟨id, hsome⟩ := Option.ne_none_iff_exists'.mp fun hnone =>
            Bool.noConfusion (hmisleads.symm.trans (hid.mp hnone))
          rw [approvalsCreated_some hsome, List.length_cons]
          simp only [if_true]
          omega
      · intro hzero
        simp only [misleading, hfate] at hzero
        cases hmisleads : misleads (rt.skillRun w.disk.events.length) with
        | false =>
          rw [approvalsCreated_none (hid.mpr hmisleads)]
          exact hexact (by omega)
        | true =>
          rw [hmisleads, if_pos rfl] at hzero
          omega

theorem Fared.surroundings {step : PlanStep} {result : StepResult} {fate : Fate} {w w₁ : World}
    (h : Fared rt registry requester step w w₁ fate (.ok result)) :
    w₁.toSurroundings = w.toSurroundings := by
  cases h with
  | quiet _ _ _ quiet => exact quiet.surroundings
  | asks _ _ _ created => exact created.wrote.surroundings
  | runs _ wrote => exact wrote.surroundings

theorem Fared.fresh {step : PlanStep} {result : StepResult} {fate : Fate} {w w₁ : World}
    (huuid : Function.Injective rt.uuid4) (hfresh : FreshIds rt w)
    (h : Fared rt registry requester step w w₁ fate (.ok result)) : FreshIds rt w₁ := by
  cases h with
  | quiet _ _ _ quiet => exact hfresh.quiet quiet
  | asks _ _ _ created => exact (hfresh.created huuid created).1
  | runs _ wrote =>
    intro record hmem n hn
    rw [wrote.stores] at hmem
    exact hfresh record hmem n (wrote.uuids.trans hn)

theorem executePlan_yields (context : ContextPack) (huuid : Function.Injective rt.uuid4)
    (steps : List PlanStep) {w : World} (hfresh : FreshIds rt w)
    (hreadable : ∀ step ∈ steps, ReadableReminder rt step)
    (hfate : ∀ step ∈ steps, stepFate w registry step ≠ .raises) :
    ∃ results w', executePlan rt context registry requester false steps w = (.ok results, w') ∧
      Yielded rt registry steps results w w' := by
  induction steps generalizing w with
  | nil => exact ⟨[], w, rfl, rfl, rfl, [], by simp [approvalsCreated, misleading]⟩
  | cons step rest ih =>
    have hstep : Ends (executeStep rt context registry requester false step) w fun r w' =>
        Fared rt registry requester step w w' (stepFate w registry step) r :=
      executeStep_fares context w (hreadable step (by simp))
    rw [Ends] at hstep
    cases hrun : executeStep rt context registry requester false step w with
    | mk r w₁ =>
      rw [hrun] at hstep
      cases r with
      | error e =>
        have := hfate step (by simp)
        cases hf : stepFate w registry step <;> rw [hf] at hstep this <;> cases hstep
        exact absurd rfl this
      | ok result =>
        obtain ⟨results, w₂, hruns, hyielded⟩ := ih (Fared.fresh huuid hfresh hstep)
          (fun s hs => hreadable s (List.mem_cons_of_mem _ hs)) fun s hs => by
            rw [stepFate_congr hstep.surroundings]
            exact hfate s (List.mem_cons_of_mem _ hs)
        refine ⟨result :: results, w₂, ?_, yielded_cons huuid hfresh hstep hyielded⟩
        rw [executePlan, bind_ok hrun, bind_ok hruns]
        rfl

theorem executePlan_raises (context : ContextPack) (steps : List PlanStep) {w : World}
    (hreadable : ∀ step ∈ steps, ReadableReminder rt step)
    (hfate : ∃ step ∈ steps, stepFate w registry step = .raises) :
    ∃ e w', executePlan rt context registry requester false steps w = (.error e, w') := by
  induction steps generalizing w with
  | nil => simp at hfate
  | cons step rest ih =>
    have hstep : Ends (executeStep rt context registry requester false step) w fun r w' =>
        Fared rt registry requester step w w' (stepFate w registry step) r :=
      executeStep_fares context w (hreadable step (by simp))
    rw [Ends] at hstep
    rw [executePlan]
    cases hrun : executeStep rt context registry requester false step w with
    | mk r w₁ =>
      rw [hrun] at hstep
      cases r with
      | error e => exact ⟨e, w₁, bind_error hrun⟩
      | ok result =>
        have hrest : ∃ s ∈ rest, stepFate w₁ registry s = .raises := by
          obtain ⟨s, hs, hraises⟩ := hfate
          rcases List.mem_cons.mp hs with rfl | hs
          · rw [hraises] at hstep
            cases hstep
          · exact ⟨s, hs, by rw [stepFate_congr hstep.surroundings, hraises]⟩
        obtain ⟨e, w₂, hruns⟩ := ih (fun s hs => hreadable s (List.mem_cons_of_mem _ hs)) hrest
        refine ⟨e, w₂, ?_⟩
        rw [bind_ok hrun, bind_error hruns]

end Plans

end PlanResults
