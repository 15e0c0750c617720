import Benjamin.PlanResults

/-!
# What an accepted plan leaves behind

From the message to the task record: the plan names built-in skills, the review keeps
what the executor reads, and the record names the approvals that the steps have left in
the store, unless a step raises or an exception's text passes for an approval.
-/
namespace AcceptedPlan

open PyBase PlanSchemas SecurityPolicy SkillRegistry AssistantState ApprovalStore PlanExecutor
  PlanCritic PlanReview Planner PlanningReturns Orchestration PlanResults ReminderSkill Effect

def TasksKept (w w' : World) : Prop := w'.disk.tasks = w.disk.tasks

theorem tasksKept_chains : Chains TasksKept := ⟨fun _ => rfl, fun h h' => h'.trans h⟩

theorem drawUuid_tasks (rt : Runtime) : Keeps TasksKept (drawUuid rt) := fun _ => rfl

theorem appendEpisode_tasks (kind summary : String) (metadata : Dict) :
    Keeps TasksKept (appendEpisode kind summary metadata) := fun _ => rfl

theorem resolveCorrelation_tasks (rt : Runtime) (requester : Requester) :
    Keeps TasksKept (resolveCorrelation rt requester) := by
  intro w
  rw [resolveCorrelation]
  split <;> rfl

theorem createPending_tasks (rt : Runtime) (origin : Origin) (step : PlanStep) (ctx : ContextPack)
    (requester : Requester) (rationale : String) (registry : Registry)
    (scopes : Option (List String)) :
    Keeps TasksKept (createPending rt origin step ctx requester rationale registry scopes) := by
  rw [createPending]
  have hR := tasksKept_chains
  refine .bind hR (.ask hR _) fun checked => .bind hR (.read hR _) fun policy => ?_
  refine .bind hR (.read hR _) fun createdAt => .bind hR (.ask hR _) fun ttlHours => ?_
  refine .bind hR (resolveCorrelation_tasks rt requester) fun correlationId => ?_
  refine .bind hR (drawUuid_tasks rt) fun id => .bind hR (.ofExcept hR _) fun expiresAt => ?_
  exact .bind hR (fun _ => rfl) fun _ => .pure hR _

theorem executeStep_tasks (rt : Runtime) (context : ContextPack) (registry : Registry)
    (requester : Requester) (force : Bool) (step : PlanStep) :
    Keeps TasksKept (executeStep rt context registry requester force step) := by
  have hR := tasksKept_chains
  rw [executeStep]
  split
  · exact .pure hR _
  · refine .bind hR (.read hR _) fun policy => .bind hR (.ofExcept hR _) fun skill => ?_
    dsimp only
    split
    · exact .bind hR (appendEpisode_tasks _ _ _) fun _ => .pure hR _
    · refine .bind hR (appendEpisode_tasks _ _ _) fun _ => .bind hR (.read hR _) fun safeMode => ?_
      split
      · exact .pure hR _
      · split
        · refine .bind hR (.ofExcept hR _) fun payload => ?_
          exact .bind hR (createPending_tasks _ _ _ _ _ _ _ _) fun _ => .pure hR _
        · exact .bind hR (fun _ => rfl) fun _ => .pure hR _

theorem executePlan_tasks (rt : Runtime) (context : ContextPack) (registry : Registry)
    (requester : Requester) (force : Bool) (steps : List PlanStep) :
    Keeps TasksKept (executePlan rt context registry requester force steps) := by
  have hR := tasksKept_chains
  induction steps with
  | nil => exact .pure hR _
  | cons step rest ih =>
    exact .bind hR (executeStep_tasks rt context registry requester force step) fun _ =>
      .bind hR ih fun _ => .pure hR _

/-- The planner touches nothing but its identifiers. -/
def Drawn (w w' : World) : Prop := Quiet w w' ∧ TasksKept w w'

theorem drawn_chains : Chains Drawn :=
  ⟨fun w => ⟨Quiet.refl w, rfl⟩, fun h h' => ⟨quiet_chains.trans h.1 h'.1, h'.2.trans h.2⟩⟩

theorem drawUuid_drawn (rt : Runtime) : Keeps Drawn (drawUuid rt) := by
  intro w
  obtain ⟨id, w', hrun, -, -, hquiet⟩ := drawUuid_returns rt w
  rw [hrun]
  exact ⟨hquiet, by cases hrun; rfl⟩

theorem requestCorrelation_drawn (rt : Runtime) : Keeps Drawn (requestCorrelation rt) := by
  intro w
  rw [requestCorrelation]
  split
  · exact drawn_chains.refl w
  · exact drawUuid_drawn _ w

theorem commandPlan_drawn (rt : Runtime) (goal description skillName args : String) :
    Keeps Drawn (commandPlan rt goal description skillName args) :=
  .bind drawn_chains (drawUuid_drawn rt) fun _ => .pure drawn_chains _

theorem fallbackPlan_drawn (rt : Runtime) (goal : String) : Keeps Drawn (fallbackPlan rt goal) :=
  .bind drawn_chains (drawUuid_drawn rt) fun _ =>
    .bind drawn_chains (drawUuid_drawn rt) fun _ => .pure drawn_chains _

theorem llmSteps_drawn (lib : Libraries) (raws : List Json) : Keeps Drawn (llmSteps lib raws) := by
  have hR := drawn_chains
  induction raws with
  | nil => exact .pure hR _
  | cons raw rest ih =>
    refine .bind hR ?_ fun id => ?_
    · intro w
      unfold freshId
      split
      · split
        · exact hR.refl w
        · exact drawUuid_drawn _ w
      · exact hR.refl w
    · split
      · exact .pure hR _
      · exact .bind hR ih fun _ => .pure hR _

theorem plan_drawn (lib : Libraries) (llm : LanguageModel) (goal : String) :
    Keeps Drawn (Planner.plan lib llm goal) := by
  have hR := drawn_chains
  refine .bind hR ?_ fun deterministic => ?_
  · rw [deterministicPlan]
    split
    · exact .bind hR (commandPlan_drawn _ _ _ _ _) fun _ => .pure hR _
    · split
      · exact .bind hR (commandPlan_drawn _ _ _ _ _) fun _ => .pure hR _
      · split
        · exact .bind hR (.ofExcept hR _) fun _ =>
            .bind hR (commandPlan_drawn _ _ _ _ _) fun _ => .pure hR _
        · exact .pure hR _
  · split
    · exact .pure hR _
    · rw [openPlan]
      split
      · exact fallbackPlan_drawn _ _
      · refine .bind hR ?_ fun planned => ?_
        · unfold llmPlan
          split
          · exact .pure hR _
          · exact .pure hR _
          · exact .pure hR _
          · exact .raise hR _
          · exact .bind hR (llmSteps_drawn _ _) fun _ => .pure hR _
        · split
          · exact .pure hR _
          · exact fallbackPlan_drawn _ _

def NamesKnown (step : PlanStep) : Prop :=
  ∀ name, truthy step.skillName = some name → name ∈ validSkills

theorem namesKnown_of_valid {step : PlanStep} (h : namesValidSkill step = true) :
    NamesKnown step := by
  intro name hname
  simpa [namesValidSkill, hname] using h

theorem commandPlan_known (rt : Runtime) (goal description args : String) {skillName : String}
    (h : skillName ∈ validSkills) :
    Gives (commandPlan rt goal description skillName args) fun plan =>
      ∀ step ∈ plan.steps, NamesKnown step := by
  refine .bind (.any _) fun id _ => .pure ?_
  intro step hstep name hname
  cases List.mem_singleton.mp hstep
  rw [truthy_some] at hname
  split at hname
  · cases hname
  · cases hname
    exact h

theorem fallbackPlan_known (rt : Runtime) (goal : String) :
    Gives (fallbackPlan rt goal) fun plan => ∀ step ∈ plan.steps, NamesKnown step := by
  refine .bind (.any _) fun analyze _ => .bind (.any _) fun execute _ => .pure ?_
  intro step hstep name hname
  simp only [List.mem_cons, List.not_mem_nil, or_false] at hstep
  rcases hstep with rfl | rfl <;> cases hname

theorem llmSteps_known (lib : Libraries) (raws : List Json) :
    Gives (llmSteps lib raws) fun steps? => ∀ steps, steps? = some steps →
      ∀ step ∈ steps, NamesKnown step := by
  induction raws with
  | nil => exact .pure (by rintro _ ⟨⟩; simp)
  | cons raw rest ih =>
    refine .bind (.any _) fun id _ => ?_
    cases hstep : (validateStep lib id raw).filter namesValidSkill with
    | none => exact .pure nofun
    | some step =>
      refine .bind ih fun steps? hsteps => .pure ?_
      rintro steps h other hother
      obtain ⟨tail, rfl, rfl⟩ := Option.map_eq_some_iff.mp h
      rcases List.mem_cons.mp hother with rfl | htail
      · exact namesKnown_of_valid (Option.filter_eq_some_iff.mp hstep).2
      · exact hsteps tail rfl other htail

theorem llmPlan_known (lib : Libraries) (goal : String) (reply : LlmReply Dict) :
    Gives (llmPlan lib goal reply) fun plan? => ∀ plan, plan? = some plan →
      ∀ step ∈ plan.steps, NamesKnown step := by
  unfold llmPlan
  split
  · exact .pure nofun
  · exact .pure nofun
  · exact .pure nofun
  · exact .raise _
  · refine .bind (llmSteps_known _ _) fun steps? hsteps => .pure ?_
    rintro plan h
    obtain ⟨steps, hfilter, rfl⟩ := Option.map_eq_some_iff.mp h
    exact hsteps steps (Option.filter_eq_some_iff.mp hfilter).1

theorem plan_known (lib : Libraries) (llm : LanguageModel) (goal : String) :
    Gives (Planner.plan lib llm goal) fun plan => ∀ step ∈ plan.steps, NamesKnown step := by
  have hcommand : ∀ description skillName args, skillName ∈ validSkills →
      Gives (do
        let plan ← commandPlan lib.toRuntime goal description skillName args
        pure (some plan) : Py (Option Plan)) fun plan? => ∀ plan, plan? = some plan →
          ∀ step ∈ plan.steps, NamesKnown step := by
    intro description skillName args h
    refine .bind (commandPlan_known _ _ _ _ h) fun plan hplan => .pure ?_
    rintro _ ⟨⟩
    exact hplan
  refine .bind (P := fun plan? => ∀ plan, plan? = some plan →
    ∀ step ∈ plan.steps, NamesKnown step) ?_ fun deterministic hdeterministic => ?_
  · unfold deterministicPlan
    split
    · exact hcommand _ _ _ (by decide)
    · split
      · exact hcommand _ _ _ (by decide)
      · split
        · exact .bind (.any _) fun _ _ => hcommand _ _ _ (by decide)
        · exact .pure nofun
  · cases deterministic with
    | some plan => exact .pure (hdeterministic plan rfl)
    | none =>
      unfold openPlan
      cases llm.planner with
      | none => exact fallbackPlan_known _ _
      | some reply =>
        refine .bind (llmPlan_known lib goal reply) fun planned hplanned => ?_
        cases planned with
        | some plan => exact .pure (hplanned plan rfl)
        | none => exact fallbackPlan_known _ _

/-- A check changes nothing of a step but its arguments. -/
def ArgsOnly (step : PlanStep) (outcome : Except PyError StepReview) : Prop :=
  ∀ r, outcome = .ok r → r.step = { step with args := r.step.args }

theorem argsOnly_turnedDown (step : PlanStep) (error question : String) :
    ArgsOnly step (.ok (turnedDown step error question)) := by
  rintro r ⟨⟩
  rfl

theorem argsOnly_passed (step : PlanStep) (payload : Dict) (changes : List Change)
    (warnings : List String) : ArgsOnly step (.ok (passed step payload changes warnings)) := by
  rintro r ⟨⟩
  cases changes <;> rfl

theorem reviewTimes_argsOnly (now start stop : Int) (step : PlanStep) (payload : Dict)
    (changes : List Change) : ArgsOnly step (reviewTimes now start stop step payload changes) := by
  unfold reviewTimes
  split
  · exact argsOnly_turnedDown _ _ _
  · split
    · exact nofun
    · exact argsOnly_passed _ _ _ _

theorem reviewCalendar_argsOnly (c : Critic) (now : Int) (step : PlanStep) (payload : Dict) :
    ArgsOnly step (reviewCalendar c now step payload) := by
  unfold reviewCalendar
  cases parseIso c (payload.lookup "start_iso") (payload.lookup "timezone") with
  | error e => exact nofun
  | ok start? =>
    cases parseIso c (payload.lookup "end_iso") (payload.lookup "timezone") with
    | error e => exact nofun
    | ok stop? =>
      cases start? with
      | none => exact argsOnly_turnedDown _ _ _
      | some start =>
        cases stop? with
        | none => exact argsOnly_turnedDown _ _ _
        | some stop =>
          change ArgsOnly step (reviewTimezone c now start stop step payload)
          unfold reviewTimezone
          dsimp only
          split
          · exact reviewTimes_argsOnly _ _ _ _ _ _
          · split
            · exact nofun
            · exact argsOnly_turnedDown _ _ _
            · exact reviewTimes_argsOnly _ _ _ _ _ _

theorem reviewGmail_argsOnly (c : Critic) (step : PlanStep) (payload : Dict) :
    ArgsOnly step (.ok (reviewGmail c step payload)) := by
  unfold reviewGmail
  dsimp only
  split
  · exact argsOnly_turnedDown _ _ _
  · split
    · exact argsOnly_passed _ _ _ _
    · exact argsOnly_passed _ _ _ _

theorem reviewReminder_argsOnly (c : Critic) (now : Int) (step : PlanStep) (payload : Dict) :
    ArgsOnly step (reviewReminder c now step payload) := by
  unfold reviewReminder reviewRunAt
  split
  · exact argsOnly_turnedDown _ _ _
  · split
    · exact nofun
    · exact argsOnly_turnedDown _ _ _
    · split
      · split
        · exact nofun
        · exact argsOnly_passed _ _ _ _
      · exact argsOnly_passed _ _ _ _

theorem reviewPayload_argsOnly (c : Critic) (step : PlanStep) (error question : String)
    {check : Dict → Except PyError StepReview} (h : ∀ payload, ArgsOnly step (check payload)) :
    ArgsOnly step (reviewPayload c step error question check) := by
  unfold reviewPayload
  split
  · exact nofun
  · exact argsOnly_turnedDown _ _ _
  · exact h _
  · exact nofun

theorem reviewStep_argsOnly (c : Critic) (now : Int) (step : PlanStep) :
    ArgsOnly step (reviewStep c now step) := by
  rw [reviewStep]
  split
  · exact reviewPayload_argsOnly _ _ _ _ (reviewCalendar_argsOnly c now step)
  · split
    · exact reviewPayload_argsOnly _ _ _ _ (reviewGmail_argsOnly c step)
    · split
      · exact reviewPayload_argsOnly _ _ _ _ (reviewReminder_argsOnly c now step)
      · exact argsOnly_passed _ _ _ _

theorem accepted_argsOnly {c : Critic} {now : Int} {step step' : PlanStep}
    (h : Accepted c now step step') : step' = { step with args := step'.args } := by
  obtain ⟨r, hreview, -, rfl⟩ := h
  exact reviewStep_argsOnly c now step r hreview

theorem loads_of_jsonLoads {lib : Libraries} {text : String} {value : Json}
    (h : jsonLoads lib text = .ok (some value)) : lib.loads text = some value := by
  rw [jsonLoads] at h
  split at h
  · cases h
  · exact Except.ok.inj h

theorem accepted_readable {c : Critic} (hback : ReadsBack c.lib) {now : Int}
    {step step' : PlanStep} (h : Accepted c now step step') :
    ReadableReminder c.lib.toRuntime step' := by
  intro hskill
  have hreminder : step.skillName = some "reminders.create" := by
    rw [accepted_argsOnly h] at hskill
    exact hskill
  obtain ⟨payload, runAt, hloads, -, -, ⟨-, hargs⟩ | ⟨-, hargs⟩⟩ :=
    accepted_reminder hreminder h
  · obtain ⟨payload', hread⟩ := hback step.args payload hloads "run_at_iso" _
    exact ⟨payload', by rw [hargs]; exact loads_of_jsonLoads hread⟩
  · exact ⟨payload, by rw [hargs]; exact loads_of_jsonLoads hloads⟩

theorem builtin_known {name : String} (h : name ∈ validSkills) :
    ∃ skill, builtinRegistry.get name = .ok skill := by
  simp only [validSkills, List.mem_cons, List.not_mem_nil, or_false] at h
  rcases h with rfl | rfl | rfl | rfl | rfl | rfl | rfl <;> exact ⟨_, rfl⟩

/-- The step asks for an approval that `create_pending` does not make: of a read skill, or
of a write outside safe mode when an approval made now has no expiry date. -/
def Unapprovable (w : World) (step : PlanStep) : Prop :=
  ∃ skill, Cleared w builtinRegistry step skill ∧
    (skill.IsWrite ∧ w.safeMode = false ∧ expiryExists w = false ∨
      ¬ skill.IsWrite ∧ step.requiresApproval = true)

theorem raises_iff_unapprovable {w : World} {step : PlanStep} (hknown : NamesKnown step) :
    stepFate w builtinRegistry step = .raises ↔ Unapprovable w step := by
  unfold stepFate
  cases hname : truthy step.skillName with
  | none =>
    refine iff_of_false nofun ?_
    rintro ⟨skill, ⟨⟨name, hname', -⟩, -⟩, -⟩
    cases hname.symm.trans hname'
  | some name =>
    obtain ⟨skill, hget⟩ := builtin_known (hknown name hname)
    have honly : ∀ {other}, Cleared w builtinRegistry step other → other = skill := by
      rintro other ⟨⟨name', hname', hget'⟩, -⟩
      cases hname.symm.trans hname'
      cases hget.symm.trans hget'
      rfl
    simp only [hget]
    by_cases hscopes : (w.policy.checkScopes skill.requiredScopes).1 = true
    · have hcleared : Cleared w builtinRegistry step skill :=
        ⟨⟨name, hname, hget⟩, PermissionsPolicy.checkScopes_iff.mp hscopes⟩
      have hiff : Unapprovable w step ↔
          (skill.IsWrite ∧ w.safeMode = false ∧ expiryExists w = false ∨
            ¬ skill.IsWrite ∧ step.requiresApproval = true) := by
        constructor
        · rintro ⟨other, hother, hcase⟩
          cases honly hother
          exact hcase
        · exact fun hcase => ⟨skill, hcleared, hcase⟩
      rw [if_pos hscopes, hiff]
      unfold skillFate Skill.IsWrite
      by_cases hwrite : skill.sideEffect = "write"
      · cases w.safeMode <;> cases expiryExists w <;> simp [hwrite]
      · cases step.requiresApproval <;> simp [hwrite]
    · rw [if_neg hscopes]
      refine iff_of_false nofun ?_
      rintro ⟨other, hother, -⟩
      cases honly hother
      exact hscopes (PermissionsPolicy.checkScopes_iff.mpr hother.scopes)

def OneResultEach (o : Orchestrator) (message : String) (p : Prepared) (w : World) : Prop :=
  ∃ results w', executeRequest o message p w = (.ok results, w') ∧
    results.map StepResult.stepId = p.plan.steps.map PlanStep.id

/-- The request returns and adds one task record, which names the approvals that the
request has added to the store. -/
def OneRecord (o : Orchestrator) (llm : LanguageModel) (message : String) (w : World) : Prop :=
  ∃ answer w' record news, handle o llm message w = (.ok answer, w') ∧
    w'.disk.tasks = BoundedLog.retain (max 1 o.tasksMax) (w.disk.tasks ++ [record]) ∧
    w'.disk.approvals = w.disk.approvals ++ news ∧
    record.approvalsCreated = news.map PendingApproval.id

section Request

variable {o : Orchestrator} {llm : LanguageModel} {message : String} {w w₁ : World} {p : Prepared}

theorem prepare_drawn : Keeps Drawn (prepare o llm message) := by
  have hR := drawn_chains
  refine .bind hR (drawUuid_drawn _) fun taskId => ?_
  refine .bind hR (requestCorrelation_drawn _) fun correlationId => ?_
  refine .bind hR (plan_drawn _ _ _) fun planned => .bind hR (.read hR _) fun now => ?_
  exact .bind hR (.ofExcept hR _) fun reviewed => .pure hR _

theorem prepare_accepted (hback : ReadsBack o.critic.lib) :
    Gives (prepare o llm message) fun p => p.result.ok = true →
      ∀ step ∈ p.plan.steps, NamesKnown step ∧ ReadableReminder o.critic.lib.toRuntime step := by
  refine .bind (.any _) fun taskId _ => .bind (.any _) fun correlationId _ => ?_
  refine .bind (plan_known _ _ _) fun planned hknown => .bind (.any _) fun now _ => ?_
  intro w p w' h hok
  cases hreview : review o.critic now planned with
  | error e =>
    rw [hreview] at h
    cases h
  | ok out =>
    obtain ⟨result, plan⟩ := out
    rw [hreview] at h
    cases h
    have haccepted := review_accepted o.critic now hreview hok
    intro step hstep
    obtain ⟨source, hsource, haccept⟩ := forall₂_mem haccepted hstep
    refine ⟨?_, accepted_readable hback haccept⟩
    intro name hname
    rw [accepted_argsOnly haccept] at hname
    exact hknown source hsource name hname

theorem handle_accepted (hprepared : prepare o llm message w = (.ok p, w₁))
    (hok : p.result.ok = true) : handle o llm message w = carryOut o message p w₁ := by
  rw [handle, bind_ok hprepared, if_pos hok]

/-- After the execution, the request returns and has its record. -/
theorem carryOut_records {results : List StepResult} {w₂ : World}
    (hrun : executeRequest o message p w₁ = (.ok results, w₂)) :
    ∃ answer w₃ record, carryOut o message p w₁ = (.ok answer, w₃) ∧
      w₃.disk.tasks = BoundedLog.retain (max 1 o.tasksMax) (w₁.disk.tasks ++ [record]) ∧
      w₃.disk.approvals = w₂.disk.approvals ∧
      record.approvalsCreated = approvalsCreated results := by
  have htasks : w₂.disk.tasks = w₁.disk.tasks := by
    have := executePlan_tasks o.critic.lib.toRuntime ⟨message, some o.cwd⟩ builtinRegistry
      (chatRequester p) false p.plan.steps w₁
    rw [executeRequest] at hrun
    rwa [hrun] at this
  rw [carryOut, bind_ok hrun, ← htasks]
  cases hwrite : o.autowrite with
  | true =>
    simp only [rememberTask, hwrite, if_true]
    exact ⟨_, _, _, rfl, rfl, rfl, rfl⟩
  | false =>
    simp only [rememberTask, hwrite, Bool.false_eq_true, if_false]
    exact ⟨_, _, _, rfl, rfl, rfl, rfl⟩

theorem accepted_plan_iff (huuid : Function.Injective o.critic.lib.uuid4)
    (hback : ReadsBack o.critic.lib) (hfresh : FreshIds o.critic.lib.toRuntime w)
    (hprepared : prepare o llm message w = (.ok p, w₁)) (hok : p.result.ok = true) :
    OneResultEach o message p w₁ ∧ OneRecord o llm message w ↔
      (∀ step ∈ p.plan.steps, ¬ Unapprovable w step) ∧
        misleading o.critic.lib.toRuntime w builtinRegistry w.disk.events.length p.plan.steps =
          0 := by
  have hdrawn : Drawn w w₁ := by
    have := @prepare_drawn o llm message w
    rwa [hprepared] at this
  obtain ⟨hquiet, htasks⟩ := hdrawn
  have hsteps := prepare_accepted hback w p w₁ hprepared hok
  have hevents : w₁.disk.events = w.disk.events := hquiet.events_eq
  have happrovals : w₁.disk.approvals = w.disk.approvals := hquiet.approvals_eq
  have hraises : ∀ step ∈ p.plan.steps,
      (stepFate w₁ builtinRegistry step = .raises ↔ Unapprovable w step) := fun step hstep => by
    rw [stepFate_congr hquiet.surroundings]
    exact raises_iff_unapprovable (hsteps step hstep).1
  by_cases hfate : ∃ step ∈ p.plan.steps, stepFate w₁ builtinRegistry step = .raises
  · refine iff_of_false ?_ ?_
    · rintro ⟨⟨results, w₂, hrun, -⟩, -⟩
      obtain ⟨e, w₃, herror⟩ : ∃ e w₃, executeRequest o message p w₁ = (.error e, w₃) :=
        executePlan_raises _ p.plan.steps (fun step hstep => (hsteps step hstep).2) hfate
      cases herror.symm.trans hrun
    · rintro ⟨hnone, -⟩
      obtain ⟨step, hstep, hraise⟩ := hfate
      exact hnone step hstep ((hraises step hstep).mp hraise)
  · have hnone : ∀ step ∈ p.plan.steps, stepFate w₁ builtinRegistry step ≠ .raises :=
      fun step hstep h => hfate ⟨step, hstep, h⟩
    obtain ⟨results, w₂, hrun, hyielded⟩ :
        ∃ results w₂, executeRequest o message p w₁ = (.ok results, w₂) ∧
          Yielded o.critic.lib.toRuntime builtinRegistry p.plan.steps results w₁ w₂ :=
      executePlan_yields _ huuid p.plan.steps (hfresh.quiet hquiet)
        (fun step hstep => (hsteps step hstep).2) hnone
    obtain ⟨hids, -, news, hnews, hcount, hexact⟩ := hyielded
    obtain ⟨answer, w₃, record, hcarry, hrecorded, hstored, hcreated⟩ := carryOut_records hrun
    have hhandle := (handle_accepted hprepared hok).trans hcarry
    rw [hevents, misleading_congr hquiet.surroundings] at hcount hexact
    constructor
    · rintro ⟨-, answer', w', record', news', hhandle', hrecorded', hstored', hcreated'⟩
      cases hhandle.symm.trans hhandle'
      refine ⟨fun step hstep h => hnone step hstep ((hraises step hstep).mpr h), ?_⟩
      have hrecord : record = record' := by
        have := congrArg List.getLast? (hrecorded.symm.trans hrecorded')
        rw [BoundedLog.getLast_retain, BoundedLog.getLast_retain] at this
        exact Option.some.inj this
      have hsame : news = news' := by
        rw [hstored, hnews, happrovals] at hstored'
        exact List.append_cancel_left hstored'
      subst hrecord hsame
      have hlength := congrArg List.length (hcreated.symm.trans hcreated')
      rw [hcount, List.length_map] at hlength
      omega
    · rintro ⟨-, hzero⟩
      refine ⟨⟨results, w₂, hrun, hids⟩, answer, w₃, record, news, hhandle, ?_, ?_, ?_⟩
      · rw [hrecorded, htasks]
      · rw [hstored, hnews, happrovals]
      · rw [hcreated, hexact hzero]

end Request

def teaOrchestrator : Orchestrator := ⟨teaCritic, 500, false, "/"⟩

/-- The language model plans a mail search, with or without approval. -/
def searching (requiresApproval : Bool) : LanguageModel :=
  ⟨some (.reply [("steps", .arr [.obj [("description", .str "Search"),
    ("skill_name", .str "gmail.search"), ("requires_approval", .bool requiresApproval)]])]), none⟩

theorem approved_search_raises :
    (∃ p w₁, prepare teaOrchestrator (searching true) "find it" (freshWorld exampleSurroundings) =
      (.ok p, w₁) ∧ p.result.ok = true) ∧
      (handle teaOrchestrator (searching true) "find it" (freshWorld exampleSurroundings)).1 =
        .error (.valueError "approval can only be created for write skills") ∧
      (handle teaOrchestrator (searching true) "find it"
        (freshWorld exampleSurroundings)).2.disk.tasks = [] :=
  ⟨⟨_, _, rfl, rfl⟩, rfl, rfl⟩

theorem plain_search_recorded :
    ∃ p w₁, prepare teaOrchestrator (searching false) "find it" (freshWorld exampleSurroundings) =
      (.ok p, w₁) ∧ OneResultEach teaOrchestrator "find it" p w₁ ∧
      OneRecord teaOrchestrator (searching false) "find it" (freshWorld exampleSurroundings) := by
  have hprepared : ∃ p w₁, prepare teaOrchestrator (searching false) "find it"
      (freshWorld exampleSurroundings) = (.ok p, w₁) ∧ p.result.ok = true ∧
      p.plan.steps = [⟨"2", "Search", some "gmail.search", "", false⟩] := ⟨_, _, rfl, rfl, rfl⟩
  obtain ⟨p, w₁, hrun, hok, hsteps⟩ := hprepared
  have hfresh : FreshIds teaOrchestrator.critic.lib.toRuntime (freshWorld exampleSurroundings) := by
    intro record hmem
    cases hmem
  refine ⟨p, w₁, hrun, (accepted_plan_iff (exampleRuntime_uuid4_injective (fun _ => .returned "")
    fun _ => none) teaLibraries_readsBack hfresh hrun hok).mpr ?_⟩
  rw [hsteps]
  refine ⟨?_, by decide⟩
  intro step hstep
  cases List.mem_singleton.mp hstep
  rw [← raises_iff_unapprovable (by rintro name ⟨⟩; decide)]
  decide

end AcceptedPlan
