import Benjamin.RuleNotices

/-!
# The cooldown of a rule

An evaluation that performs an action stamps the end of the cooldown after its whole
loop. So the cooldown holds as long as nothing raises between the first action that it
performs and the stamp.
-/
namespace RuleCooldown

open PyBase ExecutionLedger PlanSchemas AssistantState ApprovalStore RuleSchemas RuleMatching
  RuleEngine RuleCandidates RuleNotices Effect

def IsPerformed : Event → Bool
  | .notified _ _ _ _ none => true
  | .approvalCreated (.ruleAction _) _ => true
  | _ => false

def performed (w : World) : Nat := w.disk.events.countP IsPerformed

def Performs (rt : Runtime) (t : Evaluated) : Prop :=
  performed t.op.world < performed (t.op.outcome rt t.before).2

instance (rt : Runtime) (t : Evaluated) : Decidable (Performs rt t) :=
  inferInstanceAs (Decidable (_ < _))

def Acting (rt : Runtime) (t : Evaluated) (front : List RuleAction) (action : RuleAction)
    (w : World) : Prop :=
  Reaches rt t front action w ∧ performed w ≠ performed (started rt t.op).2

def ReachesCounted (rt : Runtime) (t : Evaluated) : Prop :=
  ∃ front action e, Reaches rt t front action e.world ∧
    (runAction rt t.op.engine (turn rt t) front.length action e).1 = .ok true

/-- Once an action has been performed, the later ones do not raise, nor does the date of
the cooldown. -/
structure Unbroken (rt : Runtime) (t : Evaluated) : Prop where
  sends : ∀ front title bodyTemplate w, Acting rt t front (.notify title bodyTemplate) w →
    rt.notifierSend w.disk.events.length = none
  creates : ∀ front skillName args rationale w,
    Acting rt t front (.proposeStep skillName args rationale) w → w.safeMode = false →
    refused w.disk.ledger (actionKey rt (turn rt t) front.length skillName args rationale) =
      false →
    Allowed t.op.engine.permissionsPolicy (requiredScopesForSkill t.op.engine.registry skillName) →
    ∀ stepId, Creatable w (proposedStep stepId skillName args) t.op.engine.registry
      (some (requiredScopesForSkill t.op.engine.registry skillName))
  cooldown : ReachesCounted rt t →
    ∃ cooldownUntil, addMinutes t.op.world.now t.before.cooldownMinutes = .ok cooldownUntil

theorem performed_of_wrote {f : Stores → Stores} {w w' : World} (h : Wrote f w w')
    (hf : (f w.disk.toStores).events = w.disk.events) : performed w' = performed w := by
  have hevents : w'.disk.events = w.disk.events := (congrArg Stores.events h.stores).trans hf
  rw [performed, hevents, performed]

theorem quiet_performed {w w' : World} (h : Quiet w w') : performed w' = performed w :=
  performed_of_wrote h rfl

theorem performed_log {w w' : World} {event : Event} (h : Wrote (fun d => d.log event) w w') :
    performed w' = performed w + if IsPerformed event then 1 else 0 := by
  have hevents : w'.disk.events = w.disk.events ++ [event] := congrArg Stores.events h.stores
  rw [performed, hevents, List.countP_append, List.countP_singleton, performed]

/-- What the answer of an action adds. -/
def gained : Except PyError Bool → Nat
  | .ok true => 1
  | _ => 0

theorem action_performed {rt : Runtime} {engine : Engine} {t : Turn} {index : Nat}
    {action : RuleAction} {w w' : World} {r : Except PyError Bool}
    (hcase : ActionCase rt engine t index w w' action r) :
    performed w' = performed w + gained r := by
  cases hcase with
  | sent wrote => exact performed_log wrote
  | unsent e why wrote => exact performed_log wrote
  | safeMode safe quiet => exact quiet_performed quiet
  | deduped unsafe_off refused quiet => exact quiet_performed quiet
  | blocked metaUpdate w₁ unsafe_off admitted why started marked =>
    exact (performed_of_wrote marked rfl).trans (performed_of_wrote started rfl)
  | failed e stepId metaUpdate w₁ unsafe_off admitted allowed why started marked =>
    exact (performed_of_wrote marked rfl).trans (performed_of_wrote started rfl)
  | created stepId record w₁ w₂ unsafe_off admitted allowed creatable started made marked =>
    have hstart : performed w₁ = performed w := performed_of_wrote started rfl
    have hmark : performed w' = performed w₂ := performed_of_wrote marked rfl
    have hmade : performed w₂ = performed w₁ + 1 := by
      have hevents := congrArg Stores.events made.wrote.stores
      rw [performed, hevents]
      simp only [addCreated, Stores.log, List.countP_append, List.countP_singleton, IsPerformed,
        performed, if_true]
    rw [hmark, hmade, hstart]
    rfl

theorem ran_performed {rt : Runtime} {engine : Engine} {t : Turn} {index executed : Nat}
    {actions : List RuleAction} {w w' : World} {r : Except PyError Nat}
    (h : Ran rt engine t index executed actions w w' r) {total : Nat} (hr : r = .ok total) :
    performed w' + executed = performed w + total := by
  induction h with
  | finished index executed w =>
    cases hr
    rfl
  | capped index executed action rest w cap =>
    cases hr
    rfl
  | raised e below first => cases hr
  | next counted below first others ih =>
    have hfirst := action_performed first
    have hothers := ih hr
    cases counted with
    | true =>
      simp only [gained, if_true] at hfirst hothers
      omega
    | false =>
      simp only [gained, Bool.false_eq_true, if_false] at hfirst hothers
      omega

theorem samePerformed_chains : Chains fun w w' => performed w' = performed w :=
  ⟨fun _ => rfl, fun h h' => h'.trans h⟩

theorem runActions_performs {rt : Runtime} {engine : Engine} {t : Turn} {index executed : Nat}
    {actions : List RuleAction} {e e' : Evaluation} {r : Except PyError Nat}
    (hrun : runActions rt engine t index executed actions e = (r, e'))
    (h : performed e'.world ≠ performed e.world) :
    ∃ front action rest k e₁, actions = front ++ action :: rest ∧
      runActions rt engine t index executed front e = (.ok k, e₁) ∧
      (k : Int) < t.rule.maxActionsPerRun ∧
      (runAction rt engine t (index + front.length) action e₁).1 = .ok true := by
  obtain ⟨front, action, rest, k, e₁, hsplit, hfront, hk, hperformed⟩ :=
    runActions_changes samePerformed_chains hrun h
  refine ⟨front, action, rest, k, e₁, hsplit, hfront, hk, ?_⟩
  have hgained :=
    action_performed (runAction_cases rt engine t (index + front.length) action e₁).2
  cases hanswer : (runAction rt engine t (index + front.length) action e₁).1 with
  | error exc =>
    rw [hanswer] at hgained
    exact absurd hgained hperformed
  | ok counted =>
    cases counted with
    | true => rfl
    | false =>
      rw [hanswer] at hgained
      exact absurd hgained hperformed

/-- The loop has led to the world, and if it has counted an action the state has the end
of a cooldown whose date is representable. -/
def Stamps (engine : Engine) (rt : Runtime) (correlationId : String) (rule : Rule)
    (found : Matches) (w w' : World) (cooldownUntilIso : Option String) : Prop :=
  ∃ answer e, runActions rt engine (turnOf rule found correlationId w) 0 0 (actionsOf rule found)
      (loopStart rule found w) = (answer, e) ∧ performed w' = performed e.world ∧
    ∀ executed cooldownUntil, answer = .ok executed → 0 < executed → 0 < rule.cooldownMinutes →
      addMinutes w.now rule.cooldownMinutes = .ok cooldownUntil →
        cooldownUntilIso = some (isoformat cooldownUntil)

/-- An evaluation performs nothing, or its loop stamps the cooldown. -/
def Outcome (engine : Engine) (rt : Runtime) (feed : Feed) (correlationId : String) (rule : Rule)
    (w w' : World) (cooldownUntilIso : Option String) : Prop :=
  performed w' = performed w ∨
    ∃ found, isCooldownActive rt rule w.now = .ok false ∧
      computeMatches rt w.now feed rule false = .ok found ∧
      Stamps engine rt correlationId rule found w w' cooldownUntilIso

theorem Outcome.then_quiet {engine : Engine} {rt : Runtime} {feed : Feed} {correlationId : String}
    {rule : Rule} {w w₁ w₂ : World} {cooldownUntilIso : Option String}
    (h : Outcome engine rt feed correlationId rule w w₁ cooldownUntilIso) (hquiet : Quiet w₁ w₂) :
    Outcome engine rt feed correlationId rule w w₂ cooldownUntilIso := by
  have hsame := quiet_performed hquiet
  rcases h with hidle | ⟨found, hcooling, hread, answer, e, hrun, hworld, hstamp⟩
  · exact Or.inl (hsame.trans hidle)
  · exact Or.inr ⟨found, hcooling, hread, answer, e, hrun, hsame.trans hworld, hstamp⟩

section Evaluating

variable (rt : Runtime) (engine : Engine) (feed : Feed) (correlationId : String) (rule : Rule)

theorem actOnMatch_stamps (t : Turn) (now : Int) (e : Evaluation) :
    Ends (actOnMatch rt engine t now) e fun _ e' =>
      ∃ answer e₁, runActions rt engine t 0 0 t.rule.actions e = (answer, e₁) ∧
        e₁.world = e'.world ∧
        ∀ executed cooldownUntil, answer = .ok executed → 0 < executed →
          0 < t.rule.cooldownMinutes → addMinutes now t.rule.cooldownMinutes = .ok cooldownUntil →
            e'.rule.state.cooldownUntilIso = some (isoformat cooldownUntil) := by
  refine actOnMatch_rule rt engine t now e ?_ ?_
  · intro exc e₁ hrun
    refine ⟨.error exc, e₁, hrun, rfl, ?_⟩
    intro executed _ herror
    cases herror
  · intro executed e₁ e₂ hrun hworld₂ _
    split_ifs with hcooldown
    · constructor
      · intro exc hexc
        refine ⟨.ok executed, e₁, hrun, hworld₂.symm, ?_⟩
        intro _ other _ _ _ hother
        cases hexc.symm.trans hother
      · intro cooldownUntil hdate e₃ hworld₃ hrule₃
        refine ⟨.ok executed, e₁, hrun, (hworld₃.trans hworld₂).symm, ?_⟩
        intro _ other _ _ _ hother
        cases hdate.symm.trans hother
        rw [hrule₃]
    · refine ⟨.ok executed, e₁, hrun, hworld₂.symm, ?_⟩
      intro other _ hsame hexecuted hminutes _
      cases hsame
      exact absurd ⟨hminutes, hexecuted⟩ hcooldown

theorem actIfMatched_stamps (found : Matches) (w : World) :
    Ends (actIfMatched rt engine (turnOf rule found correlationId w) w.now) (loopStart rule found w)
      fun _ e' => Stamps engine rt correlationId rule found w e'.world
        e'.rule.state.cooldownUntilIso := by
  rw [actIfMatched]
  by_cases hmatched : found.matching = []
  · rw [if_pos (show (turnOf rule found correlationId w).matching = [] from hmatched)]
    refine ⟨.ok 0, loopStart rule found w, ?_, rfl, ?_⟩
    · rw [actionsOf, if_pos hmatched]
      rfl
    · intro executed _ hzero hpositive
      cases hzero
      omega
  · rw [if_neg (show ¬ (turnOf rule found correlationId w).matching = [] from hmatched)]
    refine (actOnMatch_stamps rt engine (turnOf rule found correlationId w) w.now
      (loopStart rule found w)).mono ?_
    rintro _ e' ⟨answer, e₁, hrun, hworld, hstamp⟩
    refine ⟨answer, e₁, ?_, by rw [hworld], hstamp⟩
    rw [actionsOf, if_neg hmatched]
    exact hrun

theorem tryEvaluate_stamps (w : World) :
    Ends (tryEvaluate rt engine feed correlationId w.now rule) ⟨w, runStarted rule w, []⟩
      fun _ e' => Outcome engine rt feed correlationId rule w e'.world
        e'.rule.state.cooldownUntilIso := by
  refine tryEvaluate_rule rt engine feed correlationId rule w ?_ ?_ ?_
  · intro exc _
    exact Or.inl rfl
  · intro _
    exact Or.inl rfl
  · intro found hactive hread
    refine (actIfMatched_stamps rt engine correlationId rule found w).mono ?_
    intro r e hstamps
    cases r with
    | error exc => exact Or.inr ⟨found, hactive, hread, hstamps⟩
    | ok _ =>
      constructor
      · intro exc _
        exact Or.inr ⟨found, hactive, hread, hstamps⟩
      · intro state hstate e' hquiet hrule
        -- The cursors move after the stamp and leave it.
        have hkept : e'.rule.state.cooldownUntilIso = e.rule.state.cooldownUntilIso := by
          rw [hrule, syncLegacyState]
          exact (updateCursors_remembers hstate).cooldown
        rw [hkept]
        exact Outcome.then_quiet (Or.inr ⟨found, hactive, hread, hstamps⟩) hquiet

/-- What an evaluation performs, it stamps, in the rule that it leaves. -/
theorem evaluateRule_stamps (ctxCorrelationId : Option String) {correlationId : String}
    {w w₀ : World} (hdrawn : ruleCorrelation rt ctxCorrelationId w = (.ok correlationId, w₀)) :
    Returns (evaluateRule rt engine feed ctxCorrelationId rule) w fun answer w' =>
      Outcome engine rt feed correlationId rule w₀ w' answer.2.state.cooldownUntilIso :=
  evaluateRule_rule rt engine feed rule (P := fun _ w' rule' =>
    Outcome engine rt feed correlationId rule w₀ w' rule'.state.cooldownUntilIso) hdrawn
    (tryEvaluate_stamps rt engine feed correlationId rule w₀) (fun _ _ houtcome => houtcome)
    fun _ _ houtcome _ _ hquiet => houtcome.then_quiet hquiet

end Evaluating

section Evaluations

variable {rt : Runtime} {t : Evaluated}

theorem evaluation_outcome (hafter : t.after = evaluated rt t.before t.op) :
    Outcome t.op.engine rt t.op.feed (started rt t.op).1 t.before (started rt t.op).2
      (t.op.outcome rt t.before).2 t.after.state.cooldownUntilIso := by
  obtain ⟨correlationId, w₀, hdrawn, -⟩ :=
    ruleCorrelation_returns rt t.op.ctxCorrelationId t.op.world
  have hstarted : started rt t.op = (correlationId, w₀) := by rw [started, hdrawn]
  obtain ⟨answer, w', hrun, houtcome⟩ :=
    evaluateRule_stamps rt t.op.engine t.op.feed t.before t.op.ctxCorrelationId hdrawn
  have hcall : t.op.outcome rt t.before = (.ok answer, w') := hrun
  rw [hafter, evaluated, hcall, hstarted]
  exact houtcome

theorem started_now (rt : Runtime) (c : Call) : (started rt c).2.now = c.world.now := by
  obtain ⟨correlationId, w₀, hdrawn, hquiet⟩ :=
    ruleCorrelation_returns rt c.ctxCorrelationId c.world
  rw [started, hdrawn]
  exact Wrote.now_eq hquiet

theorem started_performed (rt : Runtime) (c : Call) :
    performed (started rt c).2 = performed c.world := by
  obtain ⟨correlationId, w₀, hdrawn, hquiet⟩ :=
    ruleCorrelation_returns rt c.ctxCorrelationId c.world
  rw [started, hdrawn]
  exact quiet_performed hquiet

/-- The loop of an unbroken evaluation does not raise once it has performed an action. -/
theorem unbroken_returns (hclear : Unbroken rt t)
    (hinactive : isCooldownActive rt t.before t.op.world.now = .ok false) {exc : PyError}
    {e : Evaluation}
    (hrun : runActions rt t.op.engine (turn rt t) 0 0 (actionsOf t.before (matchesOf rt t))
      (loopStart t.before (matchesOf rt t) (started rt t.op).2) = (.error exc, e)) :
    performed e.world = performed (started rt t.op).2 := by
  obtain ⟨front, action, k, e₁, hfront, hreaches, hcase⟩ := raised_reaches hinactive hrun
  have hgained : performed e.world = performed e₁.world := action_performed hcase
  rw [hgained]
  by_contra hperformed
  have hacting : Acting rt t front action e₁.world := ⟨hreaches, hperformed⟩
  cases hcase with
  | unsent exc' why wrote =>
    rw [hclear.sends _ _ _ _ hacting] at why
    cases why
  | failed exc' stepId metaUpdate w₁ unsafe_off admitted allowed why started marked =>
    exact why (hclear.creates _ _ _ _ _ hacting unsafe_off admitted allowed stepId)

theorem performs_stamps (hafter : t.after = evaluated rt t.before t.op) (hclear : Unbroken rt t)
    (hminutes : 0 < t.before.cooldownMinutes) (hperforms : Performs rt t) :
    ∃ cooldownUntil, addMinutes t.op.world.now t.before.cooldownMinutes = .ok cooldownUntil ∧
      t.after.state.cooldownUntilIso = some (isoformat cooldownUntil) := by
  have hnow := started_now rt t.op
  have hbefore := started_performed rt t.op
  rw [Performs] at hperforms
  rcases evaluation_outcome hafter
      with hidle | ⟨found, hcooling, hread, answer, e, hrun, hworld, hstamp⟩
  · omega
  · rw [hnow] at hcooling hread hstamp
    have hfound : matchesOf rt t = found := by rw [matchesOf, hread]
    subst hfound
    have hacted : performed e.world ≠ performed (started rt t.op).2 := by omega
    cases answer with
    | error exc => exact absurd (unbroken_returns hclear hcooling hrun) hacted
    | ok executed =>
      have hran := (runActions_ran rt t.op.engine (turn rt t) 0 0
        (actionsOf t.before (matchesOf rt t))
        (loopStart t.before (matchesOf rt t) (started rt t.op).2)).2
      rw [show runActions rt t.op.engine (turn rt t) 0 0 (actionsOf t.before (matchesOf rt t))
        (loopStart t.before (matchesOf rt t) (started rt t.op).2) = (.ok executed, e) from hrun]
        at hran
      have hcounted : performed e.world + 0 = performed (started rt t.op).2 + executed :=
        ran_performed hran rfl
      obtain ⟨front, action, rest, k, e₁, hsplit, hfront, hk, htrue⟩ :=
        runActions_performs hrun hacted
      rw [Nat.zero_add] at htrue
      obtain ⟨cooldownUntil, hdate⟩ := hclear.cooldown
        ⟨front, action, e₁, ⟨hcooling, ⟨rest, hsplit⟩, k, e₁, hfront, rfl, hk⟩, htrue⟩
      refine ⟨cooldownUntil, hdate, hstamp executed cooldownUntil rfl ?_ hminutes hdate⟩
      omega

structure Untouched (state state' : RuleState) : Prop where
  seenIds : state'.seenIds = state.seenIds
  lastCursorIso : state'.lastCursorIso = state.lastCursorIso
  cooldownUntilIso : state'.cooldownUntilIso = state.cooldownUntilIso
  lastMatchIso : state'.lastMatchIso = state.lastMatchIso

theorem cooling_skips (hafter : t.after = evaluated rt t.before t.op)
    (hactive : isCooldownActive rt t.before t.op.world.now = .ok true) :
    ¬ Performs rt t ∧ Untouched t.before.state t.after.state := by
  obtain ⟨result, state, w', houtcome, hrule, hquiet, hcase⟩ := outcome_cases rt t.op t.before
  have hnow := started_now rt t.op
  have hstate : t.after.state = state := by rw [hafter, hrule, syncLegacyState]
  rw [hstate]
  cases hcase with
  | cooling notes active quiet =>
    refine ⟨?_, ⟨rfl, rfl, rfl, rfl⟩⟩
    have hsame := quiet_performed (quiet_chains.trans hquiet quiet)
    have hnone : ¬ performed t.op.world < performed w' := by omega
    rw [Performs, houtcome]
    exact hnone
  | completed notes found executed w₁ state₁ state inactive read acted quiet same remembered =>
    rw [hnow, hactive] at inactive
    cases inactive
  | interrupted notes exc w₁ state how quiet same =>
    cases how with
    | unread why quiet₁ =>
      rw [hnow, hactive] at why
      rcases why with herror | ⟨hfalse, -⟩
      · cases herror
      · cases hfalse
    | aborted found r inactive read acted why =>
      rw [hnow, hactive] at inactive
      cases inactive

end Evaluations

theorem evaluated_minutes (rt : Runtime) (rule : Rule) (c : Call) :
    (evaluated rt rule c).cooldownMinutes = rule.cooldownMinutes := by
  obtain ⟨result, state, w', houtcome, hrule, -⟩ := outcome_cases rt c rule
  rw [hrule]
  rfl

theorem addMinutes_ok {now minutes t : Int} (h : addMinutes now minutes = .ok t) :
    t = now + minutes * 60000000 := by
  simp only [addMinutes] at h
  split at h
  · exact (Except.ok.inj h).symm
  · cases h

theorem cooldown_active {rt : Runtime} {rule : Rule} {cooldownUntil now : Int}
    (hminutes : 0 < rule.cooldownMinutes)
    (hstamp : rule.state.cooldownUntilIso = some (isoformat cooldownUntil))
    (hparse : rt.fromisoformat (isoformat cooldownUntil) = some (.aware cooldownUntil))
    (hearly : now < cooldownUntil) : isCooldownActive rt rule now = .ok true := by
  have htruthy : truthy (some (isoformat cooldownUntil)) = some (isoformat cooldownUntil) := by
    simp [truthy, Option.filter, isoformat]
  have hread : parseIso rt rule.state.cooldownUntilIso = some (.aware cooldownUntil) := by
    rw [hstamp, parseIso, htruthy, Option.bind_some, hparse]
  have hpositive : ¬ rule.cooldownMinutes ≤ 0 := by omega
  rw [isCooldownActive, if_neg hpositive, hread]
  exact congrArg Except.ok (decide_eq_true hearly)

/-- From a stamped rule on, nothing is performed before the end of the cooldown. -/
theorem stamped_run (rt : Runtime) {cooldownUntil : Int}
    (hparse : rt.fromisoformat (isoformat cooldownUntil) = some (.aware cooldownUntil))
    (calls : List Call) (rule : Rule) (hminutes : 0 < rule.cooldownMinutes)
    (hstamp : rule.state.cooldownUntilIso = some (isoformat cooldownUntil))
    (htimes : calls.Pairwise fun c c' => c.world.now ≤ c'.world.now) :
    ∀ t ∈ runOf rt rule calls, t.op.world.now < cooldownUntil → ¬ Performs rt t := by
  induction calls generalizing rule with
  | nil => exact fun t ht => nomatch ht
  | cons c rest ih =>
    obtain ⟨hlater, hrest⟩ := List.pairwise_cons.mp htimes
    intro t ht hearly
    by_cases hfirst : c.world.now < cooldownUntil
    · have hskipped := cooling_skips (t := ⟨rule, c, evaluated rt rule c⟩) rfl
        (cooldown_active hminutes hstamp hparse hfirst)
      rcases List.mem_cons.mp ht with rfl | ht
      · exact hskipped.1
      · refine ih (evaluated rt rule c) ?_ ?_ hrest t ht hearly
        · rw [evaluated_minutes]
          exact hminutes
        · rw [← hstamp]
          exact hskipped.2.cooldownUntilIso
    · -- The later calls come after the cooldown too.
      exfalso
      rcases List.mem_cons.mp ht with rfl | ht
      · exact hfirst hearly
      · have hafter := hlater t.op (SerialRun.op_mem ht)
        omega

def tenMinutes (notifierSend : Nat → Option PyError) : Runtime :=
  { exampleRuntime (fun _ => .returned "") notifierSend with
    fromisoformat := fun s =>
      if s = "2026-01-03T00:10:00+00:00" then some (.aware 1767399000000000)
      else if s = "2026-01-03T00:11:00+00:00" then some (.aware 1767399060000000)
      else none }

def coolingRule (actions : List RuleAction) : Rule :=
  { inboxRule with actions, cooldownMinutes := 10 }

def callAt (seconds : Int) (id : String) : Call where
  world := freshWorld { exampleSurroundings with now := 1767398400000000 + seconds * 1000000 }
  engine := exampleEngine
  feed := oneMessage id none
  ctxCorrelationId := some "c"

theorem unbroken_of_one_notify {rt : Runtime} {t : Evaluated} {title bodyTemplate : String}
    {cooldownUntil : Int} (hsends : ∀ n, rt.notifierSend n = none)
    (hactions : t.before.actions = [.notify title bodyTemplate])
    (hdate : addMinutes t.op.world.now t.before.cooldownMinutes = .ok cooldownUntil) :
    Unbroken rt t := by
  refine ⟨fun _ _ _ _ _ => hsends _, ?_, fun _ => ⟨cooldownUntil, hdate⟩⟩
  intro front skillName args rationale w hacting
  obtain ⟨rest, hlisted⟩ := hacting.1.listed
  have hmem : RuleAction.proposeStep skillName args rationale ∈
      actionsOf t.before (matchesOf rt t) := by simp [hlisted]
  rw [actionsOf] at hmem
  split at hmem
  · cases hmem
  · rw [hactions] at hmem
    cases List.mem_singleton.mp hmem

def outage : Runtime :=
  tenMinutes fun n => if n = 0 then none else some (.other "HTTP Error 503: Service Unavailable")

def twoNotices : Rule := coolingRule [.notify "Inbox" "mail", .notify "Inbox" "more mail"]

end RuleCooldown
