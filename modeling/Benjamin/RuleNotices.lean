import Benjamin.RuleCandidates

/-!
# No item is notified twice

What an evaluation has notified is remembered only when it ends without an exception.
So the items of two notifying evaluations are different as long as nothing raises once
a notification has been sent.
-/
namespace RuleNotices

open PyBase ExecutionLedger PlanSchemas AssistantState ApprovalStore RuleSchemas RuleMatching
  RuleEngine RuleCandidates Effect

def IsNotice : Event → Bool
  | .notified .. => true
  | _ => false

/-- How often `notifier.send` has been called. -/
def notices (w : World) : Nat := w.disk.events.countP IsNotice

/-- The evaluation has called `notifier.send`. -/
def Notifies (rt : Runtime) (t : Evaluated) : Prop :=
  notices t.op.world < notices (t.op.outcome rt t.before).2

instance (rt : Runtime) (t : Evaluated) : Decidable (Notifies rt t) :=
  inferInstanceAs (Decidable (_ < _))

def matchedIds (rt : Runtime) (t : Evaluated) : List String :=
  (matchesOf rt t).matching.map Item.itemId

def turn (rt : Runtime) (t : Evaluated) : Turn :=
  turnOf t.before (matchesOf rt t) (started rt t.op).1 (started rt t.op).2

/-- The loop of the evaluation, with the actions `front` behind it, is in the world `w` and
about to take the action. -/
structure Reaches (rt : Runtime) (t : Evaluated) (front : List RuleAction) (action : RuleAction)
    (w : World) : Prop where
  inactive : isCooldownActive rt t.before t.op.world.now = .ok false
  listed : ∃ rest, actionsOf t.before (matchesOf rt t) = front ++ action :: rest
  ran : ∃ executed e, runActions rt t.op.engine (turn rt t) 0 0 front
      (loopStart t.before (matchesOf rt t) (started rt t.op).2) = (.ok executed, e) ∧
    e.world = w ∧ (executed : Int) < t.before.maxActionsPerRun

def IsNotify : RuleAction → Prop
  | .notify .. => True
  | .proposeStep .. => False

/-- The loop gets to a `notify` action. -/
def ReachesNotify (rt : Runtime) (t : Evaluated) : Prop :=
  ∃ front action w, IsNotify action ∧ Reaches rt t front action w

/-- What may raise once a notification is on its way, does not: the notifier itself, a
later `create_pending`, the date of the cooldown, the comparison of the items' times. -/
structure Unobstructed (rt : Runtime) (t : Evaluated) : Prop where
  sends : ∀ front title bodyTemplate w, Reaches rt t front (.notify title bodyTemplate) w →
    rt.notifierSend w.disk.events.length = none
  creates : ∀ front skillName args rationale w,
    Reaches rt t front (.proposeStep skillName args rationale) w →
    (∃ earlier ∈ front, IsNotify earlier) → w.safeMode = false →
    refused w.disk.ledger (actionKey rt (turn rt t) front.length skillName args rationale) =
      false →
    Allowed t.op.engine.permissionsPolicy (requiredScopesForSkill t.op.engine.registry skillName) →
    ∀ stepId, Creatable w (proposedStep stepId skillName args) t.op.engine.registry
      (some (requiredScopesForSkill t.op.engine.registry skillName))
  cooldown : ReachesNotify rt t → 0 < t.before.cooldownMinutes →
    ∃ cooldownUntil, addMinutes t.op.world.now t.before.cooldownMinutes = .ok cooldownUntil
  comparable : ReachesNotify rt t → ∀ i ∈ candidates rt t, ∀ j ∈ candidates rt t,
    BothComparable (parseIso rt i.tsIso) (parseIso rt j.tsIso)

theorem notices_of_wrote {f : Stores → Stores} {w w' : World} (h : Wrote f w w')
    (hf : (f w.disk.toStores).events = w.disk.events) : notices w' = notices w := by
  have hevents : w'.disk.events = w.disk.events := (congrArg Stores.events h.stores).trans hf
  rw [notices, hevents, notices]

theorem proposal_notices {rt : Runtime} {engine : Engine} {t : Turn} {index : Nat}
    {action : RuleAction} {w w' : World} {r : Except PyError Bool} (haction : ¬ IsNotify action)
    (hcase : ActionCase rt engine t index w w' action r) : notices w' = notices w := by
  cases hcase with
  | sent wrote => exact absurd trivial haction
  | unsent e why wrote => exact absurd trivial haction
  | safeMode safe quiet => exact notices_of_wrote quiet rfl
  | deduped unsafe_off refused quiet => exact notices_of_wrote quiet rfl
  | blocked metaUpdate w₁ unsafe_off admitted why started marked =>
    exact (notices_of_wrote marked rfl).trans (notices_of_wrote started rfl)
  | failed e stepId metaUpdate w₁ unsafe_off admitted allowed why started marked =>
    exact (notices_of_wrote marked rfl).trans (notices_of_wrote started rfl)
  | created stepId record w₁ w₂ unsafe_off admitted allowed creatable started made marked =>
    have hmade : notices w₂ = notices w₁ := by
      have hevents := congrArg Stores.events made.wrote.stores
      simp only [notices, hevents, addCreated, Stores.log, List.countP_append, List.countP_cons,
        List.countP_nil, IsNotice]
      rfl
    exact (notices_of_wrote marked rfl).trans (hmade.trans (notices_of_wrote started rfl))

theorem action_notices (rt : Runtime) (engine : Engine) (t : Turn) (index : Nat)
    {action : RuleAction} (e : Evaluation) (haction : ¬ IsNotify action) :
    notices (runAction rt engine t index action e).2.world = notices e.world :=
  proposal_notices haction (runAction_cases rt engine t index action e).2

theorem sameNotices_chains : Chains fun w w' => notices w' = notices w :=
  ⟨fun _ => rfl, fun h h' => h'.trans h⟩

theorem runActions_notifies {rt : Runtime} {engine : Engine} {t : Turn} {index executed : Nat}
    {actions : List RuleAction} {e e' : Evaluation} {r : Except PyError Nat}
    (hrun : runActions rt engine t index executed actions e = (r, e'))
    (h : notices e'.world ≠ notices e.world) :
    ∃ front action rest k e₁, actions = front ++ action :: rest ∧ IsNotify action ∧
      runActions rt engine t index executed front e = (.ok k, e₁) ∧
      (k : Int) < t.rule.maxActionsPerRun := by
  obtain ⟨front, action, rest, k, e₁, hsplit, hfront, hk, hnotified⟩ :=
    runActions_changes sameNotices_chains hrun h
  refine ⟨front, action, rest, k, e₁, hsplit, ?_, hfront, hk⟩
  by_contra haction
  exact hnotified (action_notices rt engine t _ e₁ haction)

section Evaluations

variable {rt : Runtime} {t : Evaluated}

theorem reachesNotify (hinactive : isCooldownActive rt t.before t.op.world.now = .ok false)
    {r : Except PyError Nat} {e : Evaluation}
    (hrun : runActions rt t.op.engine (turn rt t) 0 0 (actionsOf t.before (matchesOf rt t))
      (loopStart t.before (matchesOf rt t) (started rt t.op).2) = (r, e))
    (h : notices e.world ≠ notices (started rt t.op).2) : ReachesNotify rt t := by
  obtain ⟨front, action, rest, k, e₁, hsplit, hnotify, hfront, hk⟩ := runActions_notifies hrun h
  exact ⟨front, action, e₁.world, hnotify, hinactive, ⟨rest, hsplit⟩, k, e₁, hfront, rfl, hk⟩

theorem raised_reaches (hinactive : isCooldownActive rt t.before t.op.world.now = .ok false)
    {exc : PyError} {e : Evaluation}
    (hrun : runActions rt t.op.engine (turn rt t) 0 0 (actionsOf t.before (matchesOf rt t))
      (loopStart t.before (matchesOf rt t) (started rt t.op).2) = (.error exc, e)) :
    ∃ front action k e₁, runActions rt t.op.engine (turn rt t) 0 0 front
        (loopStart t.before (matchesOf rt t) (started rt t.op).2) = (.ok k, e₁) ∧
      Reaches rt t front action e₁.world ∧
      ActionCase rt t.op.engine (turn rt t) front.length e₁.world e.world action (.error exc) := by
  obtain ⟨front, action, rest, k, e₁, hsplit, hfront, hk, hraised⟩ := runActions_raises hrun
  rw [Nat.zero_add] at hraised
  obtain ⟨_, hcase⟩ := runAction_cases rt t.op.engine (turn rt t) front.length action e₁
  rw [hraised] at hcase
  exact ⟨front, action, k, e₁, hfront, ⟨hinactive, ⟨rest, hsplit⟩, k, e₁, hfront, rfl, hk⟩, hcase⟩

/-- Where the loop of an unobstructed evaluation raises, no notification has been sent. -/
theorem raised_unnotified (hclear : Unobstructed rt t)
    (hinactive : isCooldownActive rt t.before t.op.world.now = .ok false) {exc : PyError}
    {e : Evaluation}
    (hrun : runActions rt t.op.engine (turn rt t) 0 0 (actionsOf t.before (matchesOf rt t))
      (loopStart t.before (matchesOf rt t) (started rt t.op).2) = (.error exc, e)) :
    notices e.world = notices (started rt t.op).2 := by
  obtain ⟨front, action, k, e₁, hfront, hreaches, hcase⟩ := raised_reaches hinactive hrun
  have hproposal : ¬ IsNotify action := by
    intro hnotify
    cases hcase with
    | unsent exc' why wrote =>
      rw [hclear.sends _ _ _ _ hreaches] at why
      cases why
    | failed exc' stepId metaUpdate w₁ unsafe_off admitted allowed why started marked =>
      exact hnotify
  have hsilent : ¬ ∃ earlier ∈ front, IsNotify earlier := by
    intro hearlier
    cases hcase with
    | unsent exc' why wrote => exact hproposal trivial
    | failed exc' stepId metaUpdate w₁ unsafe_off admitted allowed why started marked =>
      exact why (hclear.creates _ _ _ _ _ hreaches hearlier unsafe_off admitted allowed stepId)
  rw [proposal_notices hproposal hcase]
  by_contra hnotified
  obtain ⟨earlier, action', rest', _, _, rfl, hnotify, _⟩ := runActions_notifies hfront hnotified
  exact hsilent ⟨action', by simp, hnotify⟩

theorem candidates_comparable {item : Item} (h : item ∈ candidates rt t) :
    BothComparable (parseIso rt item.tsIso) (parseIso rt t.before.state.lastCursorIso) :=
  comparable_of_isNew (candidate_new h).2

theorem quiet_notices {w w' : World} (h : Quiet w w') : notices w' = notices w :=
  notices_of_wrote h rfl

/-- An evaluation remembers what it has considered, or it leaves the cursors alone; an
unobstructed one that leaves them alone has notified nobody. -/
theorem outcome_remembers (rt : Runtime) {t : Evaluated}
    (hafter : t.after = evaluated rt t.before t.op) :
    (∃ state, SameCursors t.before.state state ∧
      Remembered rt (candidates rt t) state t.after.state) ∨
    SameCursors t.before.state t.after.state ∧ (Unobstructed rt t → ¬ Notifies rt t) := by
  obtain ⟨result, state, w', houtcome, hrule, hquiet, hcase⟩ := outcome_cases rt t.op t.before
  have hnow : (started rt t.op).2.now = t.op.world.now := Wrote.now_eq hquiet
  have hstate : t.after.state = state := by rw [hafter, hrule, syncLegacyState]
  have hnotifies : Notifies rt t → notices w' ≠ notices (started rt t.op).2 := by
    intro h
    rw [Notifies, houtcome] at h
    rw [quiet_notices hquiet]
    exact h.ne'
  rw [hstate]
  cases hcase with
  | cooling notes active quiet =>
    exact Or.inr ⟨⟨rfl, rfl, rfl⟩, fun _ h => hnotifies h (quiet_notices quiet)⟩
  | completed notes found executed w₁ state₁ state inactive read acted quiet same remembered =>
    rw [hnow] at read
    have hfound : matchesOf rt t = found := by rw [matchesOf, read]
    left
    rw [candidates, hfound]
    exact ⟨state₁, same, updateCursors_remembers remembered⟩
  | interrupted notes exc w₁ state how quiet same =>
    refine Or.inr ⟨same, fun hclear h => ?_⟩
    have hnotified : notices w₁ ≠ notices (started rt t.op).2 := by
      rw [← quiet_notices quiet]
      exact hnotifies h
    cases how with
    | unread why quiet₁ => exact hnotified (quiet_notices quiet₁)
    | aborted found r inactive read acted why =>
      rw [hnow] at inactive read why
      have hfound : matchesOf rt t = found := by rw [matchesOf, read]
      subst hfound
      obtain ⟨e, hrun, rfl⟩ := acted
      have hreaches := reachesNotify inactive hrun hnotified
      rcases why with rfl | ⟨executed, rfl, ⟨hoverflow, hcooldown, _⟩ | hmixed⟩
      · exact hnotified (raised_unnotified hclear inactive hrun)
      · obtain ⟨cooldownUntil, hok⟩ := hclear.cooldown hreaches hcooldown
        rw [hok] at hoverflow
        cases hoverflow
      · obtain ⟨state', hok⟩ := updateCursors_total
          (fun i (hi : i ∈ candidates rt t) => candidates_comparable hi)
          (hclear.comparable hreaches)
        rw [candidates] at hok
        rw [hok] at hmixed
        cases hmixed

end Evaluations

/-- An evaluation that notifies has matched none of the identifiers that are kept. -/
def Spares (rt : Runtime) (kept : List String) (t : Evaluated) : Prop :=
  Notifies rt t → ∀ x ∈ matchedIds rt t, x ∉ kept

theorem matched_new {rt : Runtime} {t : Evaluated} {x : String} (h : x ∈ matchedIds rt t) :
    x ∉ t.before.state.seenIds ∧ ∃ item ∈ candidates rt t, item.itemId = x := by
  obtain ⟨item, hitem, rfl⟩ := List.mem_map.mp h
  have hconsidered : item ∈ candidates rt t := by
    rcases matchesOf_cases rt t with ⟨-, hnone⟩ | ⟨items, kept, -, -, hkept, hmatching⟩
    · rw [hnone] at hitem
      cases hitem
    · rw [hmatching] at hitem
      rw [candidates, hkept]
      exact matching_subset hitem
  have hnew := (candidate_new hconsidered).2
  exact ⟨((isNew_iff hnew).mp rfl).1, item, hconsidered, rfl⟩

/-- One evaluation: what was kept stays, and with it what an unobstructed one notifies. -/
theorem evaluation_keeps (rt : Runtime) {t : Evaluated}
    (hafter : t.after = evaluated rt t.before t.op) (hclear : Unobstructed rt t)
    {ids kept : List String} (hids : ∀ item ∈ returned t, item.itemId ∈ ids)
    (hlimit : ids.length ≤ (max 1 t.before.state.seenIdsMax).toNat)
    (h : Recent ids kept t.before.state.seenIds) :
    t.after.state.seenIdsMax = t.before.state.seenIdsMax ∧
      ∃ kept', Recent ids kept' t.after.state.seenIds ∧ kept ⊆ kept' ∧
        (Notifies rt t → matchedIds rt t ⊆ kept') := by
  rcases outcome_remembers rt hafter with ⟨state, hsame, hremembered⟩ | ⟨hsame, hsilent⟩
  · have hlimit' : t.after.state.seenIdsMax = t.before.state.seenIdsMax :=
      hremembered.limit.trans hsame.seenIdsMax
    have hcovered : ∀ item ∈ candidates rt t, item.itemId ∈ ids :=
      fun item hitem => hids item (candidate_new hitem).1
    rw [← hsame.seenIdsMax] at hlimit
    rw [← hsame.seenIds] at h
    obtain ⟨kept', hkept', hsub, hall⟩ := hremembered.recent ids kept hcovered hlimit h
    refine ⟨hlimit', kept', hkept', hsub, fun _ x hx => ?_⟩
    obtain ⟨_, item, hitem, rfl⟩ := matched_new hx
    exact hall item hitem
  · rw [← hsame.seenIds] at h
    exact ⟨hsame.seenIdsMax, kept, h, List.Subset.refl _,
      fun hnotifies => absurd hnotifies (hsilent hclear)⟩

theorem no_item_notified_twice (rt : Runtime) (rule : Rule) (calls : List Call) (ids : List String)
    (hids : ∀ t ∈ runOf rt rule calls, ∀ item ∈ returned t, item.itemId ∈ ids)
    (hlimit : ids.length ≤ (max 1 rule.state.seenIdsMax).toNat)
    (hclear : ∀ t ∈ runOf rt rule calls, Unobstructed rt t) :
    (runOf rt rule calls).Pairwise fun t t' =>
      Notifies rt t → Notifies rt t' → ∀ x ∈ matchedIds rt t', x ∉ matchedIds rt t := by
  have hrun : ∀ calls rule kept,
      (∀ t ∈ runOf rt rule calls, ∀ item ∈ returned t, item.itemId ∈ ids) →
      ids.length ≤ (max 1 rule.state.seenIdsMax).toNat →
      (∀ t ∈ runOf rt rule calls, Unobstructed rt t) → Recent ids kept rule.state.seenIds →
      (∀ t ∈ runOf rt rule calls, Spares rt kept t) ∧ (runOf rt rule calls).Pairwise fun t t' =>
        Notifies rt t → Notifies rt t' → ∀ x ∈ matchedIds rt t', x ∉ matchedIds rt t := by
    intro calls
    induction calls with
    | nil => exact fun _ _ _ _ _ _ => ⟨by simp [runOf, SerialRun.transitions], List.Pairwise.nil⟩
    | cons c rest ih =>
      intro rule kept hids hlimit hclear hkept
      rw [runOf_cons] at hids hclear ⊢
      obtain ⟨hsame, kept', hkept', hsub, hnotified⟩ := evaluation_keeps rt rfl
        (hclear _ List.mem_cons_self) (hids _ List.mem_cons_self) hlimit hkept
      rw [← hsame] at hlimit
      obtain ⟨hspares, hpairs⟩ := ih (evaluated rt rule c) kept'
        (fun t ht => hids t (List.mem_cons_of_mem _ ht)) hlimit
        (fun t ht => hclear t (List.mem_cons_of_mem _ ht)) hkept'
      refine ⟨?_, List.pairwise_cons.mpr ⟨?_, hpairs⟩⟩
      · intro t ht
        rcases List.mem_cons.mp ht with rfl | ht
        · exact fun _ x hx hin => (matched_new hx).1 (hkept.seen hin)
        · exact fun hnotifies x hx hin => hspares t ht hnotifies x hx (hsub hin)
      · exact fun t ht hfirst hsecond x hx hin => hspares t ht hsecond x hx (hnotified hfirst hin)
  refine (hrun calls rule [] hids hlimit hclear ⟨[], List.nil_suffix, List.nodup_nil, ?_, ?_⟩).2
  · exact List.nil_subset ids
  · exact List.nil_subset []

def bothMails : Call where
  world := freshWorld { exampleSurroundings with now := 1767398400000000 }
  engine := exampleEngine
  feed := ⟨some (.ok [⟨some "m1", none, "a@b", "hello", "", some "2026-01-01T00:00:00+00:00"⟩,
    ⟨some "m2", none, "a@b", "again", "", some "2026-01-02T00:00:00+00:00"⟩]), none⟩
  ctxCorrelationId := some "c"

theorem unobstructed_of_one_notify {rt : Runtime} {t : Evaluated} {title bodyTemplate : String}
    (hsends : ∀ n, rt.notifierSend n = none)
    (hactions : t.before.actions = [.notify title bodyTemplate])
    (hcooldown : t.before.cooldownMinutes = 0)
    (hcomparable : ∀ i ∈ candidates rt t, ∀ j ∈ candidates rt t,
      BothComparable (parseIso rt i.tsIso) (parseIso rt j.tsIso)) : Unobstructed rt t := by
  refine ⟨fun _ _ _ _ _ => hsends _, ?_, fun _ h => absurd h (by omega), fun _ => hcomparable⟩
  intro front skillName args rationale w hreaches
  obtain ⟨rest, hlisted⟩ := hreaches.listed
  have hmem : RuleAction.proposeStep skillName args rationale ∈
      actionsOf t.before (matchesOf rt t) := by simp [hlisted]
  rw [actionsOf] at hmem
  split at hmem
  · cases hmem
  · rw [hactions] at hmem
    cases List.mem_singleton.mp hmem

theorem second_mail_alone :
    (runOf datedRuntime inboxRule [mailCall "m1" "2026-01-01T00:00:00+00:00", bothMails]).Pairwise
      fun t t' => Notifies datedRuntime t → Notifies datedRuntime t' →
        ∀ x ∈ matchedIds datedRuntime t', x ∉ matchedIds datedRuntime t := by
  refine no_item_notified_twice datedRuntime inboxRule _ ["m1", "m2"] ?_ (by decide) ?_
  · intro t ht
    rcases List.mem_cons.mp ht with rfl | ht
    · decide
    · cases List.mem_singleton.mp ht
      decide
  · intro t ht
    rcases List.mem_cons.mp ht with rfl | ht
    · exact unobstructed_of_one_notify (fun _ => rfl) rfl rfl (by decide)
    · cases List.mem_singleton.mp ht
      exact unobstructed_of_one_notify (fun _ => rfl) rfl rfl (by decide)

def calendarRuntime : Runtime :=
  { exampleRuntime (fun _ => .returned "") fun _ => none with
    fromisoformat := fun s =>
      if s = "2026-01-05" then some (.naive 1767571200000000)
      else if s = "2026-01-04T09:00:00+00:00" then some (.aware 1767517200000000)
      else none }

def calendarRule : Rule := { inboxRule with trigger := ⟨.calendar, 5, none, 5, 72⟩ }

def calendarCall : Call where
  world := freshWorld { exampleSurroundings with now := 1767398400000000 }
  engine := exampleEngine
  feed := ⟨none, some (.ok [⟨some "e1", "meeting", some "2026-01-04T09:00:00+00:00", none, none⟩,
    ⟨some "e2", "holiday", some "2026-01-05", none, none⟩])⟩
  ctxCorrelationId := some "c"

/-- The times of the two events cannot be compared, so every evaluation sends the
notification and then raises before it remembers them. -/
theorem mixed_times_notified_twice :
    let run := runOf calendarRuntime calendarRule [calendarCall, calendarCall]
    run.length = 2 ∧
      (∀ t ∈ run, (returned t).map (fun item => (item.itemId, item.tsIso)) =
        [("e1", some "2026-01-04T09:00:00+00:00"), ("e2", some "2026-01-05")]) ∧
      2 ≤ calendarRule.state.seenIdsMax ∧
      ∀ t ∈ run, Notifies calendarRuntime t ∧ "e1" ∈ matchedIds calendarRuntime t := by
  intro run
  refine ⟨rfl, ?_, by decide, ?_⟩
  · intro t ht
    rcases List.mem_cons.mp ht with rfl | ht
    · decide
    · cases List.mem_singleton.mp ht
      decide
  · intro t ht
    rcases List.mem_cons.mp ht with rfl | ht
    · decide
    · cases List.mem_singleton.mp ht
      decide

end RuleNotices
