import Benjamin.RulePreview

/-!
# A dry run and the run

What a preview plans unblocked, beside what an evaluation of the same rule from the same
world does. The preview counts blocked actions against the cap and looks at nothing that
makes an action raise, so the two agree only as long as neither makes a difference.
-/
namespace DryRun

open PyBase ExecutionLedger PlanSchemas SecurityPolicy LedgerKeys AssistantState ApprovalStore
  RuleSchemas RuleMatching RuleEngine RulePreview CappedSelection Effect

/-- An action as the user sees it. -/
inductive Performed where
  | notification (title body : String)
  | approval (skillName args rationale : String)
  deriving DecidableEq, Repr

/-- What an event shows; a notification that raised has not been sent. -/
def ofEvent : Event → Option Performed
  | .notified title body _ _ none => some (.notification title body)
  | .notified _ _ _ _ (some _) => none
  | .approvalCreated _ record =>
    some (.approval (record.step.skillName.getD "") record.step.args record.rationale)
  | .skillRun .. => none

def ofPlanned : RulePlannedAction → Option Performed
  | .notify title body => some (.notification title body)
  | .proposeStep skillName args rationale _ _ blocked _ =>
    if blocked then none else some (.approval skillName (dumps (.obj args)) rationale)

section Planned

variable (engine : Engine) (safeMode : Bool)

def unblocked : RuleAction → Bool
  | .notify .. => true
  | .proposeStep skillName _ _ =>
    (blockedReason engine safeMode (requiredScopesForSkill engine.registry skillName)).isNone

def performance (t : Turn) : RuleAction → Performed
  | .notify title bodyTemplate => .notification title (notifyBody t bodyTemplate)
  | .proposeStep skillName args rationale => .approval skillName (dumps (.obj args)) rationale

theorem ofPlanned_planAction (t : Turn) (action : RuleAction) :
    ofPlanned (planAction engine safeMode t.matching t.nowIso action) =
      if unblocked engine safeMode action then some (performance t action) else none := by
  cases action with
  | notify title bodyTemplate => rfl
  | proposeStep skillName args rationale =>
    have hreason : ∀ (reason : Option String) (shown : Performed),
        (if reason.isSome then none else some shown) =
          if reason.isNone then some shown else none := by
      intro reason shown
      cases reason <;> rfl
    exact hreason _ _

theorem planned_announced (t : Turn) (notes : List String) (hmatched : t.matching ≠ []) :
    (planActions engine safeMode t.matching t.nowIso t.rule notes).1.filterMap ofPlanned =
      (selectAfter (unblocked engine safeMode) t.rule.maxActionsPerRun.toNat t.rule.actions).map
        (performance t) := by
  rw [planActions_planned t.rule notes hmatched, List.filterMap_map, selectAfter,
    ← List.filterMap_eq_map, List.filterMap_filter]
  exact List.filterMap_congr fun action _ => ofPlanned_planAction engine safeMode t action

end Planned

section Acting

variable (rt : Runtime) (engine : Engine)

/-- Nothing raises in an unblocked action that is the one at the given place to be
performed. -/
def Succeeds (w : World) (place : Nat) : RuleAction → Prop
  | .notify .. => rt.notifierSend (w.disk.events.length + place) = none
  | .proposeStep skillName args _ => Creatable w (proposedStep "" skillName args) engine.registry
      (some (requiredScopesForSkill engine.registry skillName))

theorem succeeds_shift {w w' : World} (hsame : w'.toSurroundings = w.toSurroundings) {n : Nat}
    (hevents : w'.disk.events.length = w.disk.events.length + n) (place : Nat)
    (action : RuleAction) :
    Succeeds rt engine w' place action ↔ Succeeds rt engine w (place + n) action := by
  cases action with
  | notify title bodyTemplate =>
    dsimp only [Succeeds]
    rw [hevents, Nat.add_assoc, Nat.add_comm n place]
  | proposeStep skillName args rationale => exact creatable_congr hsame _ _ _

variable {rt engine} {t : Turn} {index : Nat} {w w' : World} {action : RuleAction}

structure Done (rt : Runtime) (engine : Engine) (t : Turn) (action : RuleAction) (w w' : World) :
    Prop where
  possible : Succeeds rt engine w 0 action
  shown : ∃ event, w'.disk.events = w.disk.events ++ [event] ∧
    ofEvent event = some (performance t action)

theorem unblocked_propose {skillName rationale : String} {args : Dict} :
    unblocked engine w.safeMode (.proposeStep skillName args rationale) = true ↔
      w.safeMode = false ∧
        Allowed engine.permissionsPolicy (requiredScopesForSkill engine.registry skillName) := by
  rw [← blockedReason_none_iff]
  exact Option.isNone_iff_eq_none

theorem wrote_events {f : Stores → Stores} {w w' : World} (h : Wrote f w w') :
    w'.disk.events = (f w.disk.toStores).events :=
  congrArg Stores.events h.stores

/-- An action that the ledger does not refuse is passed over where it is blocked, and
performed or raised on where it is not. -/
theorem action_outcome {r : Except PyError Bool} (h : ActionCase rt engine t index w w' action r)
    (hfresh : ∀ skillName args rationale, action = .proposeStep skillName args rationale →
      refused w.disk.ledger (actionKey rt t index skillName args rationale) = false)
    (hsent : ∀ title bodyTemplate, action = .notify title bodyTemplate → r = .ok true →
      rt.notifierSend w.disk.events.length = none) :
    (unblocked engine w.safeMode action = false ∧ r = .ok false ∧
        w'.disk.events = w.disk.events) ∨
      (unblocked engine w.safeMode action = true ∧ r = .ok true ∧ Done rt engine t action w w') ∨
      (unblocked engine w.safeMode action = true ∧ (∃ e, r = .error e) ∧
        ¬ Succeeds rt engine w 0 action) := by
  cases h with
  | sent wrote =>
    exact .inr (.inl ⟨rfl, rfl, hsent _ _ rfl rfl, _, wrote_events wrote, rfl⟩)
  | unsent e why wrote =>
    refine .inr (.inr ⟨rfl, ⟨e, rfl⟩, fun hsucceeds => ?_⟩)
    cases hsucceeds.symm.trans why
  | @safeMode skillName rationale args safe quiet =>
    refine .inl ⟨?_, rfl, wrote_events quiet⟩
    rw [← Bool.not_eq_true, unblocked_propose, safe]
    exact fun h => absurd h.1 (by decide)
  | deduped unsafe_off href quiet => cases (hfresh _ _ _ rfl).symm.trans href
  | blocked metaUpdate w₁ unsafe_off admitted why started marked =>
    refine .inl ⟨?_, rfl, (wrote_events marked).trans (wrote_events started)⟩
    rw [← Bool.not_eq_true, unblocked_propose]
    exact fun h => why h.2
  | failed e stepId metaUpdate w₁ unsafe_off admitted allowed why started marked =>
    exact .inr (.inr ⟨unblocked_propose.mpr ⟨unsafe_off, allowed⟩, ⟨e, rfl⟩, why⟩)
  | @created skillName rationale args stepId record w₁ w₂ unsafe_off admitted allowed creatable
      started made marked =>
    have hevents : w'.disk.events = w.disk.events ++
        [.approvalCreated (.ruleAction (actionKey rt t index skillName args rationale)) record] :=
      (wrote_events marked).trans ((wrote_events made.wrote).trans
        (congrArg (· ++ [_]) (wrote_events started)))
    refine .inr (.inl ⟨unblocked_propose.mpr ⟨unsafe_off, allowed⟩, rfl, creatable, _, hevents, ?_⟩)
    rw [ofEvent, made.step_eq, made.rationale_eq]
    rfl

theorem runAction_sends (title bodyTemplate : String) (e : Evaluation) :
    Ends (runAction rt engine t index (.notify title bodyTemplate)) e fun r _ =>
      r = .ok true → rt.notifierSend e.world.disk.events.length = none := by
  have hsend : Ends (send rt title (notifyBody t bodyTemplate) t.rule.id t.correlationId) e.world
      fun r _ => r = .ok () → rt.notifierSend e.world.disk.events.length = none := by
    unfold Ends send
    cases rt.notifierSend e.world.disk.events.length with
    | none => exact fun _ => rfl
    | some exc => exact nofun
  refine Ends.bind (inWorld_ends hsend) ?_ ?_
  · intro _ e₁ hsent
    exact fun _ => hsent.1 rfl
  · exact fun _ _ _ => nofun

def Unrecorded (rt : Runtime) (t : Turn) (index : Nat) (actions : List RuleAction)
    (f : LedgerFile) : Prop :=
  ∀ j skillName args rationale, actions[j]? = some (.proposeStep skillName args rationale) →
    latestRecord f (actionKey rt t (index + j) skillName args rationale) = none

theorem startedAction_records {s : Surroundings} {key : String} {d : Stores}
    {record : LedgerRecord} (h : record ∈ readAllRecords (startedAction s t key d).ledger) :
    record ∈ readAllRecords d.ledger ∨ record.key = key := by
  refine (mem_tryStart h).imp_right ?_
  rintro rfl
  rfl

theorem markKey_records {s : Surroundings} {key : String} {status : LedgerStatus}
    {metaUpdate : Dict} {d : Stores} {record : LedgerRecord}
    (h : record ∈ readAllRecords (markKey s key status metaUpdate d).ledger) :
    record ∈ readAllRecords d.ledger ∨ record.key = key := by
  refine (mem_mark h).imp_right ?_
  rintro rfl
  exact markedRecord_key ..

theorem claimed_records {s : Surroundings} {key : String} {status : LedgerStatus}
    {metaUpdate : Dict} {w₁ w₂ : World} (started : Wrote (startedAction s t key) w w₁)
    (kept : w₂.disk.ledger = w₁.disk.ledger)
    (marked : Wrote (markKey s key status metaUpdate) w₂ w') :
    ∀ record ∈ readAllRecords w'.disk.ledger,
      record ∈ readAllRecords w.disk.ledger ∨ record.key = key := by
  intro record hrecord
  rw [show w'.disk.ledger = _ from congrArg Stores.ledger marked.stores] at hrecord
  rcases markKey_records hrecord with hold | hown
  · rw [kept, show w₁.disk.ledger = _ from congrArg Stores.ledger started.stores] at hold
    exact startedAction_records hold
  · exact .inr hown

theorem action_records {r : Except PyError Bool} (h : ActionCase rt engine t index w w' action r) :
    ∀ record ∈ readAllRecords w'.disk.ledger, record ∈ readAllRecords w.disk.ledger ∨
      ∃ skillName args rationale, record.key = actionKey rt t index skillName args rationale := by
  have hkept : ∀ {f : Stores → Stores}, Wrote f w w' → (f w.disk.toStores).ledger = w.disk.ledger →
      ∀ record ∈ readAllRecords w'.disk.ledger, record ∈ readAllRecords w.disk.ledger := by
    intro f hwrote hledger record hrecord
    rwa [show w'.disk.ledger = _ from congrArg Stores.ledger hwrote.stores, hledger] at hrecord
  intro record hrecord
  cases h with
  | sent wrote => exact .inl (hkept wrote rfl record hrecord)
  | unsent e why wrote => exact .inl (hkept wrote rfl record hrecord)
  | safeMode safe quiet => exact .inl (hkept quiet rfl record hrecord)
  | deduped unsafe_off href quiet => exact .inl (hkept quiet rfl record hrecord)
  | blocked metaUpdate w₁ unsafe_off admitted why started marked =>
    exact (claimed_records started rfl marked record hrecord).imp_right fun h => ⟨_, _, _, h⟩
  | failed e stepId metaUpdate w₁ unsafe_off admitted allowed why started marked =>
    exact (claimed_records started rfl marked record hrecord).imp_right fun h => ⟨_, _, _, h⟩
  | created stepId record' w₁ w₂ unsafe_off admitted allowed creatable started made marked =>
    have hledger := congrArg Stores.ledger made.wrote.stores
    exact (claimed_records started hledger marked record hrecord).imp_right fun h => ⟨_, _, _, h⟩

theorem latestRecord_none_iff {f : LedgerFile} {key : String} :
    latestRecord f key = none ↔ ∀ record ∈ readAllRecords f, record.key ≠ key :=
  BoundedLog.latest_none_iff

theorem Unrecorded.tail {rest : List RuleAction} {r : Except PyError Bool}
    (hash : Function.Injective rt.sha256) (h : Unrecorded rt t index (action :: rest) w.disk.ledger)
    (hcase : ActionCase rt engine t index w w' action r) :
    Unrecorded rt t (index + 1) rest w'.disk.ledger := by
  intro j skillName args rationale hj
  rw [Nat.add_right_comm, Nat.add_assoc, latestRecord_none_iff]
  intro record hrecord hkey
  rcases action_records hcase record hrecord with hold | ⟨_, _, _, hown⟩
  · have hnone := h (j + 1) skillName args rationale (by simpa using hj)
    exact latestRecord_none_iff.mp hnone record hold hkey
  · have hindex := ruleActionKey_index hash (hown.symm.trans hkey)
    omega

theorem action_surroundings {r : Except PyError Bool}
    (h : ActionCase rt engine t index w w' action r) : w'.toSurroundings = w.toSurroundings := by
  cases h with
  | sent wrote => exact wrote.surroundings
  | unsent e why wrote => exact wrote.surroundings
  | safeMode safe quiet => exact quiet.surroundings
  | deduped unsafe_off href quiet => exact quiet.surroundings
  | blocked metaUpdate w₁ unsafe_off admitted why started marked =>
    exact marked.surroundings.trans started.surroundings
  | failed e stepId metaUpdate w₁ unsafe_off admitted allowed why started marked =>
    exact marked.surroundings.trans started.surroundings
  | created stepId record w₁ w₂ unsafe_off admitted allowed creatable started made marked =>
    exact marked.surroundings.trans (made.wrote.surroundings.trans started.surroundings)

def AllSucceed (rt : Runtime) (engine : Engine) (w : World) (actions : List RuleAction) : Prop :=
  ∀ place action, actions[place]? = some action → Succeeds rt engine w place action

/-- What the loop does with the actions that it is to perform: it performs all of them, or
raises on one. -/
inductive LoopOutcome (rt : Runtime) (engine : Engine) (t : Turn) (executed : Nat)
    (selected : List RuleAction) (w w' : World) : Except PyError Nat → Prop
  | performed (events : List Event) (possible : AllSucceed rt engine w selected)
      (logged : w'.disk.events = w.disk.events ++ events)
      (shown : events.filterMap ofEvent = selected.map (performance t)) :
      LoopOutcome rt engine t executed selected w w' (.ok (executed + selected.length))
  | raised (e : PyError) (impossible : ¬ AllSucceed rt engine w selected) :
      LoopOutcome rt engine t executed selected w w' (.error e)

theorem allSucceed_cons {selected : List RuleAction} (hsame : w'.toSurroundings = w.toSurroundings)
    (hevents : w'.disk.events.length = w.disk.events.length + 1) :
    AllSucceed rt engine w (action :: selected) ↔
      Succeeds rt engine w 0 action ∧ AllSucceed rt engine w' selected := by
  constructor
  · intro h
    refine ⟨h 0 action rfl, fun place other hother => ?_⟩
    exact (succeeds_shift rt engine hsame hevents place other).mpr (h (place + 1) other hother)
  · rintro ⟨hfirst, hrest⟩ place other hother
    cases place with
    | zero =>
      cases hother
      exact hfirst
    | succ place =>
      exact (succeeds_shift rt engine hsame hevents place other).mp (hrest place other hother)

theorem allSucceed_congr {selected : List RuleAction} (hsame : w'.toSurroundings = w.toSurroundings)
    (hevents : w'.disk.events = w.disk.events) :
    AllSucceed rt engine w' selected ↔ AllSucceed rt engine w selected := by
  have hlength : w'.disk.events.length = w.disk.events.length + 0 := by rw [hevents, Nat.add_zero]
  exact forall₃_congr fun place other _ => succeeds_shift rt engine hsame hlength place other

variable {executed : Nat} {selected : List RuleAction} {w₁ : World} {r : Except PyError Nat}

theorem LoopOutcome.idle : LoopOutcome rt engine t executed [] w w (.ok executed) :=
  .performed [] nofun (List.append_nil _).symm rfl

theorem LoopOutcome.passed (h : LoopOutcome rt engine t executed selected w₁ w' r)
    (hsame : w₁.toSurroundings = w.toSurroundings) (hevents : w₁.disk.events = w.disk.events) :
    LoopOutcome rt engine t executed selected w w' r := by
  cases h with
  | performed events possible logged shown =>
    exact .performed events ((allSucceed_congr hsame hevents).mp possible) (hevents ▸ logged) shown
  | raised e impossible =>
    exact .raised e fun h => impossible ((allSucceed_congr hsame hevents).mpr h)

theorem LoopOutcome.after (h : LoopOutcome rt engine t (executed + 1) selected w₁ w' r)
    (hsame : w₁.toSurroundings = w.toSurroundings) (hdone : Done rt engine t action w w₁) :
    LoopOutcome rt engine t executed (action :: selected) w w' r := by
  obtain ⟨event, hevents, hshown⟩ := hdone.shown
  have hlength : w₁.disk.events.length = w.disk.events.length + 1 := by
    rw [hevents, List.length_append, List.length_singleton]
  have hall : AllSucceed rt engine w (action :: selected) ↔
      Succeeds rt engine w 0 action ∧ AllSucceed rt engine w₁ selected :=
    allSucceed_cons hsame hlength
  cases h with
  | performed events possible logged shown =>
    have hcount : executed + 1 + selected.length = executed + (action :: selected).length := by
      rw [List.length_cons]
      omega
    rw [hcount]
    refine .performed (event :: events) (hall.mpr ⟨hdone.possible, possible⟩) ?_ ?_
    · rw [logged, hevents, List.append_assoc, List.singleton_append]
    · rw [List.filterMap_cons_some hshown, shown, List.map_cons]
  | raised e impossible => exact .raised e fun h => impossible (hall.mp h).2

theorem runActions_outcome (hash : Function.Injective rt.sha256) (index executed : Nat)
    (actions : List RuleAction) (e : Evaluation)
    (hfresh : Unrecorded rt t index actions e.world.disk.ledger) :
    Ends (runActions rt engine t index executed actions) e fun r e' =>
      LoopOutcome rt engine t executed (selectBefore (unblocked engine e.world.safeMode)
        (t.rule.maxActionsPerRun - executed).toNat actions) e.world e'.world r := by
  induction actions generalizing index executed e with
  | nil =>
    rw [selectBefore, List.filter_nil, List.take_nil]
    exact .idle
  | cons action rest ih =>
    rw [runActions]
    by_cases hcap : t.rule.maxActionsPerRun ≤ executed
    · have hzero : (t.rule.maxActionsPerRun - executed).toNat = 0 := by omega
      rw [if_pos hcap, hzero, selectBefore_zero]
      refine (note_returns _ e).bind fun _ e₁ hnoted => ?_
      have hout : LoopOutcome rt engine t executed [] e.world e₁.world (.ok executed) := by
        rw [hnoted.1]
        exact .idle
      exact hout
    · have hplaces : (t.rule.maxActionsPerRun - executed).toNat =
          (t.rule.maxActionsPerRun - ((executed + 1 : Nat) : Int)).toNat + 1 := by omega
      have hfirst : Ends (runAction rt engine t index action) e fun r e' =>
          ActionCase rt engine t index e.world e'.world action r ∧
            ∀ title bodyTemplate, action = .notify title bodyTemplate → r = .ok true →
              rt.notifierSend e.world.disk.events.length = none := by
        refine ⟨(runAction_cases rt engine t index action e).2, ?_⟩
        rintro title bodyTemplate rfl
        exact runAction_sends title bodyTemplate e
      have hadmitted : ∀ skillName args rationale,
          action = .proposeStep skillName args rationale →
            refused e.world.disk.ledger (actionKey rt t index skillName args rationale) =
              false := by
        rintro skillName args rationale rfl
        have hlatest := hfresh 0 skillName args rationale rfl
        rw [Nat.add_zero] at hlatest
        rw [refused, hlatest]
      rw [if_neg hcap]
      refine Ends.bind hfirst ?_ ?_
      · rintro counted e₁ ⟨hcase, hsent⟩
        have hsame := action_surroundings hcase
        have hsafe : e₁.world.safeMode = e.world.safeMode := congrArg Surroundings.safeMode hsame
        have hrest := ih (index + 1) (if counted then executed + 1 else executed) e₁
          (hfresh.tail hash hcase)
        rw [hsafe] at hrest
        rcases action_outcome hcase hadmitted hsent with
          ⟨hblocked, hcounted, hevents⟩ | ⟨hopen, hcounted, hdone⟩ | ⟨-, ⟨exc, hraised⟩, -⟩
        · cases hcounted
          rw [selectBefore_cons_of_neg hblocked]
          exact hrest.mono fun r e₂ hout => hout.passed hsame hevents
        · cases hcounted
          rw [hplaces, selectBefore_cons_of_pos hopen]
          exact hrest.mono fun r e₂ hout => hout.after hsame hdone
        · cases hraised
      · rintro exc e₁ ⟨hcase, hsent⟩
        rcases action_outcome hcase hadmitted hsent with
          ⟨-, hcounted, -⟩ | ⟨-, hcounted, -⟩ | ⟨hopen, -, himpossible⟩
        · cases hcounted
        · cases hcounted
        · rw [hplaces, selectBefore_cons_of_pos hopen]
          exact .raised exc fun hall => himpossible (hall 0 action rfl)

end Acting

section Evaluating

variable (rt : Runtime) (engine : Engine) (feed : Feed) (ctxCorrelationId : Option String)
  (rule : Rule) (w : World)

/-- The preview returns, and what it plans unblocked is what the evaluation shows. Where no
cooldown is active the two report the same number of matches. -/
def Agrees : Prop :=
  ∃ preview result rule' w',
    evaluateRulePreview rt engine feed w.now w.safeMode rule false = .ok preview ∧
    evaluateRule rt engine feed ctxCorrelationId rule w = (.ok (result, rule'), w') ∧
    (w'.disk.events.drop w.disk.events.length).filterMap ofEvent =
      preview.plannedActions.filterMap ofPlanned ∧
    (isCooldownActive rt rule w.now = .ok false → result.matchCount = preview.matchCount)

def announced : List RuleAction :=
  selectAfter (unblocked engine w.safeMode) rule.maxActionsPerRun.toNat rule.actions

/-- No blocked action uses up a place that an unblocked one after the cap could take, no
announced action raises, and nothing raises after them. -/
structure Undisturbed (found : Matches) : Prop where
  cap : (∀ a ∈ rule.actions.take rule.maxActionsPerRun.toNat,
    unblocked engine w.safeMode a = true) ∨
    ∀ a ∈ rule.actions.drop rule.maxActionsPerRun.toNat, unblocked engine w.safeMode a = false
  possible : AllSucceed rt engine w (announced engine rule w)
  cooldown : 0 < rule.cooldownMinutes → announced engine rule w ≠ [] →
    ∃ cooldownUntil, addMinutes w.now rule.cooldownMinutes = .ok cooldownUntil
  remembered : ∃ state, updateCursors rt rule.state found.candidates = .ok state

def Faithful : Prop :=
  ∃ cooling found, isCooldownActive rt rule w.now = .ok cooling ∧
    computeMatches rt w.now feed rule false = .ok found ∧
    (cooling = false → found.matching ≠ [] → Undisturbed rt engine rule w found)

def KeysUnrecorded (found : Matches) : Prop :=
  ∀ index skillName args rationale,
    rule.actions[index]? = some (.proposeStep skillName args rationale) →
    latestRecord w.disk.ledger (ruleActionKey rt rule.id index
      (found.matching.head?.map Item.itemId) (actionSignature skillName args rationale)) = none

variable {rt engine feed ctxCorrelationId rule w} {found : Matches} {correlationId : String}

theorem actIfMatched_overflow {t : Turn} (now : Int) {executed : Nat} {e e₁ : Evaluation}
    {exc : PyError} (hmatched : t.matching ≠ [])
    (hrun : runActions rt engine t 0 0 t.rule.actions e = (.ok executed, e₁))
    (hcooldown : 0 < t.rule.cooldownMinutes ∧ 0 < executed)
    (hoverflow : addMinutes now t.rule.cooldownMinutes = .error exc) :
    Ends (actIfMatched rt engine t now) e fun r _ => r = .error exc := by
  rw [actIfMatched, if_neg hmatched]
  refine actOnMatch_rule rt engine t now e ?_ ?_
  · intro other e₂ hother
    cases hrun.symm.trans hother
  · intro executed' e₂ e₃ hrun' _ _
    cases hrun.symm.trans hrun'
    rw [if_pos hcooldown]
    constructor
    · intro other hother
      cases hother.symm.trans hoverflow
      rfl
    · intro cooldownUntil hok
      cases hok.symm.trans hoverflow

theorem tryEvaluate_overflow {exc : PyError}
    (hinactive : isCooldownActive rt rule w.now = .ok false)
    (hread : computeMatches rt w.now feed rule false = .ok found)
    (hact : Ends (actIfMatched rt engine (turnOf rule found correlationId w) w.now)
      (loopStart rule found w) fun r _ => r = .error exc) :
    Ends (tryEvaluate rt engine feed correlationId w.now rule) ⟨w, runStarted rule w, []⟩
      fun r _ => r = .error exc := by
  refine tryEvaluate_rule rt engine feed correlationId rule w ?_ ?_ ?_
  · rintro other (hother | ⟨-, hother⟩)
    · cases hinactive.symm.trans hother
    · cases hread.symm.trans hother
  · intro hactive
    cases hinactive.symm.trans hactive
  · intro other _ hother
    cases hread.symm.trans hother
    refine hact.mono ?_
    rintro _ e rfl
    rfl

theorem evaluateRule_failed {w₀ : World} {exc : PyError}
    (hdrawn : ruleCorrelation rt ctxCorrelationId w = (.ok correlationId, w₀))
    (htry : Ends (tryEvaluate rt engine feed correlationId w₀.now rule) ⟨w₀, runStarted rule w₀, []⟩
      fun r _ => r = .error exc) :
    Ends (evaluateRule rt engine feed ctxCorrelationId rule) w fun r _ =>
      ∃ answer, r = .ok answer ∧ answer.1.ok = false := by
  have hreturns := evaluateRule_rule rt engine feed rule (P := fun result _ _ => result.ok = false)
    hdrawn htry (fun _ _ h => nomatch h) fun _ _ _ _ _ _ => rfl
  refine hreturns.ends ?_
  intro answer _ hok
  exact ⟨answer, rfl, hok⟩

theorem loop_outcome {w' : World} {r : Except PyError Nat} (hash : Function.Injective rt.sha256)
    (hkeys : KeysUnrecorded rt rule w found) (hmatched : found.matching ≠ [])
    (hacted : Acted rt engine correlationId rule found w w' r) :
    LoopOutcome rt engine (turnOf rule found correlationId w) 0
      (selectBefore (unblocked engine w.safeMode) rule.maxActionsPerRun.toNat rule.actions)
      w w' r := by
  obtain ⟨e, hrun, rfl⟩ := hacted
  rw [actionsOf, if_neg hmatched] at hrun
  have hfresh : Unrecorded rt (turnOf rule found correlationId w) 0 rule.actions w.disk.ledger := by
    intro j skillName args rationale hj
    rw [Nat.zero_add]
    exact hkeys j skillName args rationale hj
  have hplaces : (rule.maxActionsPerRun - ((0 : Nat) : Int)).toNat =
      rule.maxActionsPerRun.toNat := by
    omega
  have houtcome : Ends (runActions rt engine (turnOf rule found correlationId w) 0 0 rule.actions)
      (loopStart rule found w) _ := runActions_outcome hash 0 0 rule.actions _ hfresh
  rw [Ends, hrun] at houtcome
  exact hplaces ▸ houtcome

/-- Where the cap makes no difference the loop is to perform what is announced. -/
theorem Undisturbed.selected (h : Undisturbed rt engine rule w found) :
    selectBefore (unblocked engine w.safeMode) rule.maxActionsPerRun.toNat rule.actions =
      announced engine rule w :=
  (selectAfter_eq_iff.mpr h.cap).symm

/-- Nothing interrupts an evaluation that finds matches and is not disturbed. -/
theorem Undisturbed.uninterrupted {w' : World} {exc : PyError}
    (hash : Function.Injective rt.sha256) (hkeys : KeysUnrecorded rt rule w found)
    (hinactive : isCooldownActive rt rule w.now = .ok false)
    (hread : computeMatches rt w.now feed rule false = .ok found) (hmatched : found.matching ≠ [])
    (h : Undisturbed rt engine rule w found) :
    ¬ Interrupted rt engine feed correlationId rule w w' exc := by
  rintro (⟨hwhy | ⟨-, hwhy⟩, -⟩ | ⟨found', r, -, hread', hacted, hwhy⟩)
  · cases hinactive.symm.trans hwhy
  · cases hread.symm.trans hwhy
  · cases hread.symm.trans hread'
    have houtcome := loop_outcome hash hkeys hmatched hacted
    rw [h.selected] at houtcome
    cases houtcome with
    | raised e impossible => exact impossible h.possible
    | performed events possible logged shown =>
      rcases hwhy with hwhy | ⟨executed, hexecuted, ⟨hoverflow, hcooldown, hpos, -⟩ | hcursors⟩
      · cases hwhy
      · cases hexecuted
        have hne : announced engine rule w ≠ [] := by
          intro hnil
          rw [hnil] at hpos
          exact absurd hpos (by decide)
        obtain ⟨cooldownUntil, hok⟩ := h.cooldown hcooldown hne
        cases hok.symm.trans hoverflow
      · obtain ⟨state, hok⟩ := h.remembered
        cases hok.symm.trans hcursors

theorem updateCursors_ok_congr {state state' : RuleState} (h : SameCursors state state')
    {items : List Item} {after : RuleState} (hok : updateCursors rt state' items = .ok after) :
    ∃ after, updateCursors rt state items = .ok after := by
  cases hupdate : updateCursors rt state items with
  | ok other => exact ⟨other, rfl⟩
  | error e =>
    have hsame : SameCursors state' state :=
      ⟨h.seenIds.symm, h.lastCursorIso.symm, h.seenIdsMax.symm⟩
    cases hok.symm.trans (updateCursors_error_congr hsame hupdate)

/-- What an evaluation that finds matches shows and reports. -/
theorem evaluation_agrees_iff {w' : World} {result : RuleRunResult} {state : RuleState}
    (hash : Function.Injective rt.sha256) (hkeys : KeysUnrecorded rt rule w found)
    (hinactive : isCooldownActive rt rule w.now = .ok false)
    (hread : computeMatches rt w.now feed rule false = .ok found) (hmatched : found.matching ≠ [])
    (hcooled : result.ok = true → ∀ executed w₁,
      Acted rt engine correlationId rule found w w₁ (.ok executed) → 0 < rule.cooldownMinutes →
        0 < executed → ∃ cooldownUntil, addMinutes w.now rule.cooldownMinutes = .ok cooldownUntil)
    (hcase : EvaluationCase rt engine feed correlationId rule w w' result state) :
    ((w'.disk.events.drop w.disk.events.length).filterMap ofEvent =
        (announced engine rule w).map (performance (turnOf rule found correlationId w)) ∧
      result.matchCount = found.matching.length) ↔ Undisturbed rt engine rule w found := by
  cases hcase with
  | cooling notes active quiet => cases hinactive.symm.trans active
  | interrupted notes exc w₁ state how quiet same =>
    refine iff_of_false ?_ fun h => h.uninterrupted hash hkeys hinactive hread hmatched how
    rintro ⟨-, hcount⟩
    exact hmatched (List.length_eq_zero_iff.mp hcount.symm)
  | completed notes found' executed w₁ state₁ state inactive read acted quiet same remembered =>
    cases hread.symm.trans read
    have houtcome := loop_outcome hash hkeys hmatched acted
    have hcooldown := hcooled rfl executed w₁ acted
    cases houtcome with
    | performed events possible logged shown =>
      have hshown : (w'.disk.events.drop w.disk.events.length).filterMap ofEvent =
          (selectBefore (unblocked engine w.safeMode) rule.maxActionsPerRun.toNat rule.actions).map
            (performance (turnOf rule found correlationId w)) := by
        have hevents : w'.disk.events = w₁.disk.events := wrote_events quiet
        rw [hevents, logged, List.drop_left, shown]
      rw [hshown]
      constructor
      · rintro ⟨hsame, -⟩
        have hselected : announced engine rule w = selectBefore (unblocked engine w.safeMode)
            rule.maxActionsPerRun.toNat rule.actions := by
          have hlength := congrArg List.length hsame
          rw [List.length_map, List.length_map] at hlength
          exact selectAfter_prefix.eq_of_length hlength.symm
        refine ⟨selectAfter_eq_iff.mp hselected, ?_, ?_, updateCursors_ok_congr same remembered⟩
        · rw [hselected]
          exact possible
        · intro hpos hne
          rw [hselected] at hne
          refine hcooldown hpos ?_
          have := List.length_pos_iff.mpr hne
          omega
      · intro h
        rw [h.selected]
        exact ⟨rfl, rfl⟩

theorem evaluation_idle {w' : World} {result : RuleRunResult} {state : RuleState}
    (hidle : isCooldownActive rt rule w.now = .ok true ∨
      computeMatches rt w.now feed rule false = .ok found ∧ found.matching = [])
    (hcase : EvaluationCase rt engine feed correlationId rule w w' result state) :
    w'.disk.events = w.disk.events ∧ result.matchCount = 0 := by
  have hacted : ∀ {found' : Matches} {w₁ : World} {r : Except PyError Nat},
      isCooldownActive rt rule w.now = .ok false →
      computeMatches rt w.now feed rule false = .ok found' →
      Acted rt engine correlationId rule found' w w₁ r →
      w₁.disk.events = w.disk.events ∧ found'.matching = [] := by
    rintro found' w₁ r hinactive hread ⟨e, hrun, rfl⟩
    rcases hidle with hactive | ⟨hread', hnone⟩
    · cases hinactive.symm.trans hactive
    · cases hread.symm.trans hread'
      rw [actionsOf, if_pos hnone] at hrun
      cases hrun
      exact ⟨rfl, hnone⟩
  cases hcase with
  | cooling notes active quiet => exact ⟨wrote_events quiet, rfl⟩
  | interrupted notes exc w₁ state how quiet same =>
    refine ⟨?_, rfl⟩
    cases how with
    | unread why quiet₁ => exact (wrote_events quiet).trans (wrote_events quiet₁)
    | aborted found' r inactive read acted why =>
      exact (wrote_events quiet).trans (hacted inactive read acted).1
  | completed notes found' executed w₁ state₁ state inactive read acted quiet same remembered =>
    obtain ⟨hevents, hnone⟩ := hacted inactive read acted
    exact ⟨(wrote_events quiet).trans hevents, List.length_eq_zero_iff.mpr hnone⟩

theorem preview_ok (engine : Engine) {cooling : Bool} (correlationId : String)
    (hcooling : isCooldownActive rt rule w.now = .ok cooling)
    (hread : computeMatches rt w.now feed rule false = .ok found) : ∃ preview,
    evaluateRulePreview rt engine feed w.now w.safeMode rule false = .ok preview ∧
      preview.matchCount = found.matching.length ∧
      preview.plannedActions.filterMap ofPlanned =
        if cooling = true ∨ found.matching = [] then []
        else (announced engine rule w).map (performance (turnOf rule found correlationId w)) := by
  rw [evaluateRulePreview, hread]
  dsimp only
  rw [hcooling]
  refine ⟨_, rfl, rfl, ?_⟩
  cases cooling with
  | true => rfl
  | false =>
    by_cases hnone : found.matching = []
    · simp [planActions, hnone]
    · have hplanned := planned_announced engine w.safeMode (turnOf rule found correlationId w)
        found.notes hnone
      simp only [Bool.false_eq_true, false_or, hnone, if_false]
      exact hplanned

theorem preview_reads {preview : RuleTestPreview}
    (h : evaluateRulePreview rt engine feed w.now w.safeMode rule false = .ok preview) :
    ∃ cooling found, isCooldownActive rt rule w.now = .ok cooling ∧
      computeMatches rt w.now feed rule false = .ok found := by
  rw [evaluateRulePreview] at h
  cases hread : computeMatches rt w.now feed rule false with
  | error e =>
    rw [hread] at h
    cases h
  | ok found =>
    rw [hread] at h
    dsimp only at h
    cases hcooling : isCooldownActive rt rule w.now with
    | error e =>
      rw [hcooling] at h
      cases h
    | ok cooling => exact ⟨cooling, found, rfl, rfl⟩

theorem Undisturbed.congr {w₀ : World} (h : Quiet w w₀) :
    Undisturbed rt engine rule w₀ found ↔ Undisturbed rt engine rule w found := by
  have hevents : w₀.disk.events = w.disk.events := wrote_events h
  have hsafe : w₀.safeMode = w.safeMode := h.safeMode_eq
  have hnow : w₀.now = w.now := congrArg Surroundings.now h.surroundings
  have hannounced : announced engine rule w₀ = announced engine rule w := by
    rw [announced, hsafe, announced]
  have hall : AllSucceed rt engine w₀ (announced engine rule w) ↔
      AllSucceed rt engine w (announced engine rule w) :=
    allSucceed_congr h.surroundings hevents
  constructor
  · rintro ⟨cap, possible, cooldown, remembered⟩
    rw [hannounced] at possible cooldown
    rw [hsafe] at cap
    rw [hnow] at cooldown
    exact ⟨cap, hall.mp possible, cooldown, remembered⟩
  · rintro ⟨cap, possible, cooldown, remembered⟩
    rw [← hannounced] at possible cooldown
    rw [← hsafe] at cap
    rw [← hnow] at cooldown
    rw [hannounced] at possible
    refine ⟨cap, ?_, cooldown, remembered⟩
    rw [hannounced]
    exact hall.mpr possible

/-- Both calls have one answer. -/
theorem agrees_iff {preview : RuleTestPreview} {answer : RuleRunResult × Rule} {w' : World}
    (hpreview : evaluateRulePreview rt engine feed w.now w.safeMode rule false = .ok preview)
    (heval : evaluateRule rt engine feed ctxCorrelationId rule w = (.ok answer, w')) :
    Agrees rt engine feed ctxCorrelationId rule w ↔
      (w'.disk.events.drop w.disk.events.length).filterMap ofEvent =
        preview.plannedActions.filterMap ofPlanned ∧
      (isCooldownActive rt rule w.now = .ok false → answer.1.matchCount = preview.matchCount) := by
  constructor
  · rintro ⟨preview', result, rule', w'', hpreview', heval', hagrees⟩
    cases hpreview.symm.trans hpreview'
    cases heval.symm.trans heval'
    exact hagrees
  · intro hagrees
    exact ⟨preview, answer.1, answer.2, w', hpreview, heval, hagrees⟩

theorem agrees_of_reads (hash : Function.Injective rt.sha256) {cooling : Bool}
    (hkeys : KeysUnrecorded rt rule w found)
    (hcooling : isCooldownActive rt rule w.now = .ok cooling)
    (hread : computeMatches rt w.now feed rule false = .ok found) :
    Agrees rt engine feed ctxCorrelationId rule w ↔
      (cooling = false → found.matching ≠ [] → Undisturbed rt engine rule w found) := by
  obtain ⟨answer, w', heval, -, correlationId, w₀, hdrawn, hquiet, hcase⟩ :=
    evaluateRule_cases rt engine feed rule ctxCorrelationId w
  obtain ⟨preview, hpreview, hcount, hplanned⟩ := preview_ok engine correlationId hcooling
    hread
  have hevents : w₀.disk.events = w.disk.events := wrote_events hquiet
  have hnow : w₀.now = w.now := congrArg Surroundings.now hquiet.surroundings
  rw [agrees_iff hpreview heval, hcount, hplanned, ← hevents, hcooling]
  rw [← hnow] at hcooling hread
  by_cases hidle : cooling = true ∨ found.matching = []
  · have hnothing : isCooldownActive rt rule w₀.now = .ok true ∨
        computeMatches rt w₀.now feed rule false = .ok found ∧ found.matching = [] := by
      rcases hidle with rfl | hnone
      · exact .inl hcooling
      · exact .inr ⟨hread, hnone⟩
    obtain ⟨hsame, hzero⟩ := evaluation_idle hnothing hcase
    rw [if_pos hidle, hsame, List.drop_length, hzero]
    refine iff_of_true ⟨rfl, fun hinactive => ?_⟩ fun hinactive hmatched => ?_
    · rcases hidle with rfl | hnone
      · cases hinactive
      · rw [hnone]
        rfl
    · subst hinactive
      exact absurd (hidle.resolve_left (by decide)) hmatched
  · obtain ⟨hinactive, hmatched⟩ := not_or.mp hidle
    rw [Bool.not_eq_true] at hinactive
    subst hinactive
    have hkeys₀ : KeysUnrecorded rt rule w₀ found := by
      have hledger : w₀.disk.ledger = w.disk.ledger := congrArg Stores.ledger hquiet.stores
      rw [KeysUnrecorded, hledger]
      exact hkeys
    have hcooled : answer.1.ok = true → ∀ executed w₁,
        Acted rt engine correlationId rule found w₀ w₁ (.ok executed) → 0 < rule.cooldownMinutes →
          0 < executed →
            ∃ cooldownUntil, addMinutes w₀.now rule.cooldownMinutes = .ok cooldownUntil := by
      rintro hok executed w₁ ⟨e, hrun, -⟩ hpos hexecuted
      rw [actionsOf, if_neg hmatched] at hrun
      cases hadd : addMinutes w₀.now rule.cooldownMinutes with
      | ok cooldownUntil => exact ⟨cooldownUntil, rfl⟩
      | error exc =>
        have hact := actIfMatched_overflow w₀.now hmatched hrun ⟨hpos, hexecuted⟩ hadd
        have hfailed := evaluateRule_failed hdrawn (tryEvaluate_overflow hcooling hread hact)
        rw [Ends, heval] at hfailed
        obtain ⟨other, hother, hnot⟩ := hfailed
        cases hother
        cases hok.symm.trans hnot
    have hagrees := evaluation_agrees_iff hash hkeys₀ hcooling hread hmatched hcooled hcase
    have hannounced : announced engine rule w = announced engine rule w₀ := by
      rw [announced, announced, hquiet.safeMode_eq]
    have hturn : turnOf rule found correlationId w = turnOf rule found correlationId w₀ := by
      rw [turnOf, turnOf, hnow]
    rw [if_neg hidle, hannounced, hturn]
    constructor
    · rintro ⟨hshown, hreported⟩ - -
      exact (Undisturbed.congr hquiet).mp (hagrees.mp ⟨hshown, hreported rfl⟩)
    · intro h
      obtain ⟨hshown, hreported⟩ :=
        hagrees.mpr ((Undisturbed.congr hquiet).mpr (h rfl hmatched))
      exact ⟨hshown, fun _ => hreported⟩

/-- When a dry run says what the run does. -/
theorem dry_run_agrees_iff (hash : Function.Injective rt.sha256)
    (hkeys : ∀ found, computeMatches rt w.now feed rule false = .ok found →
      KeysUnrecorded rt rule w found) :
    Agrees rt engine feed ctxCorrelationId rule w ↔ Faithful rt engine feed rule w := by
  constructor
  · intro hagrees
    have ⟨preview, _, _, _, hpreview, _⟩ := hagrees
    obtain ⟨cooling, found, hcooling, hread⟩ := preview_reads hpreview
    exact ⟨cooling, found, hcooling, hread,
      (agrees_of_reads hash (hkeys found hread) hcooling hread).mp hagrees⟩
  · rintro ⟨cooling, found, hcooling, hread, hundisturbed⟩
    exact (agrees_of_reads hash (hkeys found hread) hcooling hread).mpr hundisturbed

end Evaluating

def cappedRule (cap : Int) (actions : List RuleAction) : Rule where
  id := "r"
  name := "inbox"
  enabled := true
  createdAtIso := ""
  updatedAtIso := ""
  trigger := ⟨.gmail, 5, none, 5, 24⟩
  condition := ⟨none, none⟩
  actions
  maxActionsPerRun := cap
  cooldownMinutes := 0
  state := .initial
  lastRunIso := none
  lastMatchIso := none

def tellMe : RuleAction := .notify "mail" "new mail"

def sendMail : RuleAction := .proposeStep "gmail.draft_email" [] "answer"

def quietRuntime : Runtime := exampleRuntime (fun _ => .returned "") fun _ => none

theorem quietRuntime_hash : Function.Injective quietRuntime.sha256 := fun _ _ h => h

def inbox : Feed := oneMessage "m" none

def inboxFound : Matches :=
  ⟨[⟨"m", none, "a@b hello"⟩], [⟨"m", none, "a@b hello"⟩], [⟨"m", none, "a@b hello"⟩],
    ["trigger_count=1", "candidate_count=1"]⟩

theorem inbox_read (cap : Int) (actions : List RuleAction) :
    computeMatches quietRuntime 0 inbox (cappedRule cap actions) false = .ok inboxFound := by
  rfl

theorem empty_unrecorded (cap : Int) (actions : List RuleAction) :
    KeysUnrecorded quietRuntime (cappedRule cap actions) (freshWorld exampleSurroundings)
      inboxFound :=
  fun _ _ _ _ _ => rfl

def remindMe : RuleAction := .proposeStep "reminders.create" [] "answer"

/-- With a place for every action and none of them blocked the two agree. -/
theorem two_actions_agree : Agrees quietRuntime exampleEngine inbox none
    (cappedRule 2 [tellMe, remindMe]) (freshWorld exampleSurroundings) := by
  have hkeys : ∀ found,
      computeMatches quietRuntime 0 inbox (cappedRule 2 [tellMe, remindMe]) false = .ok found →
        KeysUnrecorded quietRuntime (cappedRule 2 [tellMe, remindMe])
          (freshWorld exampleSurroundings) found := by
    intro found hfound
    cases (inbox_read 2 [tellMe, remindMe]).symm.trans hfound
    exact empty_unrecorded 2 [tellMe, remindMe]
  have hannounced : announced exampleEngine (cappedRule 2 [tellMe, remindMe])
      (freshWorld exampleSurroundings) = [tellMe, remindMe] := rfl
  refine (dry_run_agrees_iff quietRuntime_hash hkeys).mpr
    ⟨false, inboxFound, rfl, inbox_read 2 [tellMe, remindMe], fun _ _ => ?_⟩
  refine ⟨.inl (by decide), ?_, fun h => absurd h (by decide), ⟨_, rfl⟩⟩
  rw [hannounced]
  intro place action haction
  rcases place with _ | _ | place
  · cases haction
    rfl
  · cases haction
    exact ⟨⟨_, rfl⟩, 72, _, rfl, rfl⟩
  · cases haction

/-- A blocked proposal uses up the only place of the plan, and the run notifies. -/
theorem blocked_takes_place : ¬ Agrees quietRuntime exampleEngine inbox none
    (cappedRule 1 [sendMail, tellMe]) (freshWorld exampleSurroundings) := by
  rw [agrees_of_reads quietRuntime_hash (empty_unrecorded 1 [sendMail, tellMe]) rfl
    (inbox_read 1 [sendMail, tellMe])]
  intro h
  have hdisturbed := h rfl (by decide)
  rcases hdisturbed.cap with hall | hnone
  · exact absurd (hall sendMail List.mem_cons_self) (by decide)
  · exact absurd (hnone tellMe List.mem_cons_self) (by decide)

end DryRun
