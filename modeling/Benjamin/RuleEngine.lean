import Benjamin.ApprovalStore
import Benjamin.RuleMatching

/-!
# The rule engine

`evaluate_rule` with its loop over the actions. The program runs on the world, the
rule and the notes so far, so that what an evaluation leaves behind when it raises is
what it had changed by then. `EvaluationCase` lists the ways an evaluation ends.
-/
namespace RuleEngine

open PyBase ExecutionLedger PlanSchemas SecurityPolicy SkillRegistry LedgerKeys AssistantState
  ApprovalStore RuleSchemas RuleMatching Effect

/-- The policy is the one that was in force when the engine was built. -/
structure Engine where
  registry : Registry
  permissionsPolicy : PermissionsPolicy

/-- What the loop over the actions holds fixed. -/
structure Turn where
  rule : Rule
  matching : List Item
  correlationId : String
  nowIso : String

structure Evaluation where
  world : World
  rule : Rule
  notes : List String

abbrev Eval := Prog PyError Evaluation

def inWorld {α : Type} (x : Py α) : Eval α :=
  Prog.zoom Evaluation.world (fun e w => { e with world := w }) x

def note (texts : List String) : Eval Unit :=
  Prog.update fun e => { e with notes := e.notes ++ texts }

def setState (f : RuleState → RuleState) : Eval Unit :=
  Prog.update fun e => { e with rule := { e.rule with state := f e.rule.state } }

/-- `_required_scopes_for_skill`. -/
def requiredScopesForSkill (registry : Registry) (skillName : String) : List String :=
  match registry.get skillName with
  | .ok skill =>
    if skill.requiredScopes = [] then defaultScopesForSkill skillName skill.sideEffect
    else skill.requiredScopes
  | .error _ => defaultScopesForSkill skillName "write"

/-- `_is_cooldown_active`. -/
def isCooldownActive (rt : Runtime) (rule : Rule) (now : Int) : Except PyError Bool :=
  if rule.cooldownMinutes ≤ 0 then .ok false
  else
    match parseIso rt rule.state.cooldownUntilIso with
    | none => .ok false
    | some cooldownUntil => cooldownUntil.gt (.aware now)

/-- `_sync_legacy_state`. -/
def syncLegacyState (rule : Rule) : Rule :=
  { rule with lastRunIso := rule.state.lastRunIso, lastMatchIso := rule.state.lastMatchIso }

def actionSignature (skillName : String) (args : Dict) (rationale : String) : Dict :=
  [("skill_name", .str skillName), ("args", .obj args), ("rationale", .str rationale)]

def actionKey (rt : Runtime) (t : Turn) (index : Nat) (skillName : String) (args : Dict)
    (rationale : String) : String :=
  ruleActionKey rt t.rule.id index (t.matching.head?.map Item.itemId)
    (actionSignature skillName args rationale)

def actionMeta (t : Turn) : Dict :=
  [("rule_id", .str t.rule.id),
    ("item_id", ((t.matching.head?.map Item.itemId).map Json.str).getD .null)]

def notifyBody (t : Turn) (bodyTemplate : String) : String :=
  renderNotify bodyTemplate t.matching.length t.matching t.nowIso

def proposedStep (stepId skillName : String) (args : Dict) : PlanStep :=
  ⟨stepId, "Rule action for " ++ skillName, some skillName, dumps (.obj args), true⟩

def logRuleEvent (engine : Engine) (t : Turn) (decision skillName reason : String) : Eval Unit :=
  inWorld <| logPolicyEvent t.correlationId "rule" decision skillName
    (requiredScopesForSkill engine.registry skillName) engine.permissionsPolicy.snapshotModel reason
    [("rule_id", .str t.rule.id)]

/-- A proposal that the policy blocks gives its key free again. -/
def blockProposal (engine : Engine) (t : Turn) (key skillName noteText reason : String)
    (metaUpdate : Dict) : Eval Bool := do
  inWorld (ledgerMark key .failed metaUpdate)
  note [noteText]
  logRuleEvent engine t "denied" skillName reason
  pure false

/-- A `propose_step` action whose key the ledger has admitted. -/
def proposeStarted (rt : Runtime) (engine : Engine) (t : Turn) (key skillName : String)
    (args : Dict) (rationale : String) : Eval Bool := do
  let stepId ← inWorld (drawUuid rt)
  let requiredScopes := requiredScopesForSkill engine.registry skillName
  let (allowlistOk, blocked) := engine.permissionsPolicy.checkRulesAllowlist requiredScopes
  let (scopesOk, disabled) := engine.permissionsPolicy.checkScopes requiredScopes
  if !allowlistOk then
    blockProposal engine t key skillName "rules_scope_blocked" "allowlist_blocked"
      [("error", .str "rules_scope_blocked"), ("blocked_scopes", strings blocked)]
  else if !scopesOk then
    blockProposal engine t key skillName "policy_denied" "scope_disabled"
      [("error", .str "policy_denied"), ("disabled_scopes", strings disabled)]
  else do
    logRuleEvent engine t "allowed" skillName "allowed"
    Prog.attempt
      (do
        let approval ← inWorld <| createPending rt (.ruleAction key)
          (proposedStep stepId skillName args) ⟨"Rule matched: " ++ t.rule.name, none⟩
          [("source", some "rule"), ("rule_id", some t.rule.id),
            ("correlation_id", some t.correlationId)]
          rationale engine.registry (some requiredScopes)
        inWorld (ledgerMark key .succeeded [("approval_id", .str approval.id)])
        note ["approval_created"]
        pure true)
      fun exc => do
        inWorld (ledgerMark key .failed [("error", .str exc.str)])
        Prog.raise exc

def runAction (rt : Runtime) (engine : Engine) (t : Turn) (index : Nat) : RuleAction → Eval Bool
  | .notify title bodyTemplate => do
    inWorld (send rt title (notifyBody t bodyTemplate) t.rule.id t.correlationId)
    note ["notify_sent"]
    pure true
  | .proposeStep skillName args rationale => do
    let safeMode ← Prog.read fun e : Evaluation => e.world.safeMode
    if safeMode then do
      note ["safe_mode_blocked", "propose_step_blocked:safe_mode"]
      pure false
    else do
      let key := actionKey rt t index skillName args rationale
      let started ← inWorld <| ledgerTryStart key .ruleAction (some t.correlationId)
        (actionMeta t)
      if !started then do
        note ["deduped_by_ledger"]
        pure false
      else proposeStarted rt engine t key skillName args rationale

def runActions (rt : Runtime) (engine : Engine) (t : Turn) (index executed : Nat) :
    List RuleAction → Eval Nat
  | [] => pure executed
  | action :: rest =>
    if t.rule.maxActionsPerRun ≤ executed then do
      note ["action_cap_reached"]
      pure executed
    else do
      let counted ← runAction rt engine t index action
      runActions rt engine t (index + 1) (if counted then executed + 1 else executed) rest

/-- The actions of a match, with the match time and the cooldown they leave. -/
def actOnMatch (rt : Runtime) (engine : Engine) (t : Turn) (now : Int) : Eval Unit := do
  let executed ← runActions rt engine t 0 0 t.rule.actions
  setState fun s => { s with lastMatchIso := some t.nowIso }
  if 0 < t.rule.cooldownMinutes ∧ 0 < executed then do
    let cooldownUntil ← Prog.ofExcept (addMinutes now t.rule.cooldownMinutes)
    setState fun s => { s with cooldownUntilIso := some (isoformat cooldownUntil) }
  else pure ()

def actIfMatched (rt : Runtime) (engine : Engine) (t : Turn) (now : Int) : Eval Unit :=
  if t.matching = [] then pure () else actOnMatch rt engine t now

def typeName : TriggerType → String
  | .schedule => "schedule"
  | .gmail => "gmail"
  | .calendar => "calendar"

def pyBool (b : Bool) : String := if b then "True" else "False"

/-- The `try` block of `_evaluate_rule`. -/
def tryEvaluate (rt : Runtime) (engine : Engine) (feed : Feed) (correlationId : String)
    (now : Int) (rule : Rule) : Eval RuleRunResult := do
  let cooling ← Prog.ask fun e : Evaluation => isCooldownActive rt e.rule now
  if cooling then do
    note ["cooldown_active"]
    Prog.update fun e => { e with rule := syncLegacyState e.rule }
    let notes ← Prog.read Evaluation.notes
    pure ⟨rule.id, true, false, 0, notes, none⟩
  else do
    let found ← Prog.ask fun e : Evaluation => computeMatches rt now feed e.rule false
    note found.notes
    actIfMatched rt engine ⟨rule, found.matching, correlationId, isoformat now⟩ now
    let state ← Prog.ask fun e : Evaluation => updateCursors rt e.rule.state found.candidates
    setState fun _ => state
    Prog.update fun e => { e with rule := syncLegacyState e.rule }
    let matched := decide (found.matching ≠ [])
    inWorld <| appendEpisode "rule"
      ("Ran rule " ++ rule.name ++ ": matched=" ++ pyBool matched ++ " count=" ++
        toString found.matching.length)
      [("rule_id", .str rule.id), ("trigger_type", .str (typeName rule.trigger.type)),
        ("correlation_id", .str correlationId)]
    let notes ← Prog.read Evaluation.notes
    pure ⟨rule.id, true, matched, found.matching.length, notes, none⟩

/-- The handler of `_evaluate_rule`. -/
def evaluationFailed (correlationId : String) (rule : Rule) (exc : PyError) :
    Eval RuleRunResult := do
  Prog.update fun e => { e with rule := syncLegacyState e.rule }
  inWorld <| appendEpisode "rule" ("Rule " ++ rule.name ++ " failed")
    [("rule_id", .str rule.id), ("error", .str exc.str), ("correlation_id", .str correlationId)]
  let notes ← Prog.read Evaluation.notes
  pure ⟨rule.id, false, false, 0, notes, some exc.str⟩

/-- `str((ctx or {}).get("correlation_id") or uuid4())`. -/
def ruleCorrelation (rt : Runtime) (ctxCorrelationId : Option String) : Py String :=
  match truthy ctxCorrelationId with
  | some given => pure given
  | none => drawUuid rt

/-- `evaluate_rule`, with the rule as the call leaves it. -/
def evaluateRule (rt : Runtime) (engine : Engine) (feed : Feed) (ctxCorrelationId : Option String)
    (rule : Rule) : Py (RuleRunResult × Rule) := do
  let correlationId ← ruleCorrelation rt ctxCorrelationId
  let now ← Prog.read fun w : World => w.now
  fun w =>
    let outcome := Prog.attempt (tryEvaluate rt engine feed correlationId now rule)
      (evaluationFailed correlationId rule)
      ⟨w, { rule with state := { rule.state with lastRunIso := some (isoformat now) } }, []⟩
    (outcome.1.map fun result => (result, outcome.2.rule), outcome.2.world)

/-- The scopes of the skill are on the allowlist for rules and enabled. -/
def Allowed (policy : PermissionsPolicy) (scopes : List String) : Prop :=
  ∀ scope ∈ scopes, scope ∈ policy.rulesAllowedScopes ∧ policy.isScopeEnabled scope = true

def startedAction (s : Surroundings) (t : Turn) (key : String) : Stores → Stores :=
  startKey s key .ruleAction (some t.correlationId) (actionMeta t)

inductive ActionCase (rt : Runtime) (engine : Engine) (t : Turn) (index : Nat) (w w' : World) :
    RuleAction → Except PyError Bool → Prop
  | sent {title bodyTemplate : String} (wrote : Wrote (fun d => d.log
        (.notified title (notifyBody t bodyTemplate) t.rule.id t.correlationId none)) w w') :
      ActionCase rt engine t index w w' (.notify title bodyTemplate) (.ok true)
  | unsent {title bodyTemplate : String} (e : PyError)
      (why : rt.notifierSend w.disk.events.length = some e) (wrote : Wrote (fun d => d.log
        (.notified title (notifyBody t bodyTemplate) t.rule.id t.correlationId (some e))) w w') :
      ActionCase rt engine t index w w' (.notify title bodyTemplate) (.error e)
  | safeMode {skillName rationale : String} {args : Dict} (safe : w.safeMode = true)
      (quiet : Quiet w w') :
      ActionCase rt engine t index w w' (.proposeStep skillName args rationale) (.ok false)
  | deduped {skillName rationale : String} {args : Dict} (unsafe_off : w.safeMode = false)
      (refused : refused w.disk.ledger (actionKey rt t index skillName args rationale) = true)
      (quiet : Quiet w w') :
      ActionCase rt engine t index w w' (.proposeStep skillName args rationale) (.ok false)
  | blocked {skillName rationale : String} {args : Dict} (metaUpdate : Dict) (w₁ : World)
      (unsafe_off : w.safeMode = false)
      (admitted : ExecutionLedger.refused w.disk.ledger
        (actionKey rt t index skillName args rationale) = false)
      (why : ¬ Allowed engine.permissionsPolicy
        (requiredScopesForSkill engine.registry skillName))
      (started : Wrote (startedAction w.toSurroundings t
        (actionKey rt t index skillName args rationale)) w w₁)
      (marked : Wrote (markKey w.toSurroundings
        (actionKey rt t index skillName args rationale) .failed metaUpdate) w₁ w') :
      ActionCase rt engine t index w w' (.proposeStep skillName args rationale) (.ok false)
  | failed {skillName rationale : String} {args : Dict} (e : PyError) (stepId : String)
      (metaUpdate : Dict) (w₁ : World) (unsafe_off : w.safeMode = false)
      (admitted : ExecutionLedger.refused w.disk.ledger
        (actionKey rt t index skillName args rationale) = false)
      (allowed : Allowed engine.permissionsPolicy
        (requiredScopesForSkill engine.registry skillName))
      (why : ¬ Creatable w (proposedStep stepId skillName args) engine.registry
        (some (requiredScopesForSkill engine.registry skillName)))
      (started : Wrote (startedAction w.toSurroundings t
        (actionKey rt t index skillName args rationale)) w w₁)
      (marked : Wrote (markKey w.toSurroundings
        (actionKey rt t index skillName args rationale) .failed metaUpdate) w₁ w') :
      ActionCase rt engine t index w w' (.proposeStep skillName args rationale) (.error e)
  | created {skillName rationale : String} {args : Dict} (stepId : String)
      (record : PendingApproval) (w₁ w₂ : World) (unsafe_off : w.safeMode = false)
      (admitted : ExecutionLedger.refused w.disk.ledger
        (actionKey rt t index skillName args rationale) = false)
      (allowed : Allowed engine.permissionsPolicy
        (requiredScopesForSkill engine.registry skillName))
      (creatable : Creatable w (proposedStep stepId skillName args) engine.registry
        (some (requiredScopesForSkill engine.registry skillName)))
      (started : Wrote (startedAction w.toSurroundings t
        (actionKey rt t index skillName args rationale)) w w₁)
      (made : Created rt (.ruleAction (actionKey rt t index skillName args rationale))
        (proposedStep stepId skillName args) rationale engine.registry
        (some (requiredScopesForSkill engine.registry skillName)) w₁ w₂ record)
      (marked : Wrote (markKey w.toSurroundings
        (actionKey rt t index skillName args rationale) .succeeded
        [("approval_id", .str record.id)]) w₂ w') :
      ActionCase rt engine t index w w' (.proposeStep skillName args rationale) (.ok true)

theorem inWorld_returns {α : Type} {x : Py α} {e : Evaluation} {P : α → World → Prop}
    (h : Returns x e.world P) :
    Returns (inWorld x) e fun a e' => P a e'.world ∧ e'.rule = e.rule := by
  obtain ⟨a, e', hrun, w, hP, rfl⟩ := Returns.zoom h
  exact ⟨a, _, hrun, hP, rfl⟩

theorem inWorld_ends {α : Type} {x : Py α} {e : Evaluation} {Q : Except PyError α → World → Prop}
    (h : Ends x e.world Q) :
    Ends (inWorld x) e fun r e' => Q r e'.world ∧ e'.rule = e.rule := by
  refine (Ends.zoom h).mono ?_
  rintro r _ ⟨w, hQ, rfl⟩
  exact ⟨hQ, rfl⟩

theorem note_returns (texts : List String) (e : Evaluation) :
    Returns (note texts) e fun _ e' => e'.world = e.world ∧ e'.rule = e.rule :=
  ⟨_, _, rfl, rfl, rfl⟩

theorem allowed_iff (policy : PermissionsPolicy) (scopes : List String) :
    Allowed policy scopes ↔
      (policy.checkRulesAllowlist scopes).1 = true ∧ (policy.checkScopes scopes).1 = true := by
  rw [PermissionsPolicy.checkRulesAllowlist_iff, PermissionsPolicy.checkScopes_iff]
  exact ⟨fun h => ⟨fun s hs => (h s hs).1, fun s hs => (h s hs).2⟩,
    fun h s hs => ⟨h.1 s hs, h.2 s hs⟩⟩

theorem send_ends (rt : Runtime) (title body ruleId correlationId : String) (w : World) :
    Ends (send rt title body ruleId correlationId) w fun r w' => match r with
      | .ok _ => Wrote (fun d => d.log (.notified title body ruleId correlationId none)) w w'
      | .error e => rt.notifierSend w.disk.events.length = some e ∧
          Wrote (fun d => d.log (.notified title body ruleId correlationId (some e))) w w' := by
  rw [Ends, send]
  cases h : rt.notifierSend w.disk.events.length with
  | none => exact wrote_writeStores _ w
  | some e => exact ⟨rfl, wrote_writeStores _ w⟩

section Cases

variable (rt : Runtime) (engine : Engine) (t : Turn)

theorem logRuleEvent_returns (decision skillName reason : String) (e : Evaluation) :
    Returns (logRuleEvent engine t decision skillName reason) e fun _ e' =>
      Quiet e.world e'.world ∧ e'.rule = e.rule :=
  inWorld_returns (logPolicyEvent_returns ..)

theorem blockProposal_returns (key skillName noteText reason : String) (metaUpdate : Dict)
    (e : Evaluation) :
    Returns (blockProposal engine t key skillName noteText reason metaUpdate) e fun r e' =>
      r = false ∧ Wrote (markKey e.world.toSurroundings key .failed metaUpdate) e.world e'.world ∧
        e'.rule = e.rule := by
  obtain ⟨_, e₁, h₁, hwrote, hrule₁⟩ := inWorld_returns (ledgerMark_returns key .failed metaUpdate
    e.world)
  obtain ⟨_, e₂, h₂, hworld, hrule₂⟩ := note_returns [noteText] e₁
  obtain ⟨_, e₃, h₃, hquiet, hrule₃⟩ := logRuleEvent_returns engine t "denied" skillName reason e₂
  refine ⟨false, e₃, ?_, rfl, ?_, ?_⟩
  · rw [blockProposal, bind_ok h₁, bind_ok h₂, bind_ok h₃]
    rfl
  · rw [hworld] at hquiet
    exact hwrote.then_quiet hquiet
  · rw [hrule₃, hrule₂, hrule₁]

theorem proposeStarted_cases {index : Nat} {skillName rationale : String} {args : Dict}
    {w : World} {e : Evaluation} (hsafe : w.safeMode = false)
    (hadmitted : refused w.disk.ledger (actionKey rt t index skillName args rationale) = false)
    (hstarted : Wrote (startedAction w.toSurroundings t
      (actionKey rt t index skillName args rationale)) w e.world) :
    Ends (proposeStarted rt engine t (actionKey rt t index skillName args rationale) skillName args
        rationale) e fun r e' => e'.rule = e.rule ∧
      ActionCase rt engine t index w e'.world (.proposeStep skillName args rationale) r := by
  rw [proposeStarted]
  refine (inWorld_returns (drawUuid_returns rt e.world)).bind ?_
  rintro stepId e₁ ⟨⟨-, -, hdrawn⟩, hrule₁⟩
  have hstart := hstarted.then_quiet hdrawn
  have hsame : e₁.world.toSurroundings = w.toSurroundings := hstart.surroundings
  have hallowed := allowed_iff engine.permissionsPolicy
    (requiredScopesForSkill engine.registry skillName)
  dsimp only
  by_cases hallowlist : (engine.permissionsPolicy.checkRulesAllowlist
      (requiredScopesForSkill engine.registry skillName)).1 = true
  · by_cases hscopes : (engine.permissionsPolicy.checkScopes
        (requiredScopesForSkill engine.registry skillName)).1 = true
    · simp only [hallowlist, hscopes, Bool.not_true, Bool.false_eq_true, if_false]
      refine (logRuleEvent_returns engine t ..).bind fun _ e₂ ⟨hquiet, hrule₂⟩ => ?_
      have hstart₂ := hstart.then_quiet hquiet
      have hcreatable := creatable_congr hstart₂.surroundings (proposedStep stepId skillName args)
        engine.registry (some (requiredScopesForSkill engine.registry skillName))
      have hpassed := hallowed.mpr ⟨hallowlist, hscopes⟩
      refine Ends.attempt (Q := fun r e' => e'.rule = e.rule ∧ match r with
        | .ok counted => ActionCase rt engine t index w e'.world
            (.proposeStep skillName args rationale) (.ok counted)
        | .error _ => ¬ Creatable w (proposedStep stepId skillName args) engine.registry
            (some (requiredScopesForSkill engine.registry skillName)) ∧
            Wrote (startedAction w.toSurroundings t
              (actionKey rt t index skillName args rationale)) w e'.world) ?_ ?_ ?_
      · refine Ends.bind (inWorld_ends (createPending_ends ..)) ?_ ?_
        · rintro record e₃ ⟨⟨hok, hcreated⟩, hrule₃⟩
          refine (inWorld_returns (ledgerMark_returns ..)).bind fun _ e₄ ⟨hmarked, hrule₄⟩ => ?_
          refine (note_returns _ e₄).bind fun _ e₅ ⟨hworld, hrule₅⟩ => ?_
          have hsame₃ : e₃.world.toSurroundings = w.toSurroundings :=
            hcreated.wrote.surroundings.trans hstart₂.surroundings
          rw [hsame₃] at hmarked
          refine ⟨hrule₅.trans (hrule₄.trans (hrule₃.trans (hrule₂.trans hrule₁))), ?_⟩
          rw [← hworld] at hmarked
          exact .created stepId record e₂.world e₃.world hsafe hadmitted hpassed
            (hcreatable.mp hok) hstart₂ hcreated hmarked
        · rintro exc e₃ ⟨⟨hnot, hquiet₃⟩, hrule₃⟩
          exact ⟨hrule₃.trans (hrule₂.trans hrule₁), fun h => hnot (hcreatable.mpr h),
            hstart₂.then_quiet hquiet₃⟩
      · rintro counted e₃ h
        exact h
      · rintro exc e₃ ⟨hrule₃, hnot, hstart₃⟩
        refine (inWorld_returns (ledgerMark_returns ..)).bind fun _ e₄ ⟨hmarked, hrule₄⟩ => ?_
        rw [hstart₃.surroundings] at hmarked
        exact ⟨hrule₄.trans hrule₃, .failed exc stepId _ e₃.world hsafe hadmitted hpassed hnot
          hstart₃ hmarked⟩
    · simp only [hallowlist, hscopes, Bool.not_true, Bool.not_false, Bool.false_eq_true, if_false,
        if_true]
      obtain ⟨_, e₂, hrun, rfl, hmarked, hrule₂⟩ := blockProposal_returns engine t
        (actionKey rt t index skillName args rationale) skillName "policy_denied" "scope_disabled"
        _ e₁
      rw [Ends, hrun]
      rw [hsame] at hmarked
      exact ⟨hrule₂.trans hrule₁, .blocked _ e₁.world hsafe hadmitted
        (fun h => hscopes (hallowed.mp h).2) hstart hmarked⟩
  · simp only [hallowlist, Bool.not_false, if_true]
    obtain ⟨_, e₂, hrun, rfl, hmarked, hrule₂⟩ := blockProposal_returns engine t
      (actionKey rt t index skillName args rationale) skillName "rules_scope_blocked"
      "allowlist_blocked" _ e₁
    rw [Ends, hrun]
    rw [hsame] at hmarked
    exact ⟨hrule₂.trans hrule₁, .blocked _ e₁.world hsafe hadmitted
      (fun h => hallowlist (hallowed.mp h).1) hstart hmarked⟩

theorem runAction_cases (index : Nat) (action : RuleAction) (e : Evaluation) :
    Ends (runAction rt engine t index action) e fun r e' => e'.rule = e.rule ∧
      ActionCase rt engine t index e.world e'.world action r := by
  cases action with
  | notify title bodyTemplate =>
    refine Ends.bind (inWorld_ends (send_ends ..)) ?_ ?_
    · rintro _ e₁ ⟨hwrote, hrule₁⟩
      refine (note_returns _ e₁).bind fun _ e₂ ⟨hworld, hrule₂⟩ => ?_
      rw [← hworld] at hwrote
      exact ⟨hrule₂.trans hrule₁, .sent hwrote⟩
    · rintro exc e₁ ⟨⟨hwhy, hwrote⟩, hrule₁⟩
      exact ⟨hrule₁, .unsent exc hwhy hwrote⟩
  | proposeStep skillName args rationale =>
    rw [runAction]
    refine Ends.read ?_
    cases hsafe : e.world.safeMode with
    | true =>
      simp only [if_true]
      refine (note_returns _ e).bind fun _ e₁ ⟨hworld, hrule₁⟩ => ?_
      have hquiet : Quiet e.world e₁.world := by
        rw [hworld]
        exact Quiet.refl _
      exact ⟨hrule₁, .safeMode hsafe hquiet⟩
    | false =>
      simp only [Bool.false_eq_true, if_false]
      refine (inWorld_returns (ledgerTryStart_returns ..)).bind ?_
      rintro started e₁ ⟨⟨hresult, hwrote⟩, hrule₁⟩
      cases href : refused e.world.disk.ledger (actionKey rt t index skillName args rationale) with
      | true =>
        simp only [hresult, href, Bool.not_true, Bool.not_false, if_true]
        refine (note_returns _ e₁).bind fun _ e₂ ⟨hworld, hrule₂⟩ => ?_
        have hquiet : Quiet e.world e₂.world := by
          rw [hworld]
          exact hwrote.congr (startKey_refused href)
        exact ⟨hrule₂.trans hrule₁, .deduped hsafe href hquiet⟩
      | false =>
        simp only [hresult, href, Bool.not_false, Bool.not_true, Bool.false_eq_true, if_false]
        refine (proposeStarted_cases rt engine t hsafe href hwrote).mono ?_
        rintro r e₂ ⟨hrule₂, hcase⟩
        exact ⟨hrule₂.trans hrule₁, hcase⟩

end Cases

/-- The loop over the actions, from the action with the given index and with as many
actions counted so far. -/
inductive Ran (rt : Runtime) (engine : Engine) (t : Turn) :
    Nat → Nat → List RuleAction → World → World → Except PyError Nat → Prop
  | finished (index executed : Nat) (w : World) :
      Ran rt engine t index executed [] w w (.ok executed)
  | capped (index executed : Nat) (action : RuleAction) (rest : List RuleAction) (w : World)
      (cap : t.rule.maxActionsPerRun ≤ executed) :
      Ran rt engine t index executed (action :: rest) w w (.ok executed)
  | next {index executed : Nat} {action : RuleAction} {rest : List RuleAction} {w w₁ w' : World}
      {r : Except PyError Nat} (counted : Bool) (below : (executed : Int) < t.rule.maxActionsPerRun)
      (first : ActionCase rt engine t index w w₁ action (.ok counted))
      (others : Ran rt engine t (index + 1) (if counted then executed + 1 else executed) rest w₁ w'
        r) :
      Ran rt engine t index executed (action :: rest) w w' r
  | raised {index executed : Nat} {action : RuleAction} {rest : List RuleAction} {w w' : World}
      (e : PyError) (below : (executed : Int) < t.rule.maxActionsPerRun)
      (first : ActionCase rt engine t index w w' action (.error e)) :
      Ran rt engine t index executed (action :: rest) w w' (.error e)

theorem runActions_ran (rt : Runtime) (engine : Engine) (t : Turn) (index executed : Nat)
    (actions : List RuleAction) (e : Evaluation) :
    Ends (runActions rt engine t index executed actions) e fun r e' =>
      e'.rule = e.rule ∧ Ran rt engine t index executed actions e.world e'.world r := by
  induction actions generalizing index executed e with
  | nil => exact ⟨rfl, .finished ..⟩
  | cons action rest ih =>
    rw [runActions]
    by_cases hcap : t.rule.maxActionsPerRun ≤ executed
    · rw [if_pos hcap]
      refine (note_returns _ e).bind fun _ e₁ ⟨hworld, hrule⟩ => ?_
      have hran : Ran rt engine t index executed (action :: rest) e.world e₁.world
          (.ok executed) := by
        rw [hworld]
        exact .capped index executed action rest e.world hcap
      exact ⟨hrule, hran⟩
    · rw [if_neg hcap]
      have hbelow : (executed : Int) < t.rule.maxActionsPerRun := by omega
      refine Ends.bind (runAction_cases rt engine t index action e) ?_ ?_
      · rintro counted e₁ ⟨hrule, hcase⟩
        refine (ih (index + 1) _ e₁).mono ?_
        rintro r e₂ ⟨hrule₂, hran⟩
        exact ⟨hrule₂.trans hrule, .next counted hbelow hcase hran⟩
      · rintro exc e₁ ⟨hrule, hcase⟩
        exact ⟨hrule, .raised exc hbelow hcase⟩

theorem runActions_cons {rt : Runtime} {engine : Engine} {t : Turn} {index executed : Nat}
    {action : RuleAction} {counted : Bool} {e e₁ : Evaluation}
    (hbelow : (executed : Int) < t.rule.maxActionsPerRun)
    (h : runAction rt engine t index action e = (.ok counted, e₁)) (rest : List RuleAction) :
    runActions rt engine t index executed (action :: rest) e =
      runActions rt engine t (index + 1) (if counted then executed + 1 else executed) rest e₁ := by
  have hcap : ¬ t.rule.maxActionsPerRun ≤ executed := by omega
  rw [runActions, if_neg hcap, bind_ok h]

theorem runActions_raises {rt : Runtime} {engine : Engine} {t : Turn} {index executed : Nat}
    {actions : List RuleAction} {e e' : Evaluation} {exc : PyError}
    (h : runActions rt engine t index executed actions e = (.error exc, e')) :
    ∃ front action rest k e₁, actions = front ++ action :: rest ∧
      runActions rt engine t index executed front e = (.ok k, e₁) ∧
      (k : Int) < t.rule.maxActionsPerRun ∧
      runAction rt engine t (index + front.length) action e₁ = (.error exc, e') := by
  induction actions generalizing index executed e with
  | nil => cases h
  | cons action rest ih =>
    by_cases hcap : t.rule.maxActionsPerRun ≤ executed
    · rw [runActions, if_pos hcap] at h
      cases h
    · have hbelow : (executed : Int) < t.rule.maxActionsPerRun := by omega
      cases hfirst : runAction rt engine t index action e with
      | mk r e₁ =>
        cases r with
        | error exc' =>
          rw [runActions, if_neg hcap, bind_error hfirst] at h
          cases h
          exact ⟨[], action, rest, executed, e, rfl, rfl, hbelow, hfirst⟩
        | ok counted =>
          rw [runActions_cons hbelow hfirst] at h
          obtain ⟨front, action', rest', k, e₂, rfl, hrun, hk, hraised⟩ := ih h
          refine ⟨action :: front, action', rest', k, e₂, rfl, ?_, hk, ?_⟩
          · rw [runActions_cons hbelow hfirst, hrun]
          · rw [List.length_cons, Nat.add_comm front.length, ← Nat.add_assoc]
            exact hraised

/-- A loop that leaves a relation gets to an action that does. -/
theorem runActions_changes {R : World → World → Prop} (hR : Chains R) {rt : Runtime}
    {engine : Engine} {t : Turn} {index executed : Nat} {actions : List RuleAction}
    {e e' : Evaluation} {r : Except PyError Nat}
    (hrun : runActions rt engine t index executed actions e = (r, e'))
    (h : ¬ R e.world e'.world) :
    ∃ front action rest k e₁, actions = front ++ action :: rest ∧
      runActions rt engine t index executed front e = (.ok k, e₁) ∧
      (k : Int) < t.rule.maxActionsPerRun ∧
      ¬ R e₁.world (runAction rt engine t (index + front.length) action e₁).2.world := by
  induction actions generalizing index executed e with
  | nil =>
    cases hrun
    exact absurd (hR.refl _) h
  | cons action rest ih =>
    by_cases hcap : t.rule.maxActionsPerRun ≤ executed
    · rw [runActions, if_pos hcap] at hrun
      cases hrun
      exact absurd (hR.refl _) h
    · have hbelow : (executed : Int) < t.rule.maxActionsPerRun := by omega
      by_cases hkept : R e.world (runAction rt engine t index action e).2.world
      · cases hfirst : runAction rt engine t index action e with
        | mk first e₁ =>
          rw [hfirst] at hkept
          cases first with
          | error exc =>
            rw [runActions, if_neg hcap, bind_error hfirst] at hrun
            cases hrun
            exact absurd hkept h
          | ok counted =>
            rw [runActions_cons hbelow hfirst] at hrun
            obtain ⟨front, action', rest', k, e₂, rfl, hfront, hk, hleft⟩ :=
              ih hrun fun hothers => h (hR.trans hkept hothers)
            refine ⟨action :: front, action', rest', k, e₂, rfl, ?_, hk, ?_⟩
            · rw [runActions_cons hbelow hfirst, hfront]
            · rw [List.length_cons, Nat.add_comm front.length, ← Nat.add_assoc]
              exact hleft
      · exact ⟨[], action, rest, executed, e, rfl, rfl, hbelow, hkept⟩

/-- A relation that every action keeps is kept by the loop. -/
theorem Ran.chain {R : World → World → Prop} (hR : Chains R) {rt : Runtime} {engine : Engine}
    {t : Turn} {index executed : Nat} {actions : List RuleAction} {w w' : World}
    {r : Except PyError Nat} (h : Ran rt engine t index executed actions w w' r)
    (hstep : ∀ index, ∀ action ∈ actions, ∀ w w' r,
      ActionCase rt engine t index w w' action r → R w w') :
    R w w' := by
  induction h with
  | finished index executed w => exact hR.refl w
  | capped index executed action rest w cap => exact hR.refl w
  | next counted below first others ih =>
    refine hR.trans (hstep _ _ List.mem_cons_self _ _ _ first) (ih fun index action hmem => ?_)
    exact hstep index action (List.mem_cons_of_mem _ hmem)
  | raised e below first => exact hstep _ _ List.mem_cons_self _ _ _ first

def turnOf (rule : Rule) (found : Matches) (correlationId : String) (w : World) : Turn :=
  ⟨rule, found.matching, correlationId, isoformat w.now⟩

def actionsOf (rule : Rule) (found : Matches) : List RuleAction :=
  if found.matching = [] then [] else rule.actions

/-- The rule as the `try` block finds it. -/
def runStarted (rule : Rule) (w : World) : Rule :=
  { rule with state := { rule.state with lastRunIso := some (isoformat w.now) } }

def loopStart (rule : Rule) (found : Matches) (w : World) : Evaluation :=
  ⟨w, runStarted rule w, found.notes⟩

def Acted (rt : Runtime) (engine : Engine) (correlationId : String) (rule : Rule) (found : Matches)
    (w w' : World) (r : Except PyError Nat) : Prop :=
  ∃ e, runActions rt engine (turnOf rule found correlationId w) 0 0 (actionsOf rule found)
    (loopStart rule found w) = (r, e) ∧ e.world = w'

theorem Acted.ran {rt : Runtime} {engine : Engine} {correlationId : String} {rule : Rule}
    {found : Matches} {w w' : World} {r : Except PyError Nat}
    (h : Acted rt engine correlationId rule found w w' r) :
    Ran rt engine (turnOf rule found correlationId w) 0 0 (actionsOf rule found) w w' r := by
  obtain ⟨e, hrun, rfl⟩ := h
  have hends := runActions_ran rt engine (turnOf rule found correlationId w) 0 0
    (actionsOf rule found) (loopStart rule found w)
  rw [Ends, hrun] at hends
  exact hends.2

/-- What makes the `try` block raise, and what it has done by then. -/
inductive Interrupted (rt : Runtime) (engine : Engine) (feed : Feed) (correlationId : String)
    (rule : Rule) (w w' : World) (exc : PyError) : Prop
  | unread (why : isCooldownActive rt rule w.now = .error exc ∨
        isCooldownActive rt rule w.now = .ok false ∧
          computeMatches rt w.now feed rule false = .error exc) (quiet : Quiet w w')
  | aborted (found : Matches) (r : Except PyError Nat)
      (inactive : isCooldownActive rt rule w.now = .ok false)
      (read : computeMatches rt w.now feed rule false = .ok found)
      (acted : Acted rt engine correlationId rule found w w' r)
      (why : r = .error exc ∨ ∃ executed, r = .ok executed ∧
        (addMinutes w.now rule.cooldownMinutes = .error exc ∧ 0 < rule.cooldownMinutes ∧
            0 < executed ∧ found.matching ≠ [] ∨
          updateCursors rt rule.state found.candidates = .error exc))

inductive EvaluationCase (rt : Runtime) (engine : Engine) (feed : Feed) (correlationId : String)
    (rule : Rule) (w w' : World) : RuleRunResult → RuleState → Prop
  | cooling (notes : List String) (active : isCooldownActive rt rule w.now = .ok true)
      (quiet : Quiet w w') :
      EvaluationCase rt engine feed correlationId rule w w' ⟨rule.id, true, false, 0, notes, none⟩
        { rule.state with lastRunIso := some (isoformat w.now) }
  | interrupted (notes : List String) (exc : PyError) (w₁ : World) (state : RuleState)
      (how : Interrupted rt engine feed correlationId rule w w₁ exc) (quiet : Quiet w₁ w')
      (same : SameCursors rule.state state) :
      EvaluationCase rt engine feed correlationId rule w w'
        ⟨rule.id, false, false, 0, notes, some exc.str⟩ state
  | completed (notes : List String) (found : Matches) (executed : Nat) (w₁ : World)
      (state₁ state : RuleState) (inactive : isCooldownActive rt rule w.now = .ok false)
      (read : computeMatches rt w.now feed rule false = .ok found)
      (acted : Acted rt engine correlationId rule found w w₁ (.ok executed))
      (quiet : Quiet w₁ w') (same : SameCursors rule.state state₁)
      (remembered : updateCursors rt state₁ found.candidates = .ok state) :
      EvaluationCase rt engine feed correlationId rule w w'
        ⟨rule.id, true, decide (found.matching ≠ []), found.matching.length, notes, none⟩ state

theorem EvaluationCase.ruleId {rt : Runtime} {engine : Engine} {feed : Feed}
    {correlationId : String} {rule : Rule} {w w' : World} {result : RuleRunResult}
    {state : RuleState} (h : EvaluationCase rt engine feed correlationId rule w w' result state) :
    result.ruleId = rule.id := by
  cases h <;> rfl

def Restated (rule rule' : Rule) : Prop := rule' = { rule with state := rule'.state }

theorem setState_returns (f : RuleState → RuleState) (e : Evaluation) :
    Returns (setState f) e fun _ e' =>
      e'.world = e.world ∧ e'.rule = { e.rule with state := f e.rule.state } :=
  ⟨_, _, rfl, rfl, rfl⟩

theorem synced_returns (e : Evaluation) :
    Returns
      (Prog.update fun e : Evaluation => { e with rule := syncLegacyState e.rule } : Eval Unit)
      e fun _ e' => e'.world = e.world ∧ e'.rule = syncLegacyState e.rule :=
  ⟨_, _, rfl, rfl, rfl⟩

section Evaluating

variable (rt : Runtime) (engine : Engine)

theorem actOnMatch_rule {Q : Except PyError Unit → Evaluation → Prop} (t : Turn) (now : Int)
    (e : Evaluation)
    (hraised : ∀ exc e₁, runActions rt engine t 0 0 t.rule.actions e = (.error exc, e₁) →
      Q (.error exc) e₁)
    (hended : ∀ executed e₁ e₂, runActions rt engine t 0 0 t.rule.actions e = (.ok executed, e₁) →
      e₂.world = e₁.world →
      e₂.rule = { e₁.rule with state := { e₁.rule.state with lastMatchIso := some t.nowIso } } →
        if 0 < t.rule.cooldownMinutes ∧ 0 < executed then
          (∀ exc, addMinutes now t.rule.cooldownMinutes = .error exc → Q (.error exc) e₂) ∧
            ∀ cooldownUntil, addMinutes now t.rule.cooldownMinutes = .ok cooldownUntil →
              ∀ e₃, e₃.world = e₂.world →
                e₃.rule = { e₂.rule with state :=
                  { e₂.rule.state with cooldownUntilIso := some (isoformat cooldownUntil) } } →
                Q (.ok ()) e₃
        else Q (.ok ()) e₂) :
    Ends (actOnMatch rt engine t now) e Q := by
  have hloop : Ends (runActions rt engine t 0 0 t.rule.actions) e fun r e₁ =>
      runActions rt engine t 0 0 t.rule.actions e = (r, e₁) := rfl
  rw [actOnMatch]
  refine Ends.bind hloop ?_ hraised
  intro executed e₁ hrun
  refine (setState_returns _ e₁).bind ?_
  rintro _ e₂ ⟨hworld₂, hrule₂⟩
  have hends := hended executed e₁ e₂ hrun hworld₂ hrule₂
  split_ifs at hends ⊢
  · refine Ends.ofExcept ?_ hends.1
    intro cooldownUntil hdate
    refine (setState_returns _ e₂).ends ?_
    rintro _ e₃ ⟨hworld₃, hrule₃⟩
    exact hends.2 cooldownUntil hdate e₃ hworld₃ hrule₃
  · exact hends

theorem actOnMatch_ends (t : Turn) (now : Int) (e : Evaluation) :
    Ends (actOnMatch rt engine t now) e fun r e' =>
      Restated e.rule e'.rule ∧ SameCursors e.rule.state e'.rule.state ∧
        ∃ answer e₁, runActions rt engine t 0 0 t.rule.actions e = (answer, e₁) ∧
          e₁.world = e'.world ∧ match r with
          | .ok _ => ∃ executed, answer = .ok executed
          | .error exc => answer = .error exc ∨ ∃ executed, answer = .ok executed ∧
              addMinutes now t.rule.cooldownMinutes = .error exc ∧
                0 < t.rule.cooldownMinutes ∧ 0 < executed := by
  have hunchanged : ∀ {r e₁}, runActions rt engine t 0 0 t.rule.actions e = (r, e₁) →
      e₁.rule = e.rule := by
    intro r e₁ hrun
    have hran : (runActions rt engine t 0 0 t.rule.actions e).2.rule = e.rule :=
      (runActions_ran rt engine t 0 0 t.rule.actions e).1
    rwa [hrun] at hran
  refine actOnMatch_rule rt engine t now e ?_ ?_
  · intro exc e₁ hrun
    refine ⟨?_, ?_, .error exc, e₁, hrun, rfl, Or.inl rfl⟩
    · rw [Restated, hunchanged hrun]
    · rw [hunchanged hrun]
      exact SameCursors.refl _
  · intro executed e₁ e₂ hrun hworld₂ hrule₂
    rw [hunchanged hrun] at hrule₂
    have hrestated : Restated e.rule e₂.rule := by rw [Restated, hrule₂]
    have hsame : SameCursors e.rule.state e₂.rule.state := by
      rw [hrule₂]
      exact ⟨rfl, rfl, rfl⟩
    split_ifs with hcooldown
    · constructor
      · intro exc hexc
        exact ⟨hrestated, hsame, .ok executed, e₁, hrun, hworld₂.symm,
          Or.inr ⟨executed, rfl, hexc, hcooldown⟩⟩
      · intro cooldownUntil _ e₃ hworld₃ hrule₃
        rw [hrule₂] at hrule₃
        refine ⟨?_, ?_, .ok executed, e₁, hrun, (hworld₃.trans hworld₂).symm, executed, rfl⟩
        · rw [Restated, hrule₃]
        · rw [hrule₃]
          exact ⟨rfl, rfl, rfl⟩
    · exact ⟨hrestated, hsame, .ok executed, e₁, hrun, hworld₂.symm, executed, rfl⟩

theorem actIfMatched_ends (found : Matches) (correlationId nowIso : String) (rule : Rule)
    (now : Int)
    (e : Evaluation) :
    Ends (actIfMatched rt engine ⟨rule, found.matching, correlationId, nowIso⟩ now) e
      fun r e' => Restated e.rule e'.rule ∧ SameCursors e.rule.state e'.rule.state ∧
        ∃ answer e₁, runActions rt engine ⟨rule, found.matching, correlationId, nowIso⟩ 0 0
            (actionsOf rule found) e = (answer, e₁) ∧ e₁.world = e'.world ∧
          match r with
          | .ok _ => ∃ executed, answer = .ok executed
          | .error exc => answer = .error exc ∨ ∃ executed, answer = .ok executed ∧
              addMinutes now rule.cooldownMinutes = .error exc ∧
                0 < rule.cooldownMinutes ∧ 0 < executed ∧ found.matching ≠ [] := by
  rw [actIfMatched, actionsOf]
  by_cases hmatched : found.matching = []
  · rw [if_pos hmatched, if_pos hmatched]
    exact ⟨rfl, SameCursors.refl _, .ok 0, e, rfl, rfl, 0, rfl⟩
  · rw [if_neg hmatched, if_neg hmatched]
    refine (actOnMatch_ends rt engine _ now e).mono ?_
    rintro r e' ⟨hrestated, hsame, answer, e₁, hrun, hworld, hanswer⟩
    refine ⟨hrestated, hsame, answer, e₁, hrun, hworld, ?_⟩
    cases r with
    | ok _ => exact hanswer
    | error exc =>
      refine hanswer.imp_right ?_
      rintro ⟨executed, hok, hoverflow, hcooldown, hexecuted⟩
      exact ⟨executed, hok, hoverflow, hcooldown, hexecuted, hmatched⟩

theorem Restated.synced {rule rule' : Rule} (h : Restated rule rule') :
    syncLegacyState rule' = syncLegacyState { rule with state := rule'.state } :=
  congrArg syncLegacyState h

theorem Restated.trans {rule rule₁ rule₂ : Rule} (h : Restated rule rule₁)
    (h' : Restated rule₁ rule₂) : Restated rule rule₂ := by
  rw [Restated, h', h]

theorem computeMatches_congr {rule rule' : Rule} (h : Restated rule rule')
    (hsame : SameCursors rule.state rule'.state) (now : Int) (feed : Feed) (includeSeen : Bool) :
    computeMatches rt now feed rule' includeSeen = computeMatches rt now feed rule includeSeen := by
  have htrigger : rule'.trigger = rule.trigger := by rw [h]
  have hcondition : rule'.condition = rule.condition := by rw [h]
  unfold computeMatches
  rw [htrigger, hcondition]
  simp only [filterNewItems_congr hsame]

theorem isCooldownActive_congr {rule rule' : Rule} (h : Restated rule rule')
    (hsame : rule'.state.cooldownUntilIso = rule.state.cooldownUntilIso) (now : Int) :
    isCooldownActive rt rule' now = isCooldownActive rt rule now := by
  have hminutes : rule'.cooldownMinutes = rule.cooldownMinutes := by rw [h]
  rw [isCooldownActive, hminutes, hsame, isCooldownActive]

variable (feed : Feed) (correlationId : String) (rule : Rule)

/-- What is left to show when the loop over the actions has ended: the cursors move, and an
evaluation that is completed only adds its episode. -/
def Finishes (found : Matches) (Q : Except PyError RuleRunResult → Evaluation → Prop) :
    Except PyError Unit → Evaluation → Prop
  | .error exc, e => Q (.error exc) e
  | .ok _, e =>
    (∀ exc, updateCursors rt e.rule.state found.candidates = .error exc → Q (.error exc) e) ∧
      ∀ state, updateCursors rt e.rule.state found.candidates = .ok state →
        ∀ e', Quiet e.world e'.world → e'.rule = syncLegacyState { e.rule with state := state } →
          Q (.ok ⟨rule.id, true, decide (found.matching ≠ []), found.matching.length, e'.notes,
            none⟩) e'

theorem tryEvaluate_rule {Q : Except PyError RuleRunResult → Evaluation → Prop} (w : World)
    (hunread : ∀ exc, isCooldownActive rt rule w.now = .error exc ∨
      isCooldownActive rt rule w.now = .ok false ∧
        computeMatches rt w.now feed rule false = .error exc →
      Q (.error exc) ⟨w, runStarted rule w, []⟩)
    (hcooling : isCooldownActive rt rule w.now = .ok true →
      Q (.ok ⟨rule.id, true, false, 0, ["cooldown_active"], none⟩)
        ⟨w, syncLegacyState (runStarted rule w), ["cooldown_active"]⟩)
    (hactions : ∀ found, isCooldownActive rt rule w.now = .ok false →
      computeMatches rt w.now feed rule false = .ok found →
      Ends (actIfMatched rt engine (turnOf rule found correlationId w) w.now)
        (loopStart rule found w) (Finishes rt rule found Q)) :
    Ends (tryEvaluate rt engine feed correlationId w.now rule) ⟨w, runStarted rule w, []⟩ Q := by
  have hrestated : Restated rule (runStarted rule w) := rfl
  have hactive : isCooldownActive rt (runStarted rule w) w.now = isCooldownActive rt rule w.now :=
    isCooldownActive_congr rt hrestated rfl _
  have hmatches := computeMatches_congr rt hrestated ⟨rfl, rfl, rfl⟩ w.now feed false
  rw [tryEvaluate]
  refine Ends.ask ?_ fun exc hexc => hunread exc (Or.inl (hactive.symm.trans hexc))
  intro cooling hanswer
  have hcooled := hactive.symm.trans hanswer
  cases cooling with
  | true => exact hcooling hcooled
  | false =>
    simp only [Bool.false_eq_true, if_false]
    refine Ends.ask ?_ fun exc hexc => hunread exc (Or.inr ⟨hcooled, hmatches.symm.trans hexc⟩)
    intro found hfound
    have hnoted : Returns (note found.notes) ⟨w, runStarted rule w, []⟩ fun _ e₁ =>
        e₁ = loopStart rule found w := ⟨_, _, rfl, rfl⟩
    refine hnoted.bind ?_
    rintro _ _ rfl
    refine Ends.bind (hactions found hcooled (hmatches.symm.trans hfound)) ?_ fun exc _ h => h
    rintro _ e ⟨hlost, hdone⟩
    refine Ends.ask ?_ hlost
    intro state hstate
    refine (setState_returns _ e).bind ?_
    rintro _ e₁ ⟨hworld₁, hrule₁⟩
    refine (synced_returns e₁).bind ?_
    rintro _ e₂ ⟨hworld₂, hrule₂⟩
    refine (inWorld_returns (appendEpisode_returns ..)).bind ?_
    rintro _ e₃ ⟨hquiet, hrule₃⟩
    rw [hworld₂, hworld₁] at hquiet
    rw [hrule₂, hrule₁] at hrule₃
    exact hdone state hstate e₃ hquiet hrule₃

theorem tryEvaluate_ends (w : World) :
    Ends (tryEvaluate rt engine feed correlationId w.now rule) ⟨w, runStarted rule w, []⟩
      fun r e' => match r with
      | .ok result => e'.rule = syncLegacyState { rule with state := e'.rule.state } ∧
          EvaluationCase rt engine feed correlationId rule w e'.world result e'.rule.state
      | .error exc => Restated rule e'.rule ∧ SameCursors rule.state e'.rule.state ∧
          Interrupted rt engine feed correlationId rule w e'.world exc := by
  have hrestated : Restated rule (runStarted rule w) := rfl
  have hsame : SameCursors rule.state (runStarted rule w).state := ⟨rfl, rfl, rfl⟩
  refine tryEvaluate_rule rt engine feed correlationId rule w ?_ ?_ ?_
  · intro exc hexc
    exact ⟨hrestated, hsame, .unread hexc (Quiet.refl _)⟩
  · intro hactive
    exact ⟨rfl, .cooling _ hactive (Quiet.refl _)⟩
  · intro found hactive hread
    refine (actIfMatched_ends rt engine found ..).mono ?_
    rintro r e ⟨hrestated', hsame', answer, e₁, hrun, hworld₁, hwhy⟩
    have hstated : Restated rule e.rule := hrestated.trans hrestated'
    have hcursors : SameCursors rule.state e.rule.state := hsame.trans hsame'
    have hacted : Acted rt engine correlationId rule found w e.world answer := ⟨e₁, hrun, hworld₁⟩
    cases r with
    | error exc =>
      refine ⟨hstated, hcursors, .aborted found answer hactive hread hacted ?_⟩
      refine hwhy.imp_right ?_
      rintro ⟨executed, hanswer, hoverflow, hcooldown, hexecuted, hmatched⟩
      exact ⟨executed, hanswer, Or.inl ⟨hoverflow, hcooldown, hexecuted, hmatched⟩⟩
    | ok _ =>
      obtain ⟨executed, rfl⟩ := hwhy
      constructor
      · intro exc hexc
        exact ⟨hstated, hcursors, .aborted found _ hactive hread hacted
          (Or.inr ⟨executed, rfl, Or.inr (updateCursors_error_congr hcursors hexc)⟩)⟩
      · intro state hstate e' hquiet hrule
        have hstate' : e'.rule.state = state := by rw [hrule, syncLegacyState]
        have hfinal : Restated rule { e.rule with state := state } := by
          refine hstated.trans ?_
          rw [Restated]
        refine ⟨?_, ?_⟩
        · rw [hstate', hrule]
          exact hfinal.synced
        · rw [hstate']
          exact .completed e'.notes found executed e.world e.rule.state state hactive hread hacted
            hquiet hcursors hstate

theorem evaluationFailed_returns (exc : PyError) (e : Evaluation) :
    Returns (evaluationFailed correlationId rule exc) e fun result e' =>
      (∃ notes, result = ⟨rule.id, false, false, 0, notes, some exc.str⟩) ∧
        Quiet e.world e'.world ∧ e'.rule = syncLegacyState e.rule := by
  obtain ⟨_, e₁, h₁, hworld₁, hrule₁⟩ := synced_returns e
  obtain ⟨_, e₂, h₂, hquiet, hrule₂⟩ := inWorld_returns (appendEpisode_returns "rule"
    ("Rule " ++ rule.name ++ " failed") [("rule_id", .str rule.id), ("error", .str exc.str),
      ("correlation_id", .str correlationId)] e₁.world)
  refine ⟨_, e₂, ?_, ⟨e₂.notes, rfl⟩, hworld₁ ▸ hquiet, hrule₂.trans hrule₁⟩
  rw [evaluationFailed, bind_ok h₁, bind_ok h₂]
  rfl

theorem ruleCorrelation_returns (ctxCorrelationId : Option String) (w : World) :
    Returns (ruleCorrelation rt ctxCorrelationId) w fun _ w' => Quiet w w' := by
  rw [ruleCorrelation]
  cases truthy ctxCorrelationId with
  | some given => exact ⟨given, w, rfl, Quiet.refl w⟩
  | none =>
    obtain ⟨id, w', hrun, _, _, hquiet⟩ := drawUuid_returns rt w
    exact ⟨id, w', hrun, hquiet⟩

theorem evaluateRule_eq {ctxCorrelationId : Option String} {correlationId : String} {w w₀ : World}
    (hdrawn : ruleCorrelation rt ctxCorrelationId w = (.ok correlationId, w₀)) :
    evaluateRule rt engine feed ctxCorrelationId rule w =
      let outcome := Prog.attempt (tryEvaluate rt engine feed correlationId w₀.now rule)
        (evaluationFailed correlationId rule) ⟨w₀, runStarted rule w₀, []⟩
      (outcome.1.map fun result => (result, outcome.2.rule), outcome.2.world) := by
  rw [evaluateRule, bind_ok hdrawn]
  rfl

theorem evaluateRule_rule {ctxCorrelationId : Option String} {correlationId : String}
    {w w₀ : World} {Q : Except PyError RuleRunResult → Evaluation → Prop}
    {P : RuleRunResult → World → Rule → Prop}
    (hdrawn : ruleCorrelation rt ctxCorrelationId w = (.ok correlationId, w₀))
    (htry : Ends (tryEvaluate rt engine feed correlationId w₀.now rule)
      ⟨w₀, runStarted rule w₀, []⟩ Q)
    (hdone : ∀ result e, Q (.ok result) e → P result e.world e.rule)
    (hfailed : ∀ exc e, Q (.error exc) e → ∀ notes w', Quiet e.world w' →
      P ⟨rule.id, false, false, 0, notes, some exc.str⟩ w' (syncLegacyState e.rule)) :
    Returns (evaluateRule rt engine feed ctxCorrelationId rule) w fun answer w' =>
      P answer.1 w' answer.2 := by
  have hends : Ends (Prog.attempt (tryEvaluate rt engine feed correlationId w₀.now rule)
      (evaluationFailed correlationId rule)) ⟨w₀, runStarted rule w₀, []⟩ fun r e =>
        ∃ result, r = .ok result ∧ P result e.world e.rule := by
    refine Ends.attempt htry ?_ ?_
    · intro result e hok
      exact ⟨result, rfl, hdone result e hok⟩
    · intro exc e herror
      refine (evaluationFailed_returns correlationId rule exc e).ends ?_
      rintro _ e' ⟨⟨notes, rfl⟩, hquiet, hrule⟩
      rw [hrule]
      exact ⟨_, rfl, hfailed exc e herror notes e'.world hquiet⟩
  have heval := evaluateRule_eq rt engine feed rule hdrawn
  obtain ⟨result, hresult, hP⟩ := hends
  simp only [hresult] at heval
  exact ⟨_, _, heval, hP⟩

/-- An evaluation always returns, in one of the ways of `EvaluationCase`. -/
theorem evaluateRule_cases (ctxCorrelationId : Option String) (w : World) :
    Returns (evaluateRule rt engine feed ctxCorrelationId rule) w fun answer w' =>
      answer.2 = syncLegacyState { rule with state := answer.2.state } ∧
        ∃ correlationId w₀, ruleCorrelation rt ctxCorrelationId w = (.ok correlationId, w₀) ∧
          Quiet w w₀ ∧
          EvaluationCase rt engine feed correlationId rule w₀ w' answer.1 answer.2.state := by
  obtain ⟨correlationId, w₀, hdrawn, hquiet⟩ := ruleCorrelation_returns rt ctxCorrelationId w
  have hreturns := evaluateRule_rule rt engine feed rule (P := fun result w' rule' =>
    rule' = syncLegacyState { rule with state := rule'.state } ∧
      EvaluationCase rt engine feed correlationId rule w₀ w' result rule'.state) hdrawn
    (tryEvaluate_ends rt engine feed correlationId rule w₀) (fun _ _ h => h) ?_
  · obtain ⟨answer, w', hrun, hrule, hcase⟩ := hreturns
    exact ⟨answer, w', hrun, hrule, correlationId, w₀, hdrawn, hquiet, hcase⟩
  · rintro exc e ⟨hrestated, hsame, hhow⟩ notes w' hquiet'
    exact ⟨hrestated.synced, .interrupted notes exc e.world e.rule.state hhow hquiet' hsame⟩

end Evaluating

def exampleEngine : Engine := ⟨exampleRegistry, exampleSurroundings.policy⟩

def oneMessage (id : String) (dateIso : Option String) : Feed :=
  ⟨some (.ok [⟨some id, none, "a@b", "hello", "", dateIso⟩]), none⟩

end RuleEngine
