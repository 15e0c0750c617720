import Benjamin.CappedSelection
import Benjamin.RuleEngine

/-!
# The preview of a rule

`evaluate_rule_preview` and its loop over the actions. It reads what an evaluation reads
and writes nothing. Its cap counts every planned action, the blocked ones too.
-/
namespace RulePreview

open PyBase PlanSchemas SecurityPolicy RuleSchemas RuleMatching RuleEngine CappedSelection

section Planning

variable (engine : Engine) (safeMode : Bool) (matching : List Item) (nowIso : String)

def blockedReason (requiredScopes : List String) : Option String :=
  let (allowlistOk, blocked) := engine.permissionsPolicy.checkRulesAllowlist requiredScopes
  let (scopesOk, disabled) := engine.permissionsPolicy.checkScopes requiredScopes
  if safeMode then some "safe_mode"
  else if !allowlistOk then some ("rule allowlist blocks: " ++ ", ".intercalate blocked)
  else if !scopesOk then some ("scope disabled: " ++ ", ".intercalate disabled)
  else none

def planAction : RuleAction → RulePlannedAction
  | .notify title bodyTemplate =>
    .notify title (renderNotify bodyTemplate matching.length matching nowIso)
  | .proposeStep skillName args rationale =>
    let requiredScopes := requiredScopesForSkill engine.registry skillName
    let reason := blockedReason engine safeMode requiredScopes
    .proposeStep skillName args rationale reason.isNone requiredScopes reason.isSome reason

def planNotes : RuleAction → List String
  | .notify .. => []
  | .proposeStep .. => if safeMode then ["safe_mode_blocked"] else []

def planLoop (cap : Int) (planned : List RulePlannedAction) (notes : List String) :
    List RuleAction → List RulePlannedAction × List String
  | [] => (planned, notes)
  | action :: rest =>
    if cap ≤ planned.length then (planned, notes ++ ["action_cap_reached"])
    else planLoop cap (planned ++ [planAction engine safeMode matching nowIso action])
      (notes ++ planNotes safeMode action) rest

def planActions (rule : Rule) (notes : List String) : List RulePlannedAction × List String :=
  if matching = [] then ([], notes)
  else planLoop engine safeMode matching nowIso rule.maxActionsPerRun [] notes rule.actions

end Planning

/-- `evaluate_rule_preview`. The matches are computed before the cooldown is looked at. -/
def evaluateRulePreview (rt : Runtime) (engine : Engine) (feed : Feed) (now : Int)
    (safeMode : Bool) (rule : Rule) (includeSeen : Bool) : Except PyError RuleTestPreview :=
  match computeMatches rt now feed rule includeSeen with
  | .error e => .error e
  | .ok found =>
    match isCooldownActive rt rule now with
    | .error e => .error e
    | .ok cooling =>
      let (planned, notes) :=
        if cooling then ([], found.notes ++ ["blocked_by_cooldown"])
        else planActions engine safeMode found.matching (isoformat now) rule found.notes
      .ok
        { ruleId := if rule.id = "draft" then none else some rule.id
          ruleName := some rule.name
          matched := decide (0 < found.matching.length)
          matchCount := found.matching.length
          candidateCount := found.candidates.length
          matchingItems := found.matching
          plannedActions := planned
          notes }

section Planned

variable {engine : Engine} {safeMode : Bool} {matching : List Item} {nowIso : String}

theorem blockedReason_none_iff {requiredScopes : List String} :
    blockedReason engine safeMode requiredScopes = none ↔
      safeMode = false ∧ Allowed engine.permissionsPolicy requiredScopes := by
  rw [allowed_iff]
  rw [blockedReason]
  cases safeMode with
  | true => simp
  | false =>
    cases hallowlist : (engine.permissionsPolicy.checkRulesAllowlist requiredScopes).1 with
    | false => simp [hallowlist]
    | true =>
      cases hscopes : (engine.permissionsPolicy.checkScopes requiredScopes).1 <;>
        simp [hallowlist, hscopes]

theorem planLoop_planned (cap : Int) (planned : List RulePlannedAction) (notes : List String)
    (actions : List RuleAction) :
    (planLoop engine safeMode matching nowIso cap planned notes actions).1 = planned ++
      (actions.take (cap - planned.length).toNat).map
        (planAction engine safeMode matching nowIso) := by
  induction actions generalizing planned notes with
  | nil => simp [planLoop]
  | cons action rest ih =>
    rw [planLoop]
    by_cases hcap : cap ≤ planned.length
    · have hzero : (cap - planned.length).toNat = 0 := by omega
      rw [if_pos hcap, hzero]
      simp
    · have hplace : (cap - planned.length).toNat =
          (cap - (planned ++ [planAction engine safeMode matching nowIso action]).length).toNat
            + 1 := by
        rw [List.length_append, List.length_singleton]
        omega
      rw [if_neg hcap, ih, hplace, List.take_succ_cons, List.map_cons, List.append_assoc,
        List.singleton_append]

/-- The first actions are planned, as many as the cap allows. -/
theorem planActions_planned (rule : Rule) (notes : List String) (hmatched : matching ≠ []) :
    (planActions engine safeMode matching nowIso rule notes).1 =
      (rule.actions.take rule.maxActionsPerRun.toNat).map
        (planAction engine safeMode matching nowIso) := by
  rw [planActions, if_neg hmatched, planLoop_planned]
  simp

end Planned

end RulePreview
