import Benjamin.PyBase
import Benjamin.SecurityPolicy
import Benjamin.SerialRun

/-!
# The overrides of the permissions policy

How a policy is put together from the environment and the overrides file, and the four
endpoints that edit the file. An endpoint that says nothing about a part of the file
writes the part as the policy has it.
-/
namespace PolicyOverrides

open PyBase SecurityPolicy

/-- The environment variables, `none` where one is not set. -/
structure PolicyEnv where
  scopeMode : Option String
  scopesEnabled : Option String
  rulesAllowedScopes : Option String
  policyOverrides : Option String

/-- The overrides file; an absent file has neither list. -/
structure Overrides where
  scopesEnabled : Option (List String)
  rulesAllowedScopes : Option (List String)
  deriving DecidableEq, Repr

/-- `raw.split(",")`. -/
def splitComma : List Char → List (List Char)
  | [] => [[]]
  | c :: rest =>
    if c = ',' then [] :: splitComma rest
    else match splitComma rest with
      | [] => [[c]]
      | item :: items => (c :: item) :: items

/-- `_parse_csv`. -/
def parseCsv (raw : String) : List String :=
  ((splitComma raw.toList).map fun item => strip (String.ofList item)).filter fun item => item ≠ ""

def defaultRulesAllowedScopes : List String := ["reminders.write"]

namespace PolicyEnv

def mode (rt : Runtime) (env : PolicyEnv) : ScopeMode :=
  if rt.casefold (strip (env.scopeMode.getD "default")) = "allowlist" then .allowlist else .default

def enabledScopes (env : PolicyEnv) : List String := parseCsv (env.scopesEnabled.getD "")

def rulesScopes (env : PolicyEnv) : List String :=
  if strip (env.rulesAllowedScopes.getD "") = "" then defaultRulesAllowedScopes
  else parseCsv (env.rulesAllowedScopes.getD "")

def overridesEnabled (rt : Runtime) (env : PolicyEnv) : Bool :=
  decide (rt.casefold (strip (env.policyOverrides.getD "on")) ≠ "off")

end PolicyEnv

def canonical (scopes : List String) : List String := scopes.filter fun scope => scope ∈ allScopes

/-- A list of the file replaces the one of the environment. -/
def override (fromFile : Option (List String)) (fromEnv : List String) : List String :=
  match fromFile with
  | some scopes => canonical scopes
  | none => fromEnv

/-- `PermissionsPolicy(overrides_store=store)`. -/
def buildPolicy (rt : Runtime) (env : PolicyEnv) (file : Overrides) : PermissionsPolicy :=
  if env.overridesEnabled rt then
    ⟨env.mode rt, override file.scopesEnabled env.enabledScopes,
      override file.rulesAllowedScopes env.rulesScopes, true⟩
  else ⟨env.mode rt, env.enabledScopes, env.rulesScopes, false⟩

inductive Request where
  | enableScopes (scopes : List String)
  | disableScopes (scopes : List String)
  | setRulesAllowedScopes (scopes : List String)
  | resetRulesAllowedScopes
  deriving DecidableEq, Repr

def Request.scopes : Request → List String
  | .enableScopes scopes | .disableScopes scopes | .setRulesAllowedScopes scopes => scopes
  | .resetRulesAllowedScopes => []

/-- `_validate_scopes`. -/
def validateScopes (scopes : List String) : Except PyError (List String) :=
  match sortedSet (scopes.filter fun scope => scope ∉ allScopes) with
  | [] => .ok (sortedSet scopes)
  | unknown => .error (.httpException 400 ("unknown scopes: " ++ ",".intercalate unknown))

/-- `_guard_overrides_enabled`. -/
def guardOverridesEnabled (policy : PermissionsPolicy) : Except PyError Unit :=
  if policy.overridesEnabled then .ok ()
  else .error (.httpException 409 "policy overrides are disabled (env controlled)")

def enableOverrides (policy : PermissionsPolicy) (file : Overrides) (scopes : List String) :
    Overrides :=
  ⟨some (sortedSet (canonical (file.scopesEnabled.getD [] ++ scopes))),
    some (file.rulesAllowedScopes.getD policy.snapshotModel.rulesAllowedScopes)⟩

def disableOverrides (policy : PermissionsPolicy) (file : Overrides) (scopes : List String) :
    Overrides :=
  let current := file.scopesEnabled.getD policy.explicitScopesEnabled
  ⟨some (sortedSet (canonical (current.filter fun scope => scope ∉ scopes))),
    some (file.rulesAllowedScopes.getD policy.snapshotModel.rulesAllowedScopes)⟩

def rulesOverrides (policy : PermissionsPolicy) (file : Overrides) (scopes : List String) :
    Overrides :=
  ⟨some (file.scopesEnabled.getD (sortedSet policy.explicitScopesEnabled)), some scopes⟩

/-- What an accepted request writes. -/
def edit (policy : PermissionsPolicy) (file : Overrides) : Request → List String → Overrides
  | .enableScopes _, scopes => enableOverrides policy file scopes
  | .disableScopes _, scopes => disableOverrides policy file scopes
  | .setRulesAllowedScopes _, scopes => rulesOverrides policy file scopes
  | .resetRulesAllowedScopes, _ => rulesOverrides policy file (sortedSet defaultRulesAllowedScopes)

/-- An endpoint answers with the policy that is then in force, and rewrites the file. -/
def handle (rt : Runtime) (env : PolicyEnv) (file : Overrides) (request : Request) :
    Except PyError PolicySnapshot × Overrides :=
  match validateScopes request.scopes with
  | .error e => (.error e, file)
  | .ok scopes =>
    let policy := buildPolicy rt env file
    match guardOverridesEnabled policy with
    | .error e => (.error e, file)
    | .ok _ =>
      let overrides := edit policy file request scopes
      (.ok (buildPolicy rt env overrides).snapshotModel, overrides)

def apply (rt : Runtime) (env : PolicyEnv) (file : Overrides) (request : Request) : Overrides :=
  (handle rt env file request).2

structure Has (policy : PermissionsPolicy) (enabled rules : String → Prop) : Prop where
  enabled : ∀ scope, scope ∈ policy.explicitScopesEnabled ↔ enabled scope
  rules : ∀ scope, scope ∈ policy.rulesAllowedScopes ↔ rules scope

def Accepted (rt : Runtime) (env : PolicyEnv) (request : Request) : Prop :=
  env.overridesEnabled rt = true ∧ ∀ scope ∈ request.scopes, scope ∈ allScopes

/-- What the request says it changes. -/
def Edited (before after : PermissionsPolicy) : Request → Prop
  | .enableScopes scopes => Has after
    (fun s => s ∈ before.explicitScopesEnabled ∨ s ∈ scopes) (· ∈ before.rulesAllowedScopes)
  | .disableScopes scopes => Has after
    (fun s => s ∈ before.explicitScopesEnabled ∧ s ∉ scopes) (· ∈ before.rulesAllowedScopes)
  | .setRulesAllowedScopes scopes => Has after (· ∈ before.explicitScopesEnabled) (· ∈ scopes)
  | .resetRulesAllowedScopes => Has after (· ∈ before.explicitScopesEnabled)
    (· ∈ defaultRulesAllowedScopes)

def Serves (rt : Runtime) (env : PolicyEnv) (file : Overrides) (request : Request) : Prop :=
  (Accepted rt env request → (∃ snapshot, (handle rt env file request).1 = .ok snapshot) ∧
    Edited (buildPolicy rt env file) (buildPolicy rt env (apply rt env file request)) request) ∧
  (¬ Accepted rt env request →
    (∃ status detail, (handle rt env file request).1 = .error (.httpException status detail) ∧
      (status = 400 ∨ status = 409)) ∧ apply rt env file request = file)

/-- An accepted request to enable scopes finds a list of enabled scopes in the file, or
names all those that the environment enables. -/
def Covers (rt : Runtime) (env : PolicyEnv) (file : Overrides) : Request → Prop
  | .enableScopes scopes => Accepted rt env (.enableScopes scopes) → file.scopesEnabled = none →
    ∀ scope ∈ env.enabledScopes, scope ∈ scopes
  | _ => True

@[simp] theorem mem_canonical {scope : String} {scopes : List String} :
    scope ∈ canonical scopes ↔ scope ∈ scopes ∧ scope ∈ allScopes := by
  simp [canonical]

structure Canonical (env : PolicyEnv) : Prop where
  enabled : ∀ scope ∈ env.enabledScopes, scope ∈ allScopes
  rules : ∀ scope ∈ env.rulesScopes, scope ∈ allScopes

section Requests

variable {rt : Runtime} {env : PolicyEnv} {file : Overrides} {request : Request}

theorem validateScopes_ok {scopes : List String} (h : ∀ scope ∈ scopes, scope ∈ allScopes) :
    validateScopes scopes = .ok (sortedSet scopes) := by
  have hnone : (scopes.filter fun scope => scope ∉ allScopes) = [] := by
    rw [List.filter_eq_nil_iff]
    intro scope hscope
    simpa using h scope hscope
  rw [validateScopes, hnone]
  rfl

theorem validateScopes_error {scopes : List String} (h : ¬ ∀ scope ∈ scopes, scope ∈ allScopes) :
    ∃ detail, validateScopes scopes = .error (.httpException 400 detail) := by
  rw [validateScopes]
  split
  · rename_i hnone
    refine absurd (fun scope hscope => ?_) h
    by_contra hunknown
    have hmem : scope ∈ sortedSet (scopes.filter fun scope => scope ∉ allScopes) := by
      rw [mem_sortedSet, List.mem_filter]
      exact ⟨hscope, by simpa using hunknown⟩
    rw [hnone] at hmem
    cases hmem
  · exact ⟨_, rfl⟩

theorem buildPolicy_enabled (h : env.overridesEnabled rt = true) (file : Overrides) :
    buildPolicy rt env file = ⟨env.mode rt, override file.scopesEnabled env.enabledScopes,
      override file.rulesAllowedScopes env.rulesScopes, true⟩ := if_pos h

theorem handle_accepted (h : Accepted rt env request) :
    apply rt env file request =
        edit (buildPolicy rt env file) file request (sortedSet request.scopes) ∧
      ∃ snapshot, (handle rt env file request).1 = .ok snapshot := by
  obtain ⟨henabled, hscopes⟩ := h
  have hguard : guardOverridesEnabled (buildPolicy rt env file) = .ok () := by
    rw [buildPolicy_enabled henabled]
    rfl
  rw [apply, handle]
  simp only [validateScopes_ok hscopes, hguard]
  exact ⟨trivial, _, rfl⟩

theorem handle_rejected (h : ¬ Accepted rt env request) :
    (∃ status detail, (handle rt env file request).1 = .error (.httpException status detail) ∧
      (status = 400 ∨ status = 409)) ∧ apply rt env file request = file := by
  rw [apply, handle]
  by_cases hscopes : ∀ scope ∈ request.scopes, scope ∈ allScopes
  · have hdisabled : env.overridesEnabled rt = false := by
      cases henabled : env.overridesEnabled rt with
      | false => rfl
      | true => exact absurd ⟨henabled, hscopes⟩ h
    have hguard : guardOverridesEnabled (buildPolicy rt env file) =
        .error (.httpException 409 "policy overrides are disabled (env controlled)") := by
      rw [buildPolicy, hdisabled]
      rfl
    simp only [validateScopes_ok hscopes, hguard]
    exact ⟨⟨409, _, rfl, Or.inr rfl⟩, trivial⟩
  · obtain ⟨detail, hunknown⟩ := validateScopes_error hscopes
    simp only [hunknown]
    exact ⟨⟨400, detail, rfl, Or.inl rfl⟩, trivial⟩

/-- A part of the file that no request has written yet is written as the policy has it. -/
theorem mem_override_getD {fromFile : Option (List String)} {fromEnv scopes : List String}
    (henv : ∀ scope ∈ fromEnv, scope ∈ allScopes)
    (hscopes : ∀ scope, scope ∈ scopes ↔ scope ∈ override fromFile fromEnv) (scope : String) :
    scope ∈ override (some (fromFile.getD scopes)) fromEnv ↔ scope ∈ override fromFile fromEnv := by
  cases fromFile with
  | some written => rfl
  | none =>
    simp only [override, Option.getD_none, mem_canonical, hscopes]
    exact and_iff_left_of_imp (henv scope)

theorem rules_kept (henv : Canonical env) (henabled : env.overridesEnabled rt = true)
    (scope : String) :
    scope ∈ override (some (file.rulesAllowedScopes.getD
        (buildPolicy rt env file).snapshotModel.rulesAllowedScopes)) env.rulesScopes ↔
      scope ∈ (buildPolicy rt env file).rulesAllowedScopes := by
  rw [buildPolicy_enabled henabled]
  refine mem_override_getD henv.rules (fun other => ?_) scope
  simp [PermissionsPolicy.snapshotModel]

theorem enabled_kept (henv : Canonical env) (henabled : env.overridesEnabled rt = true)
    (scope : String) :
    scope ∈ override (some (file.scopesEnabled.getD
        (sortedSet (buildPolicy rt env file).explicitScopesEnabled))) env.enabledScopes ↔
      scope ∈ (buildPolicy rt env file).explicitScopesEnabled := by
  rw [buildPolicy_enabled henabled]
  refine mem_override_getD henv.enabled (fun other => ?_) scope
  simp

theorem enable_edited (henv : Canonical env) {scopes : List String}
    (h : Accepted rt env (.enableScopes scopes)) :
    Edited (buildPolicy rt env file) (buildPolicy rt env (apply rt env file (.enableScopes scopes)))
        (.enableScopes scopes) ↔
      (file.scopesEnabled = none → ∀ scope ∈ env.enabledScopes, scope ∈ scopes) := by
  have henabled := h.1
  have hscopes : ∀ scope ∈ scopes, scope ∈ allScopes := h.2
  have hafter : ∀ scope, scope ∈ (buildPolicy rt env
      (apply rt env file (.enableScopes scopes))).explicitScopesEnabled ↔
        scope ∈ canonical (file.scopesEnabled.getD []) ∨ scope ∈ scopes := by
    intro scope
    have hcanonical := hscopes scope
    rw [(handle_accepted h).1, buildPolicy_enabled henabled]
    simp only [edit, enableOverrides, override, mem_canonical, mem_sortedSet, List.mem_append,
      Request.scopes]
    tauto
  have hbefore := congrArg PermissionsPolicy.explicitScopesEnabled
    (buildPolicy_enabled henabled file)
  constructor
  · intro hedited hnone scope hscope
    have henabledAfter := (hedited.enabled scope).mpr (Or.inl (by
      rw [hbefore, hnone]
      exact hscope))
    rw [hafter, hnone] at henabledAfter
    exact henabledAfter.resolve_left (by simp)
  · intro hcovers
    refine ⟨fun scope => ?_, fun scope => ?_⟩
    · rw [hafter, hbefore]
      cases hfile : file.scopesEnabled with
      | some written => rfl
      | none =>
        have hcovered := hcovers hfile scope
        simp only [Option.getD_none, override, mem_canonical, List.not_mem_nil, false_and, false_or]
        tauto
    · rw [(handle_accepted h).1, buildPolicy_enabled henabled]
      exact rules_kept henv henabled scope

theorem disable_edited (henv : Canonical env) {scopes : List String}
    (h : Accepted rt env (.disableScopes scopes)) :
    Edited (buildPolicy rt env file)
      (buildPolicy rt env (apply rt env file (.disableScopes scopes)))
      (.disableScopes scopes) := by
  have henabled := h.1
  refine ⟨fun scope => ?_, fun scope => ?_⟩
  · have hcanonical := henv.enabled scope
    rw [(handle_accepted h).1, buildPolicy_enabled henabled]
    cases hfile : file.scopesEnabled with
    | some written =>
      simp only [edit, disableOverrides, override, hfile, Option.getD_some, mem_canonical,
        mem_sortedSet, List.mem_filter, Request.scopes, decide_eq_true_eq,
        buildPolicy_enabled henabled]
      tauto
    | none =>
      simp only [edit, disableOverrides, override, hfile, Option.getD_none, mem_canonical,
        mem_sortedSet, List.mem_filter, Request.scopes, decide_eq_true_eq,
          buildPolicy_enabled henabled]
      tauto
  · rw [(handle_accepted h).1, buildPolicy_enabled henabled]
    exact rules_kept henv henabled scope

theorem rules_edited (henv : Canonical env) (h : Accepted rt env request) {rules : List String}
    (hedit : edit (buildPolicy rt env file) file request (sortedSet request.scopes) =
      rulesOverrides (buildPolicy rt env file) file (sortedSet rules))
    (hrules : ∀ scope ∈ rules, scope ∈ allScopes) :
    Has (buildPolicy rt env (apply rt env file request))
      (· ∈ (buildPolicy rt env file).explicitScopesEnabled) (· ∈ rules) := by
  have henabled := h.1
  rw [(handle_accepted h).1, hedit, buildPolicy_enabled henabled (rulesOverrides ..)]
  refine ⟨fun scope => enabled_kept henv henabled scope, fun scope => ?_⟩
  have hcanonical := hrules scope
  simp only [rulesOverrides, override, mem_canonical, mem_sortedSet]
  tauto

theorem edited_iff (henv : Canonical env) (file : Overrides) (h : Accepted rt env request) :
    Edited (buildPolicy rt env file) (buildPolicy rt env (apply rt env file request)) request ↔
      Covers rt env file request := by
  cases request with
  | enableScopes scopes =>
    rw [enable_edited henv h]
    exact ⟨fun hcovers _ => hcovers, fun hcovers => hcovers h⟩
  | disableScopes scopes => exact iff_of_true (disable_edited henv h) trivial
  | setRulesAllowedScopes scopes =>
    exact iff_of_true (rules_edited henv h rfl h.2) trivial
  | resetRulesAllowedScopes =>
    have hdefaults : ∀ scope ∈ defaultRulesAllowedScopes, scope ∈ allScopes := by decide
    exact iff_of_true (rules_edited henv h rfl hdefaults) trivial

theorem serves_iff (henv : Canonical env) (file : Overrides) (request : Request) :
    Serves rt env file request ↔ Covers rt env file request := by
  rw [Serves]
  by_cases h : Accepted rt env request
  · have hedited := edited_iff henv file h
    constructor
    · intro hserves
      exact hedited.mp (hserves.1 h).2
    · intro hcovers
      exact ⟨fun _ => ⟨(handle_accepted h).2, hedited.mpr hcovers⟩,
        fun hrejected => absurd h hrejected⟩
  · have hcovers : Covers rt env file request := by
      cases request with
      | enableScopes scopes => exact fun haccepted => absurd haccepted h
      | disableScopes scopes => trivial
      | setRulesAllowedScopes scopes => trivial
      | resetRulesAllowedScopes => trivial
    exact iff_of_true ⟨fun haccepted => absurd haccepted h, fun _ => handle_rejected h⟩ hcovers

end Requests

theorem edits_exactly (rt : Runtime) (env : PolicyEnv) (henv : Canonical env) (file : Overrides)
    (requests : List Request) :
    ∀ t ∈ SerialRun.transitions (apply rt env) file requests,
      Serves rt env t.before t.op ↔ Covers rt env t.before t.op :=
  fun t _ => serves_iff henv t.before t.op

def exampleRuntime : Runtime where
  uuid4 n := toString n
  sha256 s := s
  loads _ := none
  str _ := ""
  casefold s := s
  fromisoformat _ := none
  skillRun _ := .returned ""
  notifierSend _ := none

def calendarEnv : PolicyEnv := ⟨none, some "calendar.write", none, none⟩

theorem calendarEnv_canonical : Canonical calendarEnv := ⟨by decide, by decide⟩

/-- Once a request has written the list of enabled scopes, another scope is added to it. -/
theorem enables_after_disabling :
    (SerialRun.transitions (apply exampleRuntime calendarEnv) ⟨none, none⟩
        [.disableScopes ["gmail.send"], .enableScopes ["gmail.draft"]]).Forall fun t =>
      Serves exampleRuntime calendarEnv t.before t.op := by
  rw [List.forall_iff_forall_mem]
  intro t ht
  refine (edits_exactly exampleRuntime calendarEnv calendarEnv_canonical _ _ t ht).mpr ?_
  simp only [SerialRun.transitions, List.mem_cons, List.not_mem_nil, or_false] at ht
  rcases ht with rfl | rfl
  · trivial
  · exact fun _ h => absurd h (by decide)

/-- The first request to enable a scope drops the one that the environment enables. -/
theorem first_enable_drops :
    Canonical calendarEnv ∧ Accepted exampleRuntime calendarEnv (.enableScopes ["gmail.draft"]) ∧
      "calendar.write" ∈
        (buildPolicy exampleRuntime calendarEnv ⟨none, none⟩).explicitScopesEnabled ∧
      "calendar.write" ∉ (buildPolicy exampleRuntime calendarEnv (apply exampleRuntime calendarEnv
        ⟨none, none⟩ (.enableScopes ["gmail.draft"]))).explicitScopesEnabled :=
  ⟨calendarEnv_canonical, ⟨by decide, by decide⟩, by decide, by decide⟩

end PolicyOverrides
