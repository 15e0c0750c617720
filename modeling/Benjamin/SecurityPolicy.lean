import Mathlib.Data.List.Basic
import Mathlib.Data.String.Basic

/-!
# Scopes and the permissions policy

The scope tables and the queries on a `PermissionsPolicy` value. How the
constructor reads the environment and the overrides file is not modelled here: a
state of the system holds the value that the constructor would compute now.
-/
namespace SecurityPolicy

def readScopes : List String :=
  ["filesystem.read", "web.read", "calendar.read", "gmail.read", "memory.read", "rules.read",
    "jobs.read"]

def writeScopes : List String :=
  ["reminders.write", "calendar.write", "gmail.draft", "gmail.send", "memory.write",
    "rules.write", "jobs.write"]

def allScopes : List String := readScopes ++ writeScopes

def skillScopeDefaults : List (String × List String) :=
  [("filesystem", ["filesystem.read"]),
    ("filesystem.search_read", ["filesystem.read"]),
    ("web.search", ["web.read"]),
    ("web_search", ["web.read"]),
    ("calendar.search", ["calendar.read"]),
    ("calendar.create_event", ["calendar.write"]),
    ("gmail.search", ["gmail.read"]),
    ("gmail.read_message", ["gmail.read"]),
    ("gmail.thread_summary", ["gmail.read"]),
    ("gmail.draft_email", ["gmail.draft"]),
    ("reminders.create", ["reminders.write"])]

/-- `casefold() == "write"`: only ASCII letters fold to the letters of the word. -/
def foldsToWrite (sideEffect : String) : Bool :=
  sideEffect.toList.map Char.toLower = ['w', 'r', 'i', 't', 'e']

def defaultScopesForSkill (skillName sideEffect : String) : List String :=
  match skillScopeDefaults.find? fun kv => kv.1 = skillName with
  | some (_, scopes) => scopes
  | none => if foldsToWrite sideEffect then ["jobs.write"] else ["jobs.read"]

theorem defaultScopesForSkill_ne_nil (skillName sideEffect : String) :
    defaultScopesForSkill skillName sideEffect ≠ [] := by
  have hall : ∀ kv ∈ skillScopeDefaults, kv.2 ≠ [] := by decide
  rw [defaultScopesForSkill]
  split
  · rename_i name scopes hfind
    exact hall _ (List.mem_of_find?_eq_some hfind)
  · split <;> simp

inductive ScopeMode where
  | default | allowlist
  deriving DecidableEq, Repr

def ScopeMode.str : ScopeMode → String
  | .default => "default"
  | .allowlist => "allowlist"

structure PermissionsPolicy where
  scopeMode : ScopeMode
  explicitScopesEnabled : List String
  rulesAllowedScopes : List String
  overridesEnabled : Bool
  deriving DecidableEq, Repr

structure PolicySnapshot where
  mode : String
  scopesEnabled : List String
  rulesAllowedScopes : List String
  overridesEnabled : Bool
  deriving DecidableEq, Repr

def insertSorted (s : String) : List String → List String
  | [] => [s]
  | t :: rest =>
    if s < t then s :: t :: rest
    else if s = t then t :: rest
    else t :: insertSorted s rest

/-- `sorted({...})`. -/
def sortedSet (xs : List String) : List String := xs.foldr insertSorted []

theorem mem_insertSorted {s t : String} {xs : List String} :
    s ∈ insertSorted t xs ↔ s = t ∨ s ∈ xs := by
  induction xs with
  | nil => simp [insertSorted]
  | cons x rest ih =>
    rw [insertSorted]
    split
    · simp
    · split
      · rename_i heq
        subst heq
        simp
      · simp only [List.mem_cons, ih]
        tauto

@[simp] theorem mem_sortedSet {s : String} {xs : List String} : s ∈ sortedSet xs ↔ s ∈ xs := by
  induction xs with
  | nil => simp [sortedSet]
  | cons x rest ih =>
    rw [sortedSet, List.foldr_cons, mem_insertSorted, List.mem_cons]
    exact or_congr Iff.rfl ih

theorem sortedSet_isEmpty (xs : List String) : (sortedSet xs).isEmpty = xs.isEmpty := by
  cases xs with
  | nil => rfl
  | cons x rest =>
    have hx : x ∈ sortedSet (x :: rest) := by simp
    cases h : sortedSet (x :: rest) with
    | nil => rw [h] at hx; simp at hx
    | cons y ys => rfl

namespace PermissionsPolicy

def isScopeEnabled (p : PermissionsPolicy) (scope : String) : Bool :=
  match p.scopeMode with
  | .allowlist => scope ∈ p.explicitScopesEnabled
  | .default => decide (scope ∈ readScopes) || decide (scope ∈ p.explicitScopesEnabled)

def checkScopes (p : PermissionsPolicy) (scopes : List String) : Bool × List String :=
  let disabled := sortedSet (scopes.filter fun scope => !p.isScopeEnabled scope)
  (disabled.isEmpty, disabled)

def checkRulesAllowlist (p : PermissionsPolicy) (scopes : List String) : Bool × List String :=
  let blocked := sortedSet (scopes.filter fun scope => decide (scope ∉ p.rulesAllowedScopes))
  (blocked.isEmpty, blocked)

def snapshotModel (p : PermissionsPolicy) : PolicySnapshot :=
  ⟨p.scopeMode.str, allScopes.filter p.isScopeEnabled, sortedSet p.rulesAllowedScopes,
    p.overridesEnabled⟩

theorem checkScopes_iff {p : PermissionsPolicy} {scopes : List String} :
    (p.checkScopes scopes).1 = true ↔ ∀ scope ∈ scopes, p.isScopeEnabled scope = true := by
  simp [checkScopes, sortedSet_isEmpty]

theorem checkRulesAllowlist_iff {p : PermissionsPolicy} {scopes : List String} :
    (p.checkRulesAllowlist scopes).1 = true ↔ ∀ scope ∈ scopes, scope ∈ p.rulesAllowedScopes := by
  simp [checkRulesAllowlist, sortedSet_isEmpty]

end PermissionsPolicy

end SecurityPolicy
