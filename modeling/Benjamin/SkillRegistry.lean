import Benjamin.KeyedList
import Benjamin.PyBase
import Benjamin.SecurityPolicy

/-!
# The skill registry

A registered skill has a scope: `register` fills the list from the defaults when
the skill brings none. What `run` does is left to the runtime.
-/
namespace SkillRegistry

open PyBase SecurityPolicy

structure Skill where
  name : String
  sideEffect : String
  requiredScopes : List String
  deriving DecidableEq, Repr

def Skill.IsWrite (s : Skill) : Prop := s.sideEffect = "write"

instance (s : Skill) : Decidable s.IsWrite := inferInstanceAs (Decidable (_ = _))

structure Registry where
  skills : List Skill
  distinct : (skills.map Skill.name).Nodup
  requires : ∀ s ∈ skills, s.requiredScopes ≠ []

def Registry.empty : Registry := ⟨[], List.nodup_nil, by simp⟩

/-- The skill as `register` leaves it. -/
def withScopes (s : Skill) : Skill :=
  if s.requiredScopes = [] then
    { s with requiredScopes := defaultScopesForSkill s.name s.sideEffect }
  else s

theorem withScopes_scoped (s : Skill) : (withScopes s).requiredScopes ≠ [] := by
  rw [withScopes]
  split
  · exact defaultScopesForSkill_ne_nil _ _
  · assumption

def Registry.register (r : Registry) (s : Skill) : Registry where
  skills := KeyedList.upsert Skill.name (withScopes s) r.skills
  distinct := KeyedList.nodup_upsert r.distinct
  requires := by
    intro t ht
    rcases KeyedList.mem_upsert ht with rfl | ht
    · exact withScopes_scoped s
    · exact r.requires t ht

def Registry.get (r : Registry) (name : String) : Except PyError Skill :=
  match KeyedList.get Skill.name r.skills name with
  | some s => .ok s
  | none => .error (.keyError name)

theorem get_registered {r : Registry} {name : String} {s : Skill} (h : r.get name = .ok s) :
    s ∈ r.skills ∧ s.name = name ∧ s.requiredScopes ≠ [] := by
  rw [Registry.get] at h
  split at h
  · rename_i found hfound
    cases h
    have hmem := KeyedList.get_mem hfound
    exact ⟨hmem, KeyedList.get_key hfound, r.requires _ hmem⟩
  · cases h

end SkillRegistry
