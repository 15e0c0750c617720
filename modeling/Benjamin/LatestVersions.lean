import Mathlib.Data.List.Nodup

/-!
# The latest versions in a log

Records may have a key, and a record is superseded by any later one with its key. What is
left has every key once, where the log has it last; records without a key all stay.
-/
namespace LatestVersions

universe u v

variable {ρ : Type u} {κ : Type v} [DecidableEq κ]

def Superseded (key : ρ → Option κ) (r : ρ) (later : List ρ) : Prop :=
  key r ≠ none ∧ key r ∈ later.map key

instance (key : ρ → Option κ) (r : ρ) (later : List ρ) : Decidable (Superseded key r later) :=
  inferInstanceAs (Decidable (_ ∧ _))

def newest (key : ρ → Option κ) : List ρ → List ρ
  | [] => []
  | r :: later => if Superseded key r later then newest key later else r :: newest key later

variable {key : ρ → Option κ} {log : List ρ} {r : ρ}

omit [DecidableEq κ] in
theorem superseded_iff {k : κ} (h : key r = some k) :
    Superseded key r log ↔ k ∈ log.filterMap key := by
  simp [Superseded, h]

theorem newest_sublist (key : ρ → Option κ) (log : List ρ) : (newest key log).Sublist log := by
  induction log with
  | nil => exact List.Sublist.refl _
  | cons r later ih =>
    rw [newest]
    split
    · exact ih.trans (List.sublist_cons_self _ _)
    · exact ih.cons_cons r

theorem mem_keys_newest {k : κ} : k ∈ (newest key log).filterMap key ↔ k ∈ log.filterMap key := by
  induction log with
  | nil => exact Iff.rfl
  | cons r later ih =>
    rw [newest]
    cases hkey : key r with
    | none => simp only [Superseded, hkey, ne_eq, not_true_eq_false, false_and, if_false,
        List.filterMap_cons, ih]
    | some j =>
      by_cases hlater : Superseded key r later
      · have hj : j ∈ later.filterMap key := (superseded_iff hkey).mp hlater
        rw [if_pos hlater, ih, List.filterMap_cons_some hkey, List.mem_cons, or_iff_right_of_imp]
        rintro rfl
        exact hj
      · rw [if_neg hlater, List.filterMap_cons_some hkey, List.filterMap_cons_some hkey,
          List.mem_cons, List.mem_cons, ih]

theorem newest_keys_nodup (key : ρ → Option κ) (log : List ρ) :
    ((newest key log).filterMap key).Nodup := by
  induction log with
  | nil => exact List.nodup_nil
  | cons r later ih =>
    rw [newest]
    split
    · exact ih
    · rename_i hlast
      cases hkey : key r with
      | none => rwa [List.filterMap_cons_none hkey]
      | some k =>
        rw [List.filterMap_cons_some hkey, List.nodup_cons, mem_keys_newest]
        exact ⟨fun hmem => hlast ((superseded_iff hkey).mpr hmem), ih⟩

theorem newest_of_nodup (h : (log.filterMap key).Nodup) : newest key log = log := by
  induction log with
  | nil => rfl
  | cons r later ih =>
    cases hkey : key r with
    | none =>
      rw [List.filterMap_cons_none hkey] at h
      rw [newest, if_neg (by simp [Superseded, hkey]), ih h]
    | some k =>
      rw [List.filterMap_cons_some hkey, List.nodup_cons] at h
      rw [newest, if_neg (fun hmem => h.1 ((superseded_iff hkey).mp hmem)), ih h.2]

/-- Earlier records do not change which of the later ones are left. -/
theorem newest_append (key : ρ → Option κ) (before after : List ρ) :
    ∃ kept, List.Sublist kept before ∧ newest key (before ++ after) = kept ++ newest key after := by
  induction before with
  | nil => exact ⟨[], List.Sublist.refl _, rfl⟩
  | cons r rest ih =>
    obtain ⟨kept, hkept, hnewest⟩ := ih
    rw [List.cons_append, newest, hnewest]
    split
    · exact ⟨kept, hkept.trans (List.sublist_cons_self _ _), rfl⟩
    · exact ⟨r :: kept, hkept.cons_cons r, rfl⟩

theorem newest_keeps_last (before : List ρ) {after : List ρ} (h : ¬ Superseded key r after) :
    ∃ kept, List.Sublist kept before ∧
      newest key (before ++ r :: after) = kept ++ r :: newest key after := by
  obtain ⟨kept, hkept, hnewest⟩ := newest_append key before (r :: after)
  rw [newest, if_neg h] at hnewest
  exact ⟨kept, hkept, hnewest⟩

end LatestVersions
