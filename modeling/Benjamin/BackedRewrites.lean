import Mathlib.Data.List.Infix
import Mathlib.Logic.Function.Basic

/-!
# Rewriting a file after a backup

A file is rewritten again and again, each time after its content has been copied under a
name of its own choosing. What the file held first can be found under one of these names
exactly when some rewrite copied it and none of the later ones took the name.
-/
namespace BackedRewrites

variable {Name Content : Type*} [DecidableEq Name]

structure Rewrite (Name Content : Type*) where
  backup : Name
  content : Content

def rewrite (file : Name) (d : Name → Option Content) (r : Rewrite Name Content) :
    Name → Option Content :=
  Function.update (Function.update d r.backup (d file)) file (some r.content)

def rewriteAll (file : Name) (d : Name → Option Content) (rs : List (Rewrite Name Content)) :
    Name → Option Content :=
  rs.foldl (rewrite file) d

variable {file : Name} {d : Name → Option Content} {r : Rewrite Name Content}
  {rs front back : List (Rewrite Name Content)}

theorem rewriteAll_cons : rewriteAll file d (r :: rs) = rewriteAll file (rewrite file d r) rs := rfl

theorem rewriteAll_append :
    rewriteAll file d (front ++ back) = rewriteAll file (rewriteAll file d front) back :=
  List.foldl_append

theorem rewrite_file : rewrite file d r file = some r.content := Function.update_self ..

theorem rewrite_backup (h : r.backup ≠ file) : rewrite file d r r.backup = d file := by
  rw [rewrite, Function.update_of_ne h, Function.update_self]

theorem rewrite_other {name : Name} (hfile : name ≠ file) (hbackup : name ≠ r.backup) :
    rewrite file d r name = d name := by
  rw [rewrite, Function.update_of_ne hfile, Function.update_of_ne hbackup]

theorem rewriteAll_other {name : Name} (hfile : name ≠ file)
    (hbackup : name ∉ rs.map Rewrite.backup) : rewriteAll file d rs name = d name := by
  induction rs generalizing d with
  | nil => rfl
  | cons r rest ih =>
    rw [List.map_cons, List.mem_cons, not_or] at hbackup
    rw [rewriteAll_cons, ih hbackup.2, rewrite_other hfile hbackup.1]

theorem rewriteAll_backup (hfile : r.backup ≠ file) (hback : r.backup ∉ back.map Rewrite.backup) :
    rewriteAll file d (front ++ r :: back) r.backup = rewriteAll file d front file := by
  rw [rewriteAll_append, rewriteAll_cons, rewriteAll_other hfile hback, rewrite_backup hfile]

theorem single_rewrite_kept (hfile : r.backup ≠ file) :
    rewriteAll file d [r] r.backup = d file :=
  rewrite_backup hfile

theorem last_use {name : Name} (h : name ∈ rs.map Rewrite.backup) : ∃ front r back,
    rs = front ++ r :: back ∧ r.backup = name ∧ name ∉ back.map Rewrite.backup := by
  induction rs with
  | nil => cases h
  | cons r rest ih =>
    by_cases hrest : name ∈ rest.map Rewrite.backup
    · obtain ⟨front, r', back, rfl, hname, hback⟩ := ih hrest
      exact ⟨r :: front, r', back, rfl, hname, hback⟩
    · rw [List.map_cons, List.mem_cons] at h
      exact ⟨[], r, rest, rfl, (h.resolve_right hrest).symm, hrest⟩

theorem original_kept_iff (hbackups : ∀ r ∈ rs, r.backup ≠ file) :
    (∃ r ∈ rs, rewriteAll file d rs r.backup = d file) ↔ ∃ front r back,
      rs = front ++ r :: back ∧ rewriteAll file d front file = d file ∧
        r.backup ∉ back.map Rewrite.backup := by
  constructor
  · rintro ⟨r, hr, hkept⟩
    obtain ⟨front, r', back, rfl, hname, hback⟩ := last_use (List.mem_map_of_mem hr)
    rw [← hname] at hback hkept
    have hfile := hbackups r' (by simp)
    rw [rewriteAll_backup hfile hback] at hkept
    exact ⟨front, r', back, rfl, hkept, hback⟩
  · rintro ⟨front, r, back, rfl, hkept, hback⟩
    have hfile := hbackups r (by simp)
    exact ⟨r, by simp, (rewriteAll_backup hfile hback).trans hkept⟩

/-- Two rewrites keep what the file held first unless they use one name and the first
changed the file. -/
theorem two_rewrites_kept_iff {r₁ r₂ : Rewrite Name Content} (h₁ : r₁.backup ≠ file)
    (h₂ : r₂.backup ≠ file) :
    (∃ r ∈ [r₁, r₂], rewriteAll file d [r₁, r₂] r.backup = d file) ↔
      r₁.backup ≠ r₂.backup ∨ some r₁.content = d file := by
  have hbackups : ∀ r ∈ [r₁, r₂], r.backup ≠ file := by simp [h₁, h₂]
  rw [original_kept_iff hbackups]
  constructor
  · rintro ⟨front, r, back, hsplit, hkept, hback⟩
    cases front with
    | nil =>
      rw [List.nil_append, List.cons.injEq] at hsplit
      obtain ⟨rfl, rfl⟩ := hsplit
      left
      simpa using hback
    | cons r' front =>
      rw [List.cons_append, List.cons.injEq] at hsplit
      obtain ⟨rfl, hsplit⟩ := hsplit
      have hfront : front = [] := by
        have hlength := congrArg List.length hsplit
        simp only [List.length_append, List.length_cons, List.length_nil] at hlength
        exact List.length_eq_zero_iff.mp (by omega)
      subst hfront
      right
      rwa [rewriteAll_cons, rewriteAll, List.foldl_nil, rewrite_file] at hkept
  · rintro (hname | hsame)
    · exact ⟨[], r₁, [r₂], rfl, rfl, by simpa using hname⟩
    · exact ⟨[r₁], r₂, [], rfl, by rwa [rewriteAll_cons, rewriteAll, List.foldl_nil, rewrite_file],
        by simp⟩

end BackedRewrites
