import Mathlib.Data.List.Nodup
import Benjamin.KeyedList

/-!
# Amended records

Writes to a list of records with keys. A write to a key that has a record amends the record
where it stands, a write to any other key adds one. An amended record keeps its identity and
has the content of the write. After any number of writes the content under a key is that of
the last write to it, and the records stand in the order in which their keys came.
-/
namespace Amendments

open KeyedList
open BoundedLog (latest)

/-- How a write amends a record, or makes one. -/
structure Amending (ω α κ ι ν : Type*) where
  key : α → κ
  place : ω → κ
  make : ω → Option α → α
  identity : α → ι
  content : α → ν
  written : ω → ν
  key_make : ∀ w old, (∀ x, old = some x → key x = place w) → key (make w old) = place w
  identity_make : ∀ w x, identity (make w (some x)) = identity x
  content_make : ∀ w old, content (make w old) = written w

variable {ω α κ ι ν : Type*} [DecidableEq κ] (A : Amending ω α κ ι ν)

def made (w : ω) (xs : List α) : α := A.make w (get A.key xs (A.place w))

def amend (xs : List α) (w : ω) : List α := upsert A.key (made A w xs) xs

def amendAll (xs : List α) (ws : List ω) : List α := ws.foldl (amend A) xs

variable {A} {xs : List α} {w : ω} {ws : List ω}

theorem amendAll_cons : amendAll A xs (w :: ws) = amendAll A (amend A xs w) ws := rfl

@[simp] theorem key_made : A.key (made A w xs) = A.place w :=
  A.key_make w _ fun _ hx => get_key hx

theorem get_amend_self : get A.key (amend A xs w) (A.place w) = some (made A w xs) := by
  have h : get A.key (amend A xs w) (A.key (made A w xs)) = some (made A w xs) :=
    get_upsert_self (made A w xs) xs
  rwa [key_made] at h

theorem get_amend_ne {k : κ} (h : A.place w ≠ k) : get A.key (amend A xs w) k = get A.key xs k :=
  get_upsert_ne (by rwa [key_made]) xs

/-- The last write to a key is what its record has. -/
theorem content_amendAll (xs : List α) (ws : List ω) (k : κ) :
    (get A.key (amendAll A xs ws) k).map A.content =
      ((latest A.place ws k).map A.written).or ((get A.key xs k).map A.content) := by
  induction ws generalizing xs with
  | nil => rfl
  | cons w ws ih =>
    rw [amendAll_cons, ih, latest]
    cases latest A.place ws k with
    | some later => rfl
    | none =>
      by_cases hk : A.place w = k
      · subst hk
        rw [get_amend_self, if_pos rfl]
        simp [made, A.content_make]
      · rw [get_amend_ne hk, if_neg hk]
        rfl

theorem amend_of_known {x : α} (h : get A.key xs (A.place w) = some x) :
    (amend A xs w).map A.identity = xs.map A.identity ∧
    (amend A xs w).map A.key = xs.map A.key := by
  have hmade : made A w xs = A.make w (some x) := by rw [made, h]
  have hkey : A.key (A.make w (some x)) = A.place w := by rw [← hmade, key_made]
  unfold amend
  rw [hmade]
  clear hmade
  induction xs with
  | nil => cases h
  | cons y ys ih =>
    rw [get_cons] at h
    by_cases hy : A.key y = A.place w
    · rw [if_pos hy] at h
      obtain rfl := Option.some.inj h
      simp [upsert, hkey, hy, A.identity_make]
    · rw [if_neg hy] at h
      obtain ⟨hidentity, hkeys⟩ := ih h
      simp [upsert, hkey, hy, hidentity, hkeys]

theorem amend_of_new (h : get A.key xs (A.place w) = none) :
    amend A xs w = xs ++ [A.make w none] := by
  have hmade : made A w xs = A.make w none := by rw [made, h]
  have hkey : A.key (A.make w none) = A.place w := by rw [← hmade, key_made]
  rw [amend, hmade]
  refine upsert_of_absent fun y hy => ?_
  rw [hkey]
  exact get_none_iff.mp h y hy

theorem identity_amend (xs : List α) (w : ω) :
    xs.map A.identity <+: (amend A xs w).map A.identity := by
  cases h : get A.key xs (A.place w) with
  | some x => exact (amend_of_known h).1 ▸ List.prefix_rfl
  | none =>
    rw [amend_of_new h, List.map_append]
    exact List.prefix_append _ _

/-- No record loses its place or its identity. -/
theorem identity_amendAll (xs : List α) (ws : List ω) :
    xs.map A.identity <+: (amendAll A xs ws).map A.identity := by
  induction ws generalizing xs with
  | nil => exact List.prefix_rfl
  | cons w ws ih => exact (identity_amend xs w).trans (ih (amend A xs w))

/-- The keys that have no record yet, each once, in the order of their first writes. -/
def newKeys (A : Amending ω α κ ι ν) (xs : List α) (ws : List ω) : List κ :=
  ((ws.map A.place).filter fun k => decide (k ∉ xs.map A.key)).eraseDups

theorem newKeys_known (h : A.place w ∈ xs.map A.key) :
    newKeys A xs (w :: ws) = newKeys A xs ws := by
  rw [newKeys, newKeys, List.map_cons, List.filter_cons_of_neg (by simpa using h)]

theorem newKeys_new (h : A.place w ∉ xs.map A.key) {ys : List α}
    (hys : ys.map A.key = xs.map A.key ++ [A.place w]) :
    newKeys A xs (w :: ws) = A.place w :: newKeys A ys ws := by
  have hfilter : ((ws.map A.place).filter fun k => decide (k ∉ ys.map A.key)) =
      ((ws.map A.place).filter fun k => decide (k ∉ xs.map A.key)).filter fun k =>
        !(k == A.place w) := by
    rw [List.filter_filter]
    refine List.filter_congr fun k _ => ?_
    rw [hys, Bool.eq_iff_iff]
    simp [and_comm]
  rw [newKeys, List.map_cons, List.filter_cons_of_pos (by simpa using h), List.eraseDups_cons,
    newKeys, hfilter]

theorem mem_keys_iff : A.place w ∈ xs.map A.key ↔ get A.key xs (A.place w) ≠ none := by
  rw [Ne, get_none_iff]
  simp

theorem mem_newKeys {k : κ} (h : k ∈ newKeys A xs ws) : k ∈ ws.map A.place :=
  List.mem_of_mem_filter (List.mem_eraseDups.mp h)

/-- A key has its place from its first write on. -/
theorem keys_amendAll (xs : List α) (ws : List ω) :
    (amendAll A xs ws).map A.key = xs.map A.key ++ newKeys A xs ws := by
  induction ws generalizing xs with
  | nil => simp [amendAll, newKeys]
  | cons w ws ih =>
    rw [amendAll_cons, ih]
    cases h : get A.key xs (A.place w) with
    | some x =>
      have hkeys := (amend_of_known h).2
      have hknown : A.place w ∈ xs.map A.key := mem_keys_iff.mpr (by simp [h])
      rw [newKeys_known hknown, newKeys, newKeys, hkeys]
    | none =>
      have hnew : A.place w ∉ xs.map A.key := fun hin => mem_keys_iff.mp hin h
      have hmade : A.key (A.make w none) = A.place w := A.key_make w none (by simp)
      have hkeys : (amend A xs w).map A.key = xs.map A.key ++ [A.place w] := by
        rw [amend_of_new h, List.map_append, List.map_singleton, hmade]
      rw [newKeys_new hnew hkeys, hkeys, List.append_assoc, List.singleton_append]

/-- Records that no write goes to stay as they are, in their order. -/
theorem others_amendAll (xs : List α) (ws : List ω) :
    (amendAll A xs ws).filter (fun x => decide (A.key x ∉ ws.map A.place)) =
      xs.filter fun x => decide (A.key x ∉ ws.map A.place) := by
  induction ws generalizing xs with
  | nil => rfl
  | cons w ws ih =>
    have hsplit : ∀ ys : List α, ys.filter (fun x => decide (A.key x ∉ (w :: ws).map A.place)) =
        (delete A.key (A.place w) ys).filter fun x => decide (A.key x ∉ ws.map A.place) := by
      intro ys
      rw [delete, List.filter_filter]
      refine List.filter_congr fun x _ => ?_
      simp [Bool.and_comm]
    have hsame : delete A.key (A.place w) (amend A xs w) = delete A.key (A.place w) xs := by
      have h : delete A.key (A.key (made A w xs)) (amend A xs w) =
          delete A.key (A.key (made A w xs)) xs := delete_upsert (made A w xs) xs
      rwa [key_made] at h
    have hrest := congrArg (delete A.key (A.place w)) (ih (amend A xs w))
    unfold delete at hrest hsame hsplit
    rw [amendAll_cons, hsplit, hsplit xs, ← hsame]
    rw [List.filter_filter, List.filter_filter] at hrest ⊢
    simpa only [Bool.and_comm] using hrest

theorem nodup_amendAll (ws : List ω) (h : (xs.map A.key).Nodup) :
    ((amendAll A xs ws).map A.key).Nodup := by
  induction ws generalizing xs with
  | nil => exact h
  | cons w ws ih => exact ih (nodup_upsert h)

end Amendments
