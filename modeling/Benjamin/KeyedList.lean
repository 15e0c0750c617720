import Mathlib.Data.List.Induction
import Benjamin.BoundedLog

/-!
# Lists read as stores

A file of records searched from the front by a key: a lookup gives the first
record with the key, an upsert overwrites that record or appends, a delete drops
every record with the key. Nothing here assumes that keys are distinct.
-/
namespace KeyedList

variable {α κ : Type*} [DecidableEq κ] {key : α → κ}

def get (key : α → κ) (xs : List α) (k : κ) : Option α := xs.find? fun x => decide (key x = k)

/-- Overwrite the first record with the key of `x`, or append `x`. -/
def upsert (key : α → κ) (x : α) : List α → List α
  | [] => [x]
  | y :: ys => if key y = key x then x :: ys else y :: upsert key x ys

def delete (key : α → κ) (k : κ) (xs : List α) : List α :=
  xs.filter fun x => decide (key x ≠ k)

@[simp] theorem get_nil (k : κ) : get key ([] : List α) k = none := rfl

theorem get_cons (y : α) (ys : List α) (k : κ) :
    get key (y :: ys) k = if key y = k then some y else get key ys k := by
  by_cases h : key y = k <;> simp [get, h]

theorem get_key {xs : List α} {k : κ} {x : α} (h : get key xs k = some x) : key x = k := by
  simpa using List.find?_some h

theorem get_mem {xs : List α} {k : κ} {x : α} (h : get key xs k = some x) : x ∈ xs :=
  List.mem_of_find?_eq_some h

theorem get_none_iff {xs : List α} {k : κ} : get key xs k = none ↔ ∀ x ∈ xs, key x ≠ k := by
  simp [get]

theorem get_upsert_self (x : α) (xs : List α) : get key (upsert key x xs) (key x) = some x := by
  induction xs with
  | nil => simp [upsert, get_cons]
  | cons y ys ih =>
    by_cases h : key y = key x
    · simp [upsert, h, get_cons]
    · simp [upsert, h, get_cons, ih]

theorem get_upsert_ne {x : α} {k : κ} (h : key x ≠ k) (xs : List α) :
    get key (upsert key x xs) k = get key xs k := by
  induction xs with
  | nil => simp [upsert, get_cons, h]
  | cons y ys ih =>
    by_cases hy : key y = key x
    · simp [upsert, hy, get_cons, h]
    · rw [upsert, if_neg hy, get_cons, get_cons, ih]

theorem get_delete_self (k : κ) (xs : List α) : get key (delete key k xs) k = none := by
  simp [get_none_iff, delete]

theorem get_delete_ne {j k : κ} (h : j ≠ k) (xs : List α) :
    get key (delete key j xs) k = get key xs k := by
  induction xs with
  | nil => rfl
  | cons y ys ih =>
    rw [delete] at ih ⊢
    by_cases hj : key y = j
    · rw [List.filter_cons_of_neg (by simp [hj]), ih, get_cons, if_neg (by rw [hj]; exact h)]
    · rw [List.filter_cons_of_pos (by simp [hj]), get_cons, get_cons, ih]

theorem mem_upsert {x z : α} {xs : List α} (h : z ∈ upsert key x xs) : z = x ∨ z ∈ xs := by
  induction xs with
  | nil => exact Or.inl (by simpa [upsert] using h)
  | cons y ys ih =>
    simp only [upsert] at h
    split at h
    · rcases List.mem_cons.mp h with rfl | h
      · exact Or.inl rfl
      · exact Or.inr (List.mem_cons_of_mem _ h)
    · rcases List.mem_cons.mp h with rfl | h
      · exact Or.inr List.mem_cons_self
      · exact (ih h).imp_right (List.mem_cons_of_mem _)

theorem mem_upsert_of_ne {x z : α} {xs : List α} (h : z ∈ xs) (hne : key z ≠ key x) :
    z ∈ upsert key x xs := by
  induction xs with
  | nil => cases h
  | cons y ys ih =>
    by_cases hy : key y = key x
    · rw [upsert, if_pos hy]
      rcases List.mem_cons.mp h with rfl | h
      · exact absurd hy hne
      · exact List.mem_cons_of_mem _ h
    · rw [upsert, if_neg hy]
      rcases List.mem_cons.mp h with rfl | h
      · exact List.mem_cons_self
      · exact List.mem_cons_of_mem _ (ih h)

theorem upsert_of_get {x : α} {xs : List α} (h : get key xs (key x) = some x) :
    upsert key x xs = xs := by
  induction xs with
  | nil => cases h
  | cons y ys ih =>
    rw [get_cons] at h
    by_cases hy : key y = key x
    · rw [if_pos hy] at h
      rw [upsert, if_pos hy, Option.some.inj h]
    · rw [if_neg hy] at h
      rw [upsert, if_neg hy, ih h]

theorem length_upsert_of_get {x y : α} {xs : List α} (h : get key xs (key x) = some y) :
    (upsert key x xs).length = xs.length := by
  induction xs with
  | nil => cases h
  | cons z zs ih =>
    rw [get_cons] at h
    by_cases hz : key z = key x
    · rw [upsert, if_pos hz]
      rfl
    · rw [if_neg hz] at h
      rw [upsert, if_neg hz, List.length_cons, ih h, List.length_cons]

theorem delete_of_absent {k : κ} {xs : List α} (h : get key xs k = none) :
    delete key k xs = xs := by
  rw [delete, List.filter_eq_self]
  intro x hx
  exact decide_eq_true (get_none_iff.mp h x hx)

theorem delete_upsert (x : α) (xs : List α) :
    delete key (key x) (upsert key x xs) = delete key (key x) xs := by
  unfold delete
  induction xs with
  | nil => simp [upsert]
  | cons y ys ih =>
    by_cases hy : key y = key x
    · simp [upsert, hy]
    · rw [upsert, if_neg hy, List.filter_cons_of_pos (by simp [hy]),
        List.filter_cons_of_pos (by simp [hy]), ih]

theorem delete_delete (k : κ) (xs : List α) : delete key k (delete key k xs) = delete key k xs := by
  unfold delete
  rw [List.filter_filter]
  simp

theorem nodup_delete {k : κ} {xs : List α} (h : (xs.map key).Nodup) :
    ((delete key k xs).map key).Nodup :=
  h.sublist (List.filter_sublist.map key)

theorem nodup_upsert {x : α} {xs : List α} (h : (xs.map key).Nodup) :
    ((upsert key x xs).map key).Nodup := by
  induction xs with
  | nil => simp [upsert]
  | cons y ys ih =>
    obtain ⟨hy, hys⟩ := List.nodup_cons.mp h
    by_cases hx : key y = key x
    · simpa [upsert, hx] using h
    · rw [upsert, if_neg hx, List.map_cons, List.nodup_cons]
      refine ⟨?_, ih hys⟩
      intro hmem
      obtain ⟨z, hz, hzy⟩ := List.mem_map.mp hmem
      rcases mem_upsert hz with rfl | hz
      · exact hx hzy.symm
      · exact hy (hzy ▸ List.mem_map_of_mem hz)

theorem keys_upsert {x : α} {xs : List α} (h : key x ∈ xs.map key) :
    (upsert key x xs).map key = xs.map key := by
  induction xs with
  | nil => cases h
  | cons y ys ih =>
    by_cases hy : key y = key x
    · simp [upsert, hy]
    · rw [List.map_cons, List.mem_cons] at h
      simp [upsert, hy, ih (h.resolve_left (Ne.symm hy))]

theorem upsert_of_absent {x : α} {xs : List α} (h : ∀ y ∈ xs, key y ≠ key x) :
    upsert key x xs = xs ++ [x] := by
  induction xs with
  | nil => rfl
  | cons y ys ih =>
    rw [upsert, if_neg (h y List.mem_cons_self),
      ih fun z hz => h z (List.mem_cons_of_mem _ hz), List.cons_append]

theorem get_map {f : α → α} (hf : ∀ x, key (f x) = key x) (xs : List α) (k : κ) :
    get key (xs.map f) k = (get key xs k).map f := by
  induction xs with
  | nil => rfl
  | cons y ys ih =>
    rw [List.map_cons, get_cons, get_cons, hf, ih]
    split <;> rfl

theorem get_filterMap {f : α → Option α} (hf : ∀ x y, f x = some y → key y = key x)
    {xs : List α} {k : κ} {x y : α} (hx : get key xs k = some x) (hy : f x = some y) :
    get key (xs.filterMap f) k = some y := by
  induction xs with
  | nil => simp at hx
  | cons z zs ih =>
    rw [get_cons] at hx
    by_cases hz : key z = k
    · simp only [hz, if_true, Option.some.injEq] at hx
      subst hx
      rw [List.filterMap_cons, hy]
      simp [get_cons, hf z y hy, hz]
    · rw [if_neg hz] at hx
      cases hfz : f z with
      | none => rw [List.filterMap_cons, hfz]; exact ih hx
      | some w =>
        rw [List.filterMap_cons, hfz, get_cons, if_neg (by rw [hf z w hfz]; exact hz)]
        exact ih hx

theorem get_filterMap_none {f : α → Option α} (hf : ∀ x y, f x = some y → key y = key x)
    {xs : List α} {k : κ} (h : get key xs k = none) : get key (xs.filterMap f) k = none := by
  rw [get_none_iff] at h ⊢
  intro y hy
  obtain ⟨x, hx, hxy⟩ := List.mem_filterMap.mp hy
  rw [hf x y hxy]
  exact h x hx

omit [DecidableEq κ] in
theorem keys_filterMap {f : α → Option α} (hf : ∀ x y, f x = some y → key y = key x)
    (xs : List α) : ((xs.filterMap f).map key).Sublist (xs.map key) := by
  induction xs with
  | nil => exact List.Sublist.slnil
  | cons x xs ih =>
    cases hx : f x with
    | none =>
      rw [List.filterMap_cons_none hx]
      exact ih.cons _
    | some y =>
      rw [List.filterMap_cons_some hx, List.map_cons, List.map_cons, hf x y hx]
      exact ih.cons_cons _

omit [DecidableEq κ] in
theorem nodup_filterMap {f : α → Option α} (hf : ∀ x y, f x = some y → key y = key x)
    {xs : List α} (h : (xs.map key).Nodup) : ((xs.filterMap f).map key).Nodup :=
  h.sublist (keys_filterMap hf xs)

/-- Among distinct keys, a rewrite of the records rewrites each lookup. -/
theorem get_filterMap_bind {f : α → Option α} (hf : ∀ x y, f x = some y → key y = key x)
    {xs : List α} (h : (xs.map key).Nodup) (k : κ) :
    get key (xs.filterMap f) k = (get key xs k).bind f := by
  induction xs with
  | nil => rfl
  | cons x xs ih =>
    obtain ⟨hx, hxs⟩ := List.nodup_cons.mp h
    rw [get_cons]
    by_cases hk : key x = k
    · rw [if_pos hk, Option.bind_some]
      cases hfx : f x with
      | some y => exact get_filterMap hf (by rw [get_cons, if_pos hk]) hfx
      | none =>
        -- No other record has the key.
        rw [List.filterMap_cons_none hfx]
        refine get_filterMap_none hf (get_none_iff.mpr ?_)
        intro y hy hyk
        exact hx (List.mem_map.mpr ⟨y, hy, hyk.trans hk.symm⟩)
    · rw [if_neg hk, ← ih hxs]
      cases hfx : f x with
      | none => rw [List.filterMap_cons_none hfx]
      | some y =>
        rw [List.filterMap_cons_some hfx, get_cons, if_neg (by rw [hf x y hfx]; exact hk)]

theorem get_self_iff {x : α} {xs : List α} (h : (xs.map key).Nodup) :
    get key xs (key x) = some x ↔ x ∈ xs := by
  constructor
  · exact get_mem
  · intro hx
    induction xs with
    | nil => cases hx
    | cons y ys ih =>
      obtain ⟨hy, hys⟩ := List.nodup_cons.mp h
      rw [get_cons]
      rcases List.mem_cons.mp hx with rfl | hx
      · rw [if_pos rfl]
      · have hne : key y ≠ key x := fun hkey => hy (hkey ▸ List.mem_map_of_mem hx)
        rw [if_neg hne]
        exact ih hys hx

/-- One assignment after the other: the first of a key gives it its place, the last its
record. -/
def assigned (key : α → κ) (xs : List α) : List α :=
  xs.foldl (fun kept x => upsert key x kept) []

theorem assigned_append (xs : List α) (x : α) :
    assigned key (xs ++ [x]) = upsert key x (assigned key xs) := by
  simp [assigned]

theorem nodup_assigned (xs : List α) : ((assigned key xs).map key).Nodup := by
  induction xs using List.reverseRecOn with
  | nil => exact List.nodup_nil
  | append_singleton xs x ih =>
    rw [assigned_append]
    exact nodup_upsert ih

theorem get_assigned (xs : List α) (k : κ) :
    get key (assigned key xs) k = BoundedLog.latest key xs k := by
  induction xs using List.reverseRecOn with
  | nil => rfl
  | append_singleton xs x ih =>
    rw [assigned_append]
    by_cases hk : key x = k
    · subst hk
      rw [get_upsert_self, BoundedLog.latest_append_self]
    · rw [get_upsert_ne hk, BoundedLog.latest_append_ne hk, ih]

/-- What stays is what is assigned last to its key. -/
theorem mem_assigned_iff {x : α} {xs : List α} :
    x ∈ assigned key xs ↔ BoundedLog.latest key xs (key x) = some x := by
  rw [← get_self_iff (nodup_assigned xs), get_assigned]

end KeyedList
