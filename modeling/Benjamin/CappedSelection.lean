import Mathlib.Data.List.TakeDrop
import Mathlib.Order.Lattice

/-!
# A selection and a cap

The elements of a list that satisfy a predicate, at most a number of them. Whether the
cap counts all elements or the selected ones makes a difference as soon as an element
that is passed over uses up a place that a later one needs.
-/
namespace CappedSelection

variable {α : Type*} (p : α → Bool) (n : Nat) (xs : List α)

def selectAfter : List α := (xs.take n).filter p

def selectBefore : List α := (xs.filter p).take n

variable {p n xs}

theorem selectBefore_split :
    selectBefore p n xs = selectAfter p n xs ++
      ((xs.drop n).filter p).take (n - (selectAfter p n xs).length) := by
  have hlength : (selectAfter p n xs).length ≤ n :=
    Nat.le_trans (List.length_filter_le _ _) (List.length_take_le _ _)
  have hsplit : xs.filter p = selectAfter p n xs ++ (xs.drop n).filter p := by
    rw [selectAfter, ← List.filter_append, List.take_append_drop]
  rw [selectBefore, hsplit, List.take_append, List.take_of_length_le hlength]

theorem selectAfter_prefix : selectAfter p n xs <+: selectBefore p n xs := by
  rw [selectBefore_split]
  exact List.prefix_append _ _

theorem length_selectAfter (h : ∀ x ∈ xs.take n, p x = true) :
    (selectAfter p n xs).length = min n xs.length := by
  rw [selectAfter, List.filter_eq_self.mpr h, List.length_take]

theorem selectAfter_eq_iff : selectAfter p n xs = selectBefore p n xs ↔
    (∀ x ∈ xs.take n, p x = true) ∨ ∀ x ∈ xs.drop n, p x = false := by
  rw [selectBefore_split, List.self_eq_append_right, List.take_eq_nil_iff]
  constructor
  · rintro (hfull | hnone)
    · left
      have hlength : (xs.take n).length ≤ (selectAfter p n xs).length := by
        have := List.length_take_le n xs
        omega
      exact List.filter_eq_self.mp (List.filter_sublist.eq_of_length_le hlength)
    · right
      intro x hx
      have hnot := List.filter_eq_nil_iff.mp hnone x hx
      simpa using hnot
  · rintro (hall | hnone)
    · have hlength := length_selectAfter hall
      by_cases hlong : n ≤ xs.length
      · left
        omega
      · right
        rw [List.drop_eq_nil_of_le (by omega), List.filter_nil]
    · right
      refine List.filter_eq_nil_iff.mpr fun x hx => ?_
      simp [hnone x hx]

section Step

variable {x : α}

theorem selectBefore_zero : selectBefore p 0 xs = [] := List.take_zero

theorem selectBefore_cons_of_pos (h : p x = true) :
    selectBefore p (n + 1) (x :: xs) = x :: selectBefore p n xs := by
  rw [selectBefore, List.filter_cons_of_pos h, List.take_succ_cons, selectBefore]

theorem selectBefore_cons_of_neg (h : p x = false) :
    selectBefore p n (x :: xs) = selectBefore p n xs := by
  rw [selectBefore, List.filter_cons_of_neg (by simp [h]), selectBefore]

end Step

section Newest

variable (n xs) in
def newest : List α := xs.drop (xs.length - n)

variable (n xs) in
def older : List α := xs.take (xs.length - n)

theorem length_newest : (newest n xs).length = min n xs.length := by
  rw [newest, List.length_drop]
  omega

theorem reverse_take : xs.reverse.take n = (newest n xs).reverse := List.take_reverse

theorem reverse_drop : xs.reverse.drop n = (older n xs).reverse := List.drop_reverse

/-- The newest selected elements are those selected from the newest ones iff the newest
are all selected or no older one is. -/
theorem filter_newest_perm_iff : ((newest n xs).filter p).Perm (newest n (xs.filter p)) ↔
    (∀ x ∈ newest n xs, p x = true) ∨ ∀ x ∈ older n xs, p x = false := by
  have hafter : ((newest n xs).filter p).reverse = selectAfter p n xs.reverse := by
    rw [selectAfter, reverse_take, List.filter_reverse]
  have hbefore : (newest n (xs.filter p)).reverse = selectBefore p n xs.reverse := by
    rw [selectBefore, List.filter_reverse, reverse_take]
  have hiff := @selectAfter_eq_iff α p n xs.reverse
  rw [reverse_take, reverse_drop] at hiff
  simp only [List.mem_reverse] at hiff
  rw [← hiff, ← hafter, ← hbefore]
  constructor
  · intro hperm
    have hlength := hperm.length_eq
    rw [hafter, hbefore]
    refine selectAfter_prefix.eq_of_length ?_
    rw [← hafter, ← hbefore, List.length_reverse, List.length_reverse, hlength]
  · intro hsame
    rw [List.reverse_inj.mp hsame]

/-- Collect what is hit until there are `n`. -/
def collect (hit : α → Bool) (n : Nat) (found : List α) : List α → List α
  | [] => found
  | x :: rest =>
    let found := if hit x then found ++ [x] else found
    if n ≤ found.length then found else collect hit n found rest

theorem collect_eq {found : List α} (h : found.length < n) :
    collect p n found xs = found ++ (xs.filter p).take (n - found.length) := by
  induction xs generalizing found with
  | nil => simp [collect]
  | cons x rest ih =>
    rw [collect]
    cases hit : p x with
    | true =>
      have hlonger : (found ++ [x]).length = found.length + 1 := by simp
      have hplaces : n - found.length = n - (found.length + 1) + 1 := by omega
      rw [if_pos rfl, List.filter_cons_of_pos hit, hplaces, List.take_succ_cons, hlonger]
      by_cases hfull : n ≤ found.length + 1
      · rw [if_pos hfull, Nat.sub_eq_zero_of_le hfull, List.take_zero]
      · rw [if_neg hfull, ih (by omega), hlonger, List.append_assoc, List.singleton_append]
    | false =>
      rw [if_neg Bool.false_ne_true, if_neg (by omega), ih h,
        List.filter_cons_of_neg (by simp [hit])]

/-- From the end on, a collection gives the newest that are hit, newest first. -/
theorem collect_newest (h : 0 < n) :
    collect p n [] xs.reverse = (newest n (xs.filter p)).reverse := by
  rw [collect_eq (by simpa using h), List.nil_append, List.length_nil, Nat.sub_zero,
    List.filter_reverse, reverse_take]

end Newest

section Sorting

variable {κ : Type*} [LinearOrder κ]

def greatestFirst (key : α → κ) (xs : List α) : List α :=
  xs.mergeSort fun a b => decide (key b ≤ key a)

theorem greatestFirst_perm (key : α → κ) (xs : List α) : (greatestFirst key xs).Perm xs :=
  List.mergeSort_perm _ _

theorem greatestFirst_sorted (key : α → κ) (xs : List α) :
    (greatestFirst key xs).Pairwise fun a b => key b ≤ key a := by
  have hsorted : (greatestFirst key xs).Pairwise fun a b => decide (key b ≤ key a) = true := by
    refine List.pairwise_mergeSort ?_ ?_ _
    · intro a b c hab hbc
      exact decide_eq_true ((of_decide_eq_true hbc).trans (of_decide_eq_true hab))
    · intro a b
      simpa using le_total (key b) (key a)
  exact hsorted.imp of_decide_eq_true

end Sorting

end CappedSelection
