import Mathlib.Data.List.Basic

/-!
# Bounded keyed logs

An append-only history of keyed records of which only the newest `bound` are
kept; a bound that is not positive keeps all of them. A key's state is its latest
record. The retained log answers for a key exactly as the whole history does
while fewer than `bound` records follow the key's latest one.
-/
namespace BoundedLog

variable {ρ κ : Type*} [DecidableEq κ] {key : ρ → κ}

def latest (key : ρ → κ) : List ρ → κ → Option ρ
  | [], _ => none
  | r :: rest, k => (latest key rest k).or (if key r = k then some r else none)

/-- Drop from the front all but the newest `bound` records. -/
def retain (bound : Int) (log : List ρ) : List ρ :=
  if bound ≤ 0 then log else log.drop (log.length - bound.toNat)

def after (key : ρ → κ) (k : κ) (log : List ρ) : Nat :=
  (log.reverse.takeWhile fun r => decide (key r ≠ k)).length

@[simp] theorem latest_nil (k : κ) : latest key ([] : List ρ) k = none := rfl

theorem latest_append (s t : List ρ) (k : κ) :
    latest key (s ++ t) k = (latest key t k).or (latest key s k) := by
  induction s with
  | nil => simp
  | cons r s ih => simp only [List.cons_append, latest, ih, Option.or_assoc]

@[simp] theorem latest_append_self (log : List ρ) (r : ρ) :
    latest key (log ++ [r]) (key r) = some r := by
  simp [latest_append, latest]

theorem latest_append_ne {r : ρ} {k : κ} (h : key r ≠ k) (log : List ρ) :
    latest key (log ++ [r]) k = latest key log k := by
  simp [latest_append, latest, h]

theorem latest_key {log : List ρ} {k : κ} {r : ρ} (h : latest key log k = some r) :
    key r = k := by
  induction log with
  | nil => simp at h
  | cons x rest ih =>
    simp only [latest] at h
    cases hr : latest key rest k with
    | some y => exact ih (by simpa [hr] using h)
    | none =>
      by_cases hx : key x = k
      · rw [hr, if_pos hx] at h
        exact (Option.some.inj h) ▸ hx
      · simp [hr, hx] at h

theorem latest_mem {log : List ρ} {k : κ} {r : ρ} (h : latest key log k = some r) : r ∈ log := by
  induction log with
  | nil => simp at h
  | cons x rest ih =>
    simp only [latest] at h
    cases hr : latest key rest k with
    | some y => exact List.mem_cons_of_mem _ (ih (by simpa [hr] using h))
    | none =>
      by_cases hx : key x = k
      · rw [hr, if_pos hx] at h
        exact (Option.some.inj h) ▸ List.mem_cons_self
      · simp [hr, hx] at h

theorem latest_none_iff {log : List ρ} {k : κ} :
    latest key log k = none ↔ ∀ r ∈ log, key r ≠ k := by
  induction log with
  | nil => simp
  | cons x rest ih =>
    by_cases hx : key x = k <;> simp [latest, ih, hx]

/-- What a suffix knows of a key is what the whole log knows. -/
theorem latest_of_suffix {s log : List ρ} {k : κ} {r : ρ} (hs : s <:+ log)
    (h : latest key s k = some r) : latest key log k = some r := by
  obtain ⟨front, rfl⟩ := hs
  simp [latest_append, h]

theorem latest_suffix_eq {s log : List ρ} {k : κ} (hs : s <:+ log)
    (h : after key k log < s.length) : latest key s k = latest key log k := by
  cases hl : latest key s k with
  | some r => exact (latest_of_suffix hs hl).symm
  | none =>
    obtain ⟨front, rfl⟩ := hs
    have hall : ∀ r ∈ s, key r ≠ k := latest_none_iff.mp hl
    have htake : s.reverse <+: (front ++ s).reverse.takeWhile fun r => decide (key r ≠ k) := by
      rw [List.reverse_append, List.takeWhile_append_of_pos (by simpa using hall)]
      exact List.prefix_append _ _
    have := htake.length_le
    simp only [List.length_reverse] at this
    rw [after] at h
    omega

theorem latest_suffix_none {s log : List ρ} {k : κ} (hs : s <:+ log)
    (h : s.length ≤ after key k log) : latest key s k = none := by
  have htail : s.reverse <+: log.reverse := List.reverse_prefix.mpr hs
  have hwhile := List.takeWhile_prefix (p := fun r => decide (key r ≠ k)) (l := log.reverse)
  have hpre : s.reverse <+: log.reverse.takeWhile fun r => decide (key r ≠ k) :=
    List.prefix_of_prefix_length_le htail hwhile (by simpa [after] using h)
  rw [latest_none_iff]
  intro r hr
  have hall := List.all_takeWhile (p := fun r => decide (key r ≠ k)) (l := log.reverse)
  simpa using List.all_eq_true.mp hall r (hpre.subset (List.mem_reverse.mpr hr))

theorem after_lt_of_latest {s t : List ρ} {k : κ} {r : ρ} (h : latest key t k = some r) :
    after key k (s ++ t) < t.length := by
  by_contra hge
  have hnone := latest_suffix_none (List.suffix_append s t) (Nat.not_lt.mp hge)
  rw [hnone] at h
  cases h

theorem retain_suffix (bound : Int) (log : List ρ) : retain bound log <:+ log := by
  rw [retain]
  split
  · exact List.suffix_refl _
  · exact List.drop_suffix _ _

theorem getLast_retain (bound : Int) (log : List ρ) (r : ρ) :
    (retain bound (log ++ [r])).getLast? = some r := by
  rw [retain]
  split
  · exact List.getLast?_concat
  · rw [List.drop_append_of_le_length (by simp; omega), List.getLast?_concat]

theorem length_retain {bound : Int} (h : 0 < bound) (log : List ρ) :
    (retain bound log).length = min bound.toNat log.length := by
  rw [retain, if_neg (by omega), List.length_drop]
  omega

/-- The retained log holds the newest records of the history, `bound` of them when
there are that many, and all of them when the bound is not positive. -/
structure Retains (bound : Int) (log history : List ρ) : Prop where
  newest : log <:+ history
  unbounded : bound ≤ 0 → log = history
  enough : 0 < bound → min bound.toNat history.length ≤ log.length

theorem Retains.refl (bound : Int) (log : List ρ) : Retains bound log log :=
  ⟨List.suffix_refl _, fun _ => rfl, fun _ => Nat.min_le_right _ _⟩

/-- Appending to both sides and trimming the retained one keeps the relation. -/
theorem Retains.append {bound : Int} {log history : List ρ} (h : Retains bound log history)
    (r : ρ) : Retains bound (retain bound (log ++ [r])) (history ++ [r]) := by
  obtain ⟨front, hfront⟩ := h.newest
  have hnew : log ++ [r] <:+ history ++ [r] := ⟨front, by rw [← hfront, List.append_assoc]⟩
  refine ⟨(retain_suffix bound _).trans hnew, ?_, ?_⟩
  · intro hb
    rw [retain, if_pos hb, h.unbounded hb]
  · intro hb
    have := h.enough hb
    rw [length_retain hb]
    simp only [List.length_append, List.length_singleton]
    omega

/-- Inside the window the retained log and the history agree on the key. -/
theorem Retains.latest_eq {bound : Int} {log history : List ρ} {k : κ}
    (h : Retains bound log history) (hw : bound ≤ 0 ∨ (after key k history : Int) < bound)
    (hk : latest key history k ≠ none) : latest key log k = latest key history k := by
  by_cases hb : bound ≤ 0
  · rw [h.unbounded hb]
  · have henough := h.enough (by omega)
    apply latest_suffix_eq h.newest
    have hlt : after key k history < history.length := by
      by_contra hge
      apply hk
      rw [latest_none_iff]
      have hfull : history.reverse.takeWhile (fun r => decide (key r ≠ k)) = history.reverse := by
        apply (List.takeWhile_prefix _).eq_of_length_le
        rw [after] at hge
        simpa using Nat.not_lt.mp hge
      intro r hr
      have := List.all_takeWhile (p := fun r => decide (key r ≠ k)) (l := history.reverse)
      rw [hfull] at this
      simpa using List.all_eq_true.mp this r (List.mem_reverse.mpr hr)
    omega

/-- What is retained of the records appended so far ends the log, with one more record too. -/
theorem retain_suffix_append {bound : Int} {appended log : List ρ}
    (h : retain bound appended <:+ log) (r : ρ) :
    retain bound (appended ++ [r]) <:+ retain bound (log ++ [r]) := by
  by_cases hb : bound ≤ 0
  · rw [retain, if_pos hb] at h
    rw [retain, retain, if_pos hb, if_pos hb]
    obtain ⟨front, rfl⟩ := h
    exact ⟨front, by rw [List.append_assoc]⟩
  · have hshort : (retain bound (appended ++ [r])).length =
        min bound.toNat (appended.length + 1) := by
      rw [length_retain (by omega), List.length_append, List.length_singleton]
    have hlong : (retain bound (log ++ [r])).length = min bound.toNat (log.length + 1) := by
      rw [length_retain (by omega), List.length_append, List.length_singleton]
    have hlength : min bound.toNat appended.length ≤ log.length := by
      rw [← length_retain (by omega)]
      exact h.length_le
    -- Both are suffixes of the records that were retained, with the new one.
    obtain ⟨front, hfront⟩ := h
    have hnew : retain bound appended ++ [r] <:+ log ++ [r] :=
      ⟨front, by rw [← hfront, List.append_assoc]⟩
    have hkept : retain bound (appended ++ [r]) <:+ retain bound appended ++ [r] := by
      have hwhole : retain bound appended ++ [r] <:+ appended ++ [r] := by
        obtain ⟨older, holder⟩ := retain_suffix bound appended
        exact ⟨older, by rw [← List.append_assoc, holder]⟩
      refine List.suffix_of_suffix_length_le (retain_suffix bound _) hwhole ?_
      rw [hshort, List.length_append, length_retain (by omega), List.length_singleton]
      omega
    refine List.suffix_of_suffix_length_le (hkept.trans hnew) (retain_suffix bound _) ?_
    rw [hshort, hlong]
    omega

theorem mem_retain {bound : Int} {earlier later : List ρ} {r : ρ}
    (h : bound ≤ 0 ∨ (later.length : Int) < bound) : r ∈ retain bound (earlier ++ r :: later) := by
  rw [retain]
  split
  · exact List.mem_append_right _ List.mem_cons_self
  · have hdrop : (earlier ++ r :: later).length - bound.toNat ≤ earlier.length := by
      rw [List.length_append, List.length_cons]
      omega
    rw [List.drop_append_of_le_length hdrop]
    exact List.mem_append_right _ List.mem_cons_self

end BoundedLog
