import Benjamin.SerialRun

/-!
# Records that are decided once

A store gives each key at most one record. A record is put under a fresh key and is open;
once it is decided or removed, no step opens it again and no step gives its key to another.
-/
namespace OneWayRecords

open SerialRun

variable {σ ο κ α : Type*}

/-- `fresh` are the keys that may still be given to a record, `terms` is what a decision
leaves of a record. No valid state has a record under a fresh key. -/
structure Rules (σ κ α : Type*) where
  lookup : σ → κ → Option α
  fresh : σ → κ → Prop
  isOpen : α → Prop
  terms : α → α → Prop
  valid : σ → Prop
  held : ∀ s k record, valid s → lookup s k = some record → ¬ fresh s k

/-- What one step may do under a key. -/
inductive Move (R : Rules σ κ α) (s : σ) (k : κ) : Option α → Option α → Prop
  | kept (stored : Option α) : Move R s k stored stored
  | created (record : α) (fresh : R.fresh s k) (opened : R.isOpen record) :
      Move R s k none (some record)
  | decided (record record' : α) (opened : R.isOpen record) (closed : ¬ R.isOpen record')
      (terms : R.terms record record') : Move R s k (some record) (some record')
  | removed (record : α) (opened : R.isOpen record) : Move R s k (some record) none

structure Rules.Step (R : Rules σ κ α) (s s' : σ) : Prop where
  valid : R.valid s'
  stale : ∀ k, ¬ R.fresh s k → ¬ R.fresh s' k
  moves : ∀ k, Move R s k (R.lookup s k) (R.lookup s' k)

def Rules.Settled (R : Rules σ κ α) (s : σ) (k : κ) : Prop :=
  ¬ R.fresh s k ∧ ∀ record, R.lookup s k = some record → ¬ R.isOpen record

inductive Left (R : Rules σ κ α) (s s' : σ) (k : κ) (record : α) : Prop
  | kept (stored : R.lookup s' k = some record)
  | decided (record' : α) (opened : R.isOpen record) (closed : ¬ R.isOpen record')
      (terms : R.terms record record') (stored : R.lookup s' k = some record')
  | gone (absent : R.lookup s' k = none) (opened : R.isOpen record)

variable {R : Rules σ κ α} {apply : σ → ο → σ} {s s' : σ} {k : κ}

theorem Rules.Step.settled (h : R.Step s s') (hs : R.Settled s k) :
    R.Settled s' k ∧ R.lookup s' k = R.lookup s k := by
  obtain ⟨hstale, hclosed⟩ := hs
  have hmove := h.moves k
  refine ⟨⟨h.stale k hstale, ?_⟩, ?_⟩
  · intro record hrecord
    rw [hrecord] at hmove
    generalize hbefore : R.lookup s k = before at hmove
    cases hmove with
    | kept => exact hclosed record hbefore
    | created _ fresh _ => exact absurd fresh hstale
    | decided _ _ _ closed _ => exact closed
  · generalize hbefore : R.lookup s k = before at hmove ⊢
    generalize R.lookup s' k = after at hmove ⊢
    cases hmove with
    | kept => rfl
    | created _ fresh _ => exact absurd fresh hstale
    | decided record _ opened _ _ => exact absurd opened (hclosed record hbefore)
    | removed record opened => exact absurd opened (hclosed record hbefore)

section Runs

variable (hstep : ∀ s o, R.valid s → R.Step s (apply s o))

include hstep

theorem final_settled (hvalid : R.valid s) (hs : R.Settled s k) (ops : List ο) :
    R.lookup (final apply s ops) k = R.lookup s k := by
  induction ops generalizing s with
  | nil => rfl
  | cons o ops ih =>
    obtain ⟨hnext, hsame⟩ := (hstep s o hvalid).settled hs
    exact (ih (hstep s o hvalid).valid hnext).trans hsame

/-- A record keeps its key, and its terms when it is decided; a decided one stays as it is. -/
theorem final_left (hvalid : R.valid s) {record : α} (hrecord : R.lookup s k = some record)
    (ops : List ο) : Left R s (final apply s ops) k record := by
  induction ops generalizing s with
  | nil => exact .kept hrecord
  | cons o ops ih =>
    have hvalid' := (hstep s o hvalid).valid
    have hstale := (hstep s o hvalid).stale k (R.held s k record hvalid hrecord)
    have hmove := (hstep s o hvalid).moves k
    rw [hrecord] at hmove
    generalize hafter : R.lookup (apply s o) k = after at hmove
    cases hmove with
    | kept =>
      -- the record is still there, so the rest of the run decides
      rcases ih hvalid' hafter
          with hkept | ⟨record', hopened, hclosed, hterms, hstored⟩ | ⟨hgone, hopened⟩
      · exact .kept hkept
      · exact .decided record' hopened hclosed hterms hstored
      · exact .gone hgone hopened
    | decided _ record' opened closed terms =>
      have hsettled : R.Settled (apply s o) k := by
        refine ⟨hstale, fun found hfound => ?_⟩
        rw [hafter] at hfound
        cases hfound
        exact closed
      exact .decided record' opened closed terms
        ((final_settled hstep hvalid' hsettled ops).trans hafter)
    | removed _ opened =>
      have hsettled : R.Settled (apply s o) k := by
        refine ⟨hstale, fun found hfound => ?_⟩
        rw [hafter] at hfound
        cases hfound
      exact .gone ((final_settled hstep hvalid' hsettled ops).trans hafter) opened

theorem final_absent (hvalid : R.valid s) (hstale : ¬ R.fresh s k) (habsent : R.lookup s k = none)
    (ops : List ο) : R.lookup (final apply s ops) k = none := by
  refine (final_settled hstep hvalid ⟨hstale, fun record hrecord => ?_⟩ ops).trans habsent
  rw [habsent] at hrecord
  cases hrecord

end Runs

section Decisions

variable [DecidableEq α] [DecidablePred R.isOpen]

def closes (R : Rules σ κ α) [DecidablePred R.isOpen] (k : κ) (t : Transition σ ο) : Bool :=
  match R.lookup t.before k with
  | none => false
  | some record => decide (R.isOpen record ∧ R.lookup t.after k ≠ some record)

theorem closes_settled {t : Transition σ ο} (h : R.Settled t.before k) :
    closes R k t = false := by
  unfold closes
  cases hrecord : R.lookup t.before k with
  | none => rfl
  | some record =>
    have := h.2 record hrecord
    simp [this]

variable (hstep : ∀ s o, R.valid s → R.Step s (apply s o))

include hstep

theorem closes_never (hvalid : R.valid s) (hs : R.Settled s k) (ops : List ο) :
    (transitions apply s ops).countP (closes R k) = 0 := by
  induction ops generalizing s with
  | nil => rfl
  | cons o ops ih =>
    have hfirst : closes R k ⟨s, o, apply s o⟩ = false := closes_settled hs
    rw [transitions, List.countP_cons_of_neg (by simp [hfirst])]
    exact ih (hstep s o hvalid).valid ((hstep s o hvalid).settled hs).1

/-- A step that closes a record settles its key. -/
theorem settled_of_closes (hvalid : R.valid s) {o : ο} (h : closes R k ⟨s, o, apply s o⟩ = true) :
    R.Settled (apply s o) k := by
  unfold closes at h
  cases hrecord : R.lookup s k with
  | none => simp [hrecord] at h
  | some record =>
    simp only [hrecord, decide_eq_true_eq] at h
    have hmove := (hstep s o hvalid).moves k
    refine ⟨(hstep s o hvalid).stale k (R.held s k record hvalid hrecord), ?_⟩
    intro found hfound
    rw [hrecord, hfound] at hmove
    cases hmove with
    | kept => exact absurd hfound h.2
    | decided _ _ _ closed _ => exact closed

/-- No run closes more than one record under a key. -/
theorem closes_once (hvalid : R.valid s) (ops : List ο) :
    (transitions apply s ops).countP (closes R k) ≤ 1 := by
  induction ops generalizing s with
  | nil => exact Nat.zero_le 1
  | cons o ops ih =>
    have hvalid' := (hstep s o hvalid).valid
    rw [transitions, List.countP_cons]
    by_cases hfirst : closes R k ⟨s, o, apply s o⟩ = true
    · have hrest := closes_never hstep hvalid' (settled_of_closes hstep hvalid hfirst) ops
      rw [hrest]
      split <;> omega
    · have hrest := ih hvalid'
      simp only [hfirst, Bool.false_eq_true, if_false]
      omega

end Decisions

end OneWayRecords
