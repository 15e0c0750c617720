import Benjamin.SerialRun

/-!
# Two unlocked rewrites

Two processes share a state. Each reads it whole and later replaces it by what its
rewrite makes of what it read, or leaves it if the rewrite gives nothing. A step is
fresh if it does not replace a state other than the one it read. When the steps are
fresh the two have run one after the other; when neither rewrite absorbs the other's
change, only then.
-/
namespace ReadModifyWrite

variable {σ : Type*}

/-- What a process makes of the state it read; `none` if it leaves the file alone. -/
abbrev Rewrite (σ : Type*) := σ → Option σ

def effect (op : Rewrite σ) (s : σ) : σ := (op s).getD s

inductive Pc (σ : Type*) where
  | start
  | loaded (read : σ)
  | done

structure Client (σ : Type*) where
  op : Rewrite σ
  pc : Pc σ

def advance (_ : Unit) (s : σ) (l : Client σ) : σ × Client σ :=
  match l.pc with
  | .start => (s, { l with pc := .loaded s })
  | .loaded read => ((l.op read).getD s, { l with pc := .done })
  | .done => (s, l)

/-- A replacement replaces the state that was read. -/
def Fresh (s : σ) (l : Client σ) : Prop :=
  match l.pc with
  | .loaded read => l.op read = none ∨ read = s
  | _ => True

def Done (l : Client σ) : Prop :=
  match l.pc with
  | .done => True
  | _ => False

abbrev Pair (σ : Type*) := Interleaving.Config Bool σ (Client σ)

abbrev run (c : Pair σ) (schedule : List (Bool × Unit)) : Pair σ :=
  Interleaving.run advance c schedule

def AllFresh (c : Pair σ) (schedule : List (Bool × Unit)) : Prop :=
  ∀ t ∈ Interleaving.steps advance c schedule, Fresh t.before.shared (t.before.proc t.op.1)

def Finished (c : Pair σ) : Prop := ∀ i, Done (c.proc i)

/-- Process `i` stands at `mine`, the other one, `j`, at `theirs`. -/
structure At (ops : Bool → Rewrite σ) (i j : Bool) (s : σ) (mine theirs : Pc σ) (c : Pair σ) :
    Prop where
  distinct : j ≠ i
  shared : c.shared = s
  mine : c.proc i = ⟨ops i, mine⟩
  theirs : c.proc j = ⟨ops j, theirs⟩

section Steps

variable {ops : Bool → Rewrite σ} {i j : Bool} {s s' : σ} {mine theirs mine' : Pc σ} {c : Pair σ}

theorem At.swap (h : At ops i j s mine theirs c) : At ops j i s theirs mine c :=
  ⟨h.distinct.symm, h.shared, h.theirs, h.mine⟩

theorem At.step (h : At ops i j s mine theirs c)
    (hmoves : advance () s ⟨ops i, mine⟩ = (s', ⟨ops i, mine'⟩)) :
    At ops i j s' mine' theirs (Interleaving.step advance c (i, ())) := by
  refine ⟨h.distinct, ?_, ?_, ?_⟩
  · rw [Interleaving.step_shared, h.shared, h.mine, hmoves]
  · rw [Interleaving.step_self, h.shared, h.mine, hmoves]
  · rw [Interleaving.step_other _ _ h.distinct]
    exact h.theirs

theorem At.turn (h : At ops i j s mine theirs c) (e : Bool × Unit) : e = (i, ()) ∨ e = (j, ()) := by
  obtain ⟨k, ⟨⟩⟩ := e
  have hdistinct := h.distinct
  cases i <;> cases j <;> cases k <;> simp_all

theorem At.unfinished (h : At ops i j s mine theirs c) (hmine : mine ≠ .done) : ¬ Finished c := by
  intro hdone
  have hself := hdone i
  rw [h.mine] at hself
  cases mine with
  | start => exact hself
  | loaded read => exact hself
  | done => exact hmine rfl

theorem allFresh_nil : AllFresh c [] := by
  intro t ht
  cases ht

theorem allFresh_cons {e : Bool × Unit} {rest : List (Bool × Unit)} :
    AllFresh c (e :: rest) ↔
      Fresh c.shared (c.proc e.1) ∧ AllFresh (Interleaving.step advance c e) rest := by
  unfold AllFresh Interleaving.steps
  rw [SerialRun.transitions, List.forall_mem_cons]

theorem At.allFresh_cons (h : At ops i j s mine theirs c) (hfresh : Fresh s ⟨ops i, mine⟩)
    {rest : List (Bool × Unit)} :
    AllFresh c ((i, ()) :: rest) ↔ AllFresh (Interleaving.step advance c (i, ())) rest := by
  rw [ReadModifyWrite.allFresh_cons, h.mine, h.shared]
  exact and_iff_right hfresh

theorem run_cons {e : Bool × Unit} {rest : List (Bool × Unit)} :
    run c (e :: rest) = run (Interleaving.step advance c e) rest := rfl

end Steps

section Stages

variable {ops : Bool → Rewrite σ} {i j : Bool} {s read : σ} {c : Pair σ}
  {schedule : List (Bool × Unit)}

theorem run_done (h : At ops i j s .done .done c) :
    (run c schedule).shared = s ∧ AllFresh c schedule := by
  induction schedule generalizing i j c with
  | nil => exact ⟨h.shared, allFresh_nil⟩
  | cons e rest ih =>
    rcases h.turn e with rfl | rfl
    · rw [run_cons, h.allFresh_cons trivial]
      exact ih (h.step rfl)
    · rw [run_cons, h.swap.allFresh_cons trivial]
      exact ih (h.swap.step rfl)

theorem run_loaded (h : At ops i j s .done (.loaded read) c) (hend : Finished (run c schedule)) :
    (run c schedule).shared = (ops j read).getD s ∧
      (AllFresh c schedule ↔ ops j read = none ∨ read = s) := by
  induction schedule generalizing c with
  | nil => exact absurd hend (h.swap.unfinished (by simp))
  | cons e rest ih =>
    rcases h.turn e with rfl | rfl
    · rw [run_cons, h.allFresh_cons trivial]
      exact ih (h.step rfl) hend
    · obtain ⟨hshared, hfresh⟩ : (run _ rest).shared = _ ∧ AllFresh _ rest :=
        run_done (h.swap.step rfl)
      rw [run_cons, ReadModifyWrite.allFresh_cons, h.theirs, h.shared]
      exact ⟨hshared, and_iff_left hfresh⟩

theorem run_second (h : At ops i j s .done .start c) (hend : Finished (run c schedule)) :
    (run c schedule).shared = effect (ops j) s ∧ AllFresh c schedule := by
  induction schedule generalizing c with
  | nil => exact absurd hend (h.swap.unfinished (by simp))
  | cons e rest ih =>
    rcases h.turn e with rfl | rfl
    · rw [run_cons, h.allFresh_cons trivial]
      exact ih (h.step rfl) hend
    · obtain ⟨hshared, hfresh⟩ := run_loaded (h.swap.step rfl).swap hend
      rw [run_cons, h.swap.allFresh_cons trivial]
      exact ⟨hshared, hfresh.mpr (Or.inr rfl)⟩

/-- The two have run in this order, or `i` has written over a state that `j` has read. -/
def Ended (ops : Bool → Rewrite σ) (i j : Bool) (s final : σ) (fresh : Prop) : Prop :=
  (final = effect (ops j) (effect (ops i) s) ∧ fresh) ∨
    (final = (ops j s).getD (effect (ops i) s) ∧
      (fresh ↔ ops j s = none ∨ s = effect (ops i) s))

theorem run_both_loaded (h : At ops i j s (.loaded s) (.loaded s) c)
    (hend : Finished (run c schedule)) :
    Ended ops i j s (run c schedule).shared (AllFresh c schedule) ∨
      Ended ops j i s (run c schedule).shared (AllFresh c schedule) := by
  cases schedule with
  | nil => exact absurd hend (h.unfinished (by simp))
  | cons e rest =>
    rcases h.turn e with rfl | rfl
    · left; right
      rw [run_cons, h.allFresh_cons (Or.inr rfl)]
      exact run_loaded (h.step rfl) hend
    · right; right
      rw [run_cons, h.swap.allFresh_cons (Or.inr rfl)]
      exact run_loaded (h.swap.step rfl) hend

theorem run_first_loaded (h : At ops i j s (.loaded s) .start c)
    (hend : Finished (run c schedule)) :
    Ended ops i j s (run c schedule).shared (AllFresh c schedule) ∨
      Ended ops j i s (run c schedule).shared (AllFresh c schedule) := by
  cases schedule with
  | nil => exact absurd hend (h.unfinished (by simp))
  | cons e rest =>
    rcases h.turn e with rfl | rfl
    · left; left
      rw [run_cons, h.allFresh_cons (Or.inr rfl)]
      exact run_second (h.step rfl) hend
    · rw [run_cons, h.swap.allFresh_cons trivial]
      exact (run_both_loaded (h.swap.step rfl) hend).symm

theorem run_started (h : At ops i j s .start .start c) (hend : Finished (run c schedule)) :
    Ended ops i j s (run c schedule).shared (AllFresh c schedule) ∨
      Ended ops j i s (run c schedule).shared (AllFresh c schedule) := by
  cases schedule with
  | nil => exact absurd hend (h.unfinished (by simp))
  | cons e rest =>
    rcases h.turn e with rfl | rfl
    · rw [run_cons, h.allFresh_cons trivial]
      exact run_first_loaded (h.step rfl) hend
    · rw [run_cons, h.swap.allFresh_cons trivial]
      exact (run_first_loaded (h.swap.step rfl) hend).symm

end Stages

/-- The result of running the two one after the other, in one of the two orders. -/
def Serial (a b : Rewrite σ) (s final : σ) : Prop :=
  final = effect b (effect a s) ∨ final = effect a (effect b s)

/-- A serial result of the two does not hide that `a` has changed the state. -/
def Visible (a b : Rewrite σ) (s : σ) : Prop :=
  b s ≠ none → Serial a b s (effect b s) → effect a s = s

theorem Serial.symm {a b : Rewrite σ} {s final : σ} (h : Serial a b s final) :
    Serial b a s final := Or.symm h

theorem Ended.serial_iff {ops : Bool → Rewrite σ} {i j : Bool} {s final : σ} {fresh : Prop}
    (h : Ended ops i j s final fresh) (hvisible : Visible (ops i) (ops j) s) :
    Serial (ops i) (ops j) s final ↔ fresh := by
  rcases h with ⟨hfinal, hfresh⟩ | ⟨hfinal, hfresh⟩
  · exact ⟨fun _ => hfresh, fun _ => Or.inl hfinal⟩
  · rw [hfresh]
    constructor
    · intro hserial
      by_cases hidle : ops j s = none
      · exact Or.inl hidle
      · obtain ⟨written, hwritten⟩ := Option.ne_none_iff_exists'.mp hidle
        have heffect : final = effect (ops j) s := by
          rw [hfinal, hwritten]
          exact (congrArg (Option.getD · s) hwritten).symm
        exact Or.inr (hvisible hidle (heffect ▸ hserial)).symm
    · rintro (hidle | hsame)
      · right
        have hleft : effect (ops j) s = s := by rw [effect, hidle, Option.getD_none]
        rw [hfinal, hidle, Option.getD_none, hleft]
      · left
        rw [← hsame, hfinal, ← hsame]
        rfl

/-- Two rewrites end as if one had followed the other iff every step was fresh. -/
theorem serial_iff_fresh {ops : Bool → Rewrite σ} {s : σ} {schedule : List (Bool × Unit)}
    (hfirst : Visible (ops true) (ops false) s) (hsecond : Visible (ops false) (ops true) s)
    {c : Pair σ} (hstart : At ops true false s .start .start c)
    (hend : Finished (run c schedule)) :
    Serial (ops true) (ops false) s (run c schedule).shared ↔ AllFresh c schedule := by
  rcases run_started hstart hend with hended | hended
  · exact hended.serial_iff hfirst
  · rw [← hended.serial_iff hsecond]
    exact ⟨Serial.symm, Serial.symm⟩

end ReadModifyWrite
