import Mathlib.Data.List.Basic

/-!
# Serial runs and interleavings

A system is a total step function on states. A serial run is a list of
operations applied in order; its transitions carry the states around each
operation. An interleaving is the serial run of a configuration of processes that
share a state, in which every operation lets one process advance.
-/
namespace SerialRun

variable {σ ο : Type*} (apply : σ → ο → σ)

structure Transition (σ ο : Type*) where
  before : σ
  op : ο
  after : σ

def final (s : σ) (ops : List ο) : σ := ops.foldl apply s

def transitions (s : σ) : List ο → List (Transition σ ο)
  | [] => []
  | o :: os => ⟨s, o, apply s o⟩ :: transitions (apply s o) os

variable {apply}

@[simp] theorem final_nil (s : σ) : final apply s [] = s := rfl

@[simp] theorem final_cons (s : σ) (o : ο) (os : List ο) :
    final apply s (o :: os) = final apply (apply s o) os := rfl

theorem final_append (s : σ) (xs ys : List ο) :
    final apply s (xs ++ ys) = final apply (final apply s xs) ys := List.foldl_append

theorem after_eq {s : σ} {ops : List ο} {t : Transition σ ο}
    (ht : t ∈ transitions apply s ops) : t.after = apply t.before t.op := by
  induction ops generalizing s with
  | nil => simp [transitions] at ht
  | cons o os ih =>
    rcases List.mem_cons.mp ht with rfl | ht
    · rfl
    · exact ih ht

theorem op_mem {s : σ} {ops : List ο} {t : Transition σ ο}
    (ht : t ∈ transitions apply s ops) : t.op ∈ ops := by
  induction ops generalizing s with
  | nil => simp [transitions] at ht
  | cons o os ih =>
    rcases List.mem_cons.mp ht with rfl | ht
    · exact List.mem_cons_self
    · exact List.mem_cons_of_mem _ (ih ht)

/-- A property kept by every transition that meets `C` holds all along a run
whose transitions all meet `C`. -/
theorem invariant_along {C : Transition σ ο → Prop} {I : σ → Prop}
    (hstep : ∀ s o, C ⟨s, o, apply s o⟩ → I s → I (apply s o)) {s : σ} {ops : List ο}
    (hC : ∀ t ∈ transitions apply s ops, C t) (hs : I s) :
    (∀ t ∈ transitions apply s ops, I t.before ∧ I t.after) ∧ I (final apply s ops) := by
  induction ops generalizing s with
  | nil => exact ⟨by simp [transitions], hs⟩
  | cons o os ih =>
    have hnext : I (apply s o) := hstep s o (hC _ List.mem_cons_self) hs
    obtain ⟨hall, hfinal⟩ := ih (fun t ht => hC t (List.mem_cons_of_mem _ ht)) hnext
    refine ⟨?_, hfinal⟩
    intro t ht
    rcases List.mem_cons.mp ht with rfl | ht
    · exact ⟨hs, hnext⟩
    · exact hall t ht

theorem invariant_final {I : σ → Prop} (hstep : ∀ s o, I s → I (apply s o)) {s : σ}
    (hs : I s) (ops : List ο) : I (final apply s ops) :=
  (invariant_along (C := fun _ => True) (fun s o _ h => hstep s o h)
    (fun _ _ => trivial) hs).2

theorem le_final {m : σ → Nat} (hstep : ∀ s o, m s ≤ m (apply s o)) {s : σ} {ops : List ο} :
    m s ≤ m (final apply s ops) ∧
    ∀ t ∈ transitions apply s ops, m t.before ≤ m (final apply s ops) := by
  induction ops generalizing s with
  | nil => exact ⟨Nat.le_refl _, by simp [transitions]⟩
  | cons o os ih =>
    obtain ⟨hnext, hall⟩ := ih (s := apply s o)
    have hfirst : m s ≤ m (final apply s (o :: os)) := Nat.le_trans (hstep s o) hnext
    refine ⟨hfirst, ?_⟩
    intro t ht
    rcases List.mem_cons.mp ht with rfl | ht
    · exact hfirst
    · exact hall t ht

section Observed

variable {α ε : Type*} (observe : σ → ο → α × σ)

def observations (s : σ) : List ο → List α
  | [] => []
  | o :: os => (observe s o).1 :: observations (observe s o).2 os

/-- The state is replaced by its reloaded self before every marked operation. -/
def reloadedObservations (reload : σ → Except ε σ) (s : σ) : List (Bool × ο) → Except ε (List α)
  | [] => .ok []
  | (reloads, o) :: os =>
    match if reloads then reload s else .ok s with
    | .error e => .error e
    | .ok s =>
      match reloadedObservations reload (observe s o).2 os with
      | .error e => .error e
      | .ok rest => .ok ((observe s o).1 :: rest)

/-- Reloading is not seen, as long as the states that come up are reloaded as they are. -/
theorem reloadedObservations_eq {observe : σ → ο → α × σ} {reload : σ → Except ε σ} {I : σ → Prop}
    {C : ο → Prop} (hreload : ∀ s, I s → reload s = .ok s)
    (hstep : ∀ s o, C o → I s → I (observe s o).2) {s : σ} (hs : I s) {ops : List (Bool × ο)}
    (hops : ∀ op ∈ ops, C op.2) :
    reloadedObservations observe reload s ops =
    .ok (observations observe s (ops.map Prod.snd)) := by
  induction ops generalizing s with
  | nil => rfl
  | cons op ops ih =>
    obtain ⟨reloads, o⟩ := op
    have hsame : (if reloads then reload s else .ok s) = .ok s := by
      cases reloads with
      | true => exact hreload s hs
      | false => rfl
    have hrest := ih (hstep s o (hops _ List.mem_cons_self) hs)
      fun op hop => hops op (List.mem_cons_of_mem _ hop)
    rw [reloadedObservations, hsame]
    dsimp only
    rw [hrest]
    rfl

end Observed

end SerialRun

namespace Interleaving

variable {ι σ ℓ χ : Type*} [DecidableEq ι]

structure Config (ι σ ℓ : Type*) where
  shared : σ
  proc : ι → ℓ

/-- Process `e.1` advances by one atomic step, under the choice `e.2` of the environment. -/
def step (advance : χ → σ → ℓ → σ × ℓ) (c : Config ι σ ℓ) (e : ι × χ) : Config ι σ ℓ :=
  let moved := advance e.2 c.shared (c.proc e.1)
  ⟨moved.1, Function.update c.proc e.1 moved.2⟩

def run (advance : χ → σ → ℓ → σ × ℓ) (c : Config ι σ ℓ) (schedule : List (ι × χ)) :
    Config ι σ ℓ :=
  SerialRun.final (step advance) c schedule

def steps (advance : χ → σ → ℓ → σ × ℓ) (c : Config ι σ ℓ) (schedule : List (ι × χ)) :
    List (SerialRun.Transition (Config ι σ ℓ) (ι × χ)) :=
  SerialRun.transitions (step advance) c schedule

theorem step_shared (advance : χ → σ → ℓ → σ × ℓ) (c : Config ι σ ℓ) (i : ι) (x : χ) :
    (step advance c (i, x)).shared = (advance x c.shared (c.proc i)).1 := rfl

theorem step_self (advance : χ → σ → ℓ → σ × ℓ) (c : Config ι σ ℓ) (i : ι) (x : χ) :
    (step advance c (i, x)).proc i = (advance x c.shared (c.proc i)).2 :=
  Function.update_self ..

theorem step_other (advance : χ → σ → ℓ → σ × ℓ) (c : Config ι σ ℓ) {i j : ι} (h : j ≠ i) (x : χ) :
    (step advance c (i, x)).proc j = c.proc j :=
  Function.update_of_ne h ..

/-- An assertion on the shared state, one on each process and one on each ordered pair
of distinct processes. -/
structure Assertion (σ ℓ : Type*) where
  shared : σ → Prop
  local_ : σ → ℓ → Prop
  pair : σ → ℓ → ℓ → Prop

def Assertion.Holds (A : Assertion σ ℓ) (c : Config ι σ ℓ) : Prop :=
  A.shared c.shared ∧ (∀ i, A.local_ c.shared (c.proc i)) ∧
    ∀ i j, i ≠ j → A.pair c.shared (c.proc i) (c.proc j)

/-- Every step that meets the condition keeps the moving process's assertions, and
does not interfere with those of the processes that stand still. -/
structure InterferenceFree (advance : χ → σ → ℓ → σ × ℓ) (condition : χ → σ → ℓ → Prop)
    (A : Assertion σ ℓ) : Prop where
  moves : ∀ x s l, condition x s l → A.shared s → A.local_ s l →
    A.shared (advance x s l).1 ∧ A.local_ (advance x s l).1 (advance x s l).2
  keeps : ∀ x s l m, condition x s l → A.shared s → A.local_ s l → A.local_ s m →
    A.pair s l m → A.pair s m l →
    A.local_ (advance x s l).1 m ∧ A.pair (advance x s l).1 (advance x s l).2 m ∧
      A.pair (advance x s l).1 m (advance x s l).2
  spares : ∀ x s l m k, condition x s l → A.shared s → A.local_ s l → A.local_ s m →
    A.local_ s k → A.pair s l m → A.pair s m l → A.pair s l k → A.pair s k l →
    A.pair s m k → A.pair (advance x s l).1 m k

theorem InterferenceFree.step {advance : χ → σ → ℓ → σ × ℓ} {condition : χ → σ → ℓ → Prop}
    {A : Assertion σ ℓ} (h : InterferenceFree advance condition A) {c : Config ι σ ℓ}
    {e : ι × χ} (he : condition e.2 c.shared (c.proc e.1)) (hc : A.Holds c) :
    A.Holds (step advance c e) := by
  obtain ⟨hs, hl, hp⟩ := hc
  obtain ⟨i, x⟩ := e
  have hmove := h.moves x c.shared (c.proc i) he hs (hl i)
  have hkeep : ∀ j, i ≠ j → _ := fun j hij =>
    h.keeps x c.shared (c.proc i) (c.proc j) he hs (hl i) (hl j) (hp i j hij)
      (hp j i (Ne.symm hij))
  refine ⟨hmove.1, ?_, ?_⟩
  · intro j
    by_cases hj : j = i
    · subst hj
      rw [step_self]
      exact hmove.2
    · rw [step_other _ _ hj]
      exact (hkeep j (Ne.symm hj)).1
  · intro j k hjk
    by_cases hj : j = i
    · subst hj
      rw [step_self, step_other _ _ (Ne.symm hjk)]
      exact (hkeep k hjk).2.1
    · by_cases hk : k = i
      · subst hk
        rw [step_self, step_other _ _ hj]
        exact (hkeep j (Ne.symm hj)).2.2
      · rw [step_other _ _ hj, step_other _ _ hk]
        exact h.spares x c.shared (c.proc i) (c.proc j) (c.proc k) he hs (hl i) (hl j) (hl k)
          (hp i j (Ne.symm hj)) (hp j i hj) (hp i k (Ne.symm hk)) (hp k i hk) (hp j k hjk)

/-- An interference-free assertion holds in every configuration of an interleaving
whose steps all meet the condition. -/
theorem InterferenceFree.along {advance : χ → σ → ℓ → σ × ℓ} {condition : χ → σ → ℓ → Prop}
    {A : Assertion σ ℓ} (h : InterferenceFree advance condition A) {c : Config ι σ ℓ}
    {schedule : List (ι × χ)}
    (he : ∀ t ∈ steps advance c schedule,
      condition t.op.2 t.before.shared (t.before.proc t.op.1)) (hc : A.Holds c) :
    (∀ t ∈ steps advance c schedule, A.Holds t.before ∧ A.Holds t.after) ∧
      A.Holds (run advance c schedule) :=
  SerialRun.invariant_along
    (C := fun t : SerialRun.Transition (Config ι σ ℓ) (ι × χ) =>
      condition t.op.2 t.before.shared (t.before.proc t.op.1)) (I := A.Holds)
    (fun _ _ hcond hA => h.step hcond hA) he hc

theorem InterferenceFree.run {advance : χ → σ → ℓ → σ × ℓ} {condition : χ → σ → ℓ → Prop}
    {A : Assertion σ ℓ} (h : InterferenceFree advance condition A) {c : Config ι σ ℓ}
    {schedule : List (ι × χ)}
    (he : ∀ t ∈ steps advance c schedule,
      condition t.op.2 t.before.shared (t.before.proc t.op.1)) (hc : A.Holds c) :
    A.Holds (run advance c schedule) :=
  (h.along he hc).2

/-- So does a property of whole configurations that the steps keep as long as the
assertion holds. -/
theorem InterferenceFree.run_with {advance : χ → σ → ℓ → σ × ℓ} {condition : χ → σ → ℓ → Prop}
    {A : Assertion σ ℓ} {I : Config ι σ ℓ → Prop} (h : InterferenceFree advance condition A)
    (hstep : ∀ c e, condition e.2 c.shared (c.proc e.1) → A.Holds c → I c →
      I (Interleaving.step advance c e))
    {c : Config ι σ ℓ} {schedule : List (ι × χ)}
    (he : ∀ t ∈ steps advance c schedule,
      condition t.op.2 t.before.shared (t.before.proc t.op.1)) (hc : A.Holds c) (hI : I c) :
    I (Interleaving.run advance c schedule) :=
  (SerialRun.invariant_along
    (C := fun t => condition t.op.2 t.before.shared (t.before.proc t.op.1))
    (I := fun c => A.Holds c ∧ I c)
    (fun _ _ hcond hboth => ⟨h.step hcond hboth.1, hstep _ _ hcond hboth.1 hboth.2⟩)
    he ⟨hc, hI⟩).2.2

section Simulating

variable {σ' ℓ' χ' : Type*}

/-- A process of the one system moves as a process of the other does, or that one stands
still. -/
def Follows (advance' : χ' → σ' → ℓ' → σ' × ℓ') (R : σ → σ' → Prop) (P : ℓ → ℓ' → Prop)
    (s' : σ') (l' : ℓ') (moved : σ × ℓ) : Prop :=
  R moved.1 s' ∧ P moved.2 l' ∨
    ∃ x', R moved.1 (advance' x' s' l').1 ∧ P moved.2 (advance' x' s' l').2

/-- Configurations whose shared states and whose processes correspond. -/
structure Corresponds (R : σ → σ' → Prop) (P : ℓ → ℓ' → Prop) (c : Config ι σ ℓ)
    (c' : Config ι σ' ℓ') : Prop where
  shared : R c.shared c'.shared
  proc : ∀ i, P (c.proc i) (c'.proc i)

variable {advance : χ → σ → ℓ → σ × ℓ} {advance' : χ' → σ' → ℓ' → σ' × ℓ'}
  {R : σ → σ' → Prop} {P : ℓ → ℓ' → Prop} {condition : χ → σ → ℓ → Prop}

theorem Corresponds.step {c : Config ι σ ℓ} {c' : Config ι σ' ℓ'} (h : Corresponds R P c c')
    {e : ι × χ}
    (hfollows : Follows advance' R P c'.shared (c'.proc e.1) (advance e.2 c.shared (c.proc e.1))) :
    ∃ schedule', Corresponds R P (Interleaving.step advance c e)
      (Interleaving.run advance' c' schedule') := by
  obtain ⟨i, x⟩ := e
  rcases hfollows with ⟨hshared, hproc⟩ | ⟨x', hshared, hproc⟩
  · refine ⟨[], hshared, fun j => ?_⟩
    by_cases hj : j = i
    · subst hj
      rw [step_self]
      exact hproc
    · rw [step_other _ _ hj]
      exact h.proc j
  · refine ⟨[(i, x')], hshared, fun j => ?_⟩
    change P _ ((Interleaving.step advance' c' (i, x')).proc j)
    by_cases hj : j = i
    · subst hj
      rw [step_self, step_self]
      exact hproc
    · rw [step_other _ _ hj, step_other _ _ hj]
      exact h.proc j

/-- If each step is followed, an interleaving of the one system is matched by one of the
other. -/
theorem Corresponds.run
    (hfollows : ∀ x s l s' l', condition x s l → R s s' → P l l' →
      Follows advance' R P s' l' (advance x s l))
    {c : Config ι σ ℓ} {c' : Config ι σ' ℓ'} (h : Corresponds R P c c')
    {schedule : List (ι × χ)} (he : ∀ t ∈ steps advance c schedule,
      condition t.op.2 t.before.shared (t.before.proc t.op.1)) :
    ∃ schedule', Corresponds R P (Interleaving.run advance c schedule)
      (Interleaving.run advance' c' schedule') := by
  induction schedule generalizing c c' with
  | nil => exact ⟨[], h⟩
  | cons e rest ih =>
    have hfirst := hfollows e.2 c.shared (c.proc e.1) c'.shared (c'.proc e.1)
      (he ⟨c, e, _⟩ List.mem_cons_self) h.shared (h.proc e.1)
    obtain ⟨front, hfront⟩ := h.step hfirst
    obtain ⟨back, hback⟩ := ih hfront fun t ht => he t (List.mem_cons_of_mem _ ht)
    have hsplit : Interleaving.run advance' c' (front ++ back) =
        Interleaving.run advance' (Interleaving.run advance' c' front) back :=
      SerialRun.final_append c' front back
    exact ⟨front ++ back, hsplit ▸ hback⟩

end Simulating

end Interleaving
