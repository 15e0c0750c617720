import Mathlib.Logic.Basic

/-!
# Programs that change a state and may raise

A program runs on a state, returns or raises, and keeps the changes it made
before raising. `Ends` is the rule of postconditions for both exits; `Keeps` says
that a reflexive and transitive relation holds between the states around a run.
-/
namespace Effect

universe u v w

def Prog (ε : Type u) (σ : Type v) (α : Type w) := σ → Except ε α × σ

variable {ε : Type u} {σ : Type v} {α β : Type w}

namespace Prog

def ret (a : α) : Prog ε σ α := fun s => (.ok a, s)

def seq (x : Prog ε σ α) (f : α → Prog ε σ β) : Prog ε σ β := fun s =>
  match x s with
  | (.ok a, s') => f a s'
  | (.error e, s') => (.error e, s')

instance : Monad (Prog ε σ) where
  pure := ret
  bind := seq

def raise (e : ε) : Prog ε σ α := fun s => (.error e, s)

def read (f : σ → α) : Prog ε σ α := fun s => (.ok (f s), s)

def update (f : σ → σ) : Prog ε σ PUnit := fun s => (.ok ⟨⟩, f s)

def ask (f : σ → Except ε α) : Prog ε σ α := fun s => (f s, s)

def ofExcept : Except ε α → Prog ε σ α
  | .ok a => ret a
  | .error e => raise e

def raiseIf (c : Bool) (e : ε) : Prog ε σ PUnit := if c then raise e else ret ⟨⟩

/-- `try x except e: h e`. -/
def attempt (x : Prog ε σ α) (h : ε → Prog ε σ α) : Prog ε σ α := fun s =>
  match x s with
  | (.ok a, s') => (.ok a, s')
  | (.error e, s') => h e s'

/-- `try x finally: cleanup`. -/
def ensure (x : Prog ε σ α) (cleanup : Prog ε σ PUnit) : Prog ε σ α := fun s =>
  match cleanup (x s).2 with
  | (.ok _, s') => ((x s).1, s')
  | (.error e, s') => (.error e, s')

def zoom {τ : Type v} (get : τ → σ) (set : τ → σ → τ) (x : Prog ε σ α) : Prog ε τ α := fun t =>
  ((x (get t)).1, set t (x (get t)).2)

end Prog

open Prog

variable {s s' : σ} {x : Prog ε σ α} {f : α → Prog ε σ β}

@[simp] theorem pure_apply (a : α) (s : σ) : (pure a : Prog ε σ α) s = (.ok a, s) := rfl
@[simp] theorem raise_apply (e : ε) (s : σ) : (raise e : Prog ε σ α) s = (.error e, s) := rfl
@[simp] theorem read_apply (g : σ → α) (s : σ) : (read g : Prog ε σ α) s = (.ok (g s), s) := rfl
@[simp] theorem update_apply (g : σ → σ) (s : σ) :
    (update g : Prog ε σ PUnit) s = (.ok ⟨⟩, g s) := rfl
@[simp] theorem ask_apply (g : σ → Except ε α) (s : σ) : (ask g : Prog ε σ α) s = (g s, s) := rfl
@[simp] theorem ofExcept_apply (r : Except ε α) (s : σ) : ofExcept r s = (r, s) := by
  cases r <;> rfl

theorem bind_ok {a : α} (h : x s = (.ok a, s')) : (x >>= f) s = f a s' := by
  change Prog.seq x f s = _
  simp [Prog.seq, h]

theorem bind_error {e : ε} (h : x s = (.error e, s')) : (x >>= f) s = (.error e, s') := by
  change Prog.seq x f s = _
  simp [Prog.seq, h]

@[simp] theorem pure_bind (a : α) (f : α → Prog ε σ β) (s : σ) : (pure a >>= f) s = f a s := rfl

@[simp] theorem raise_bind (e : ε) (f : α → Prog ε σ β) (s : σ) :
    ((raise e : Prog ε σ α) >>= f) s = (.error e, s) := rfl

@[simp] theorem read_bind (g : σ → α) (f : α → Prog ε σ β) (s : σ) :
    (read g >>= f) s = f (g s) s := rfl

@[simp] theorem update_bind (g : σ → σ) (f : PUnit → Prog ε σ β) (s : σ) :
    (update g >>= f) s = f ⟨⟩ (g s) := rfl

theorem ask_bind (g : σ → Except ε α) (f : α → Prog ε σ β) (s : σ) :
    (ask g >>= f) s = match g s with
      | .ok a => f a s
      | .error e => (.error e, s) := by
  change Prog.seq (ask g) f s = _
  cases h : g s <;> simp [Prog.seq, h]

theorem ensure_ok {cleanup : Prog ε σ PUnit} {t : σ} (h : cleanup (x s).2 = (.ok ⟨⟩, t)) :
    ensure x cleanup s = ((x s).1, t) := by
  simp only [ensure, h]

/-- Run from `s`, the program ends with a result and a state that satisfy `Q`. -/
def Ends (x : Prog ε σ α) (s : σ) (Q : Except ε α → σ → Prop) : Prop := Q (x s).1 (x s).2

theorem Ends.mono {Q T : Except ε α → σ → Prop} (h : Ends x s Q) (hQ : ∀ r t, Q r t → T r t) :
    Ends x s T :=
  hQ _ _ h

theorem Ends.bind {Q : Except ε α → σ → Prop} {Q' : Except ε β → σ → Prop} (h : Ends x s Q)
    (hok : ∀ a t, Q (.ok a) t → Ends (f a) t Q') (herr : ∀ e t, Q (.error e) t → Q' (.error e) t) :
    Ends (x >>= f) s Q' := by
  rw [Ends] at h ⊢
  cases hx : x s with
  | mk r t =>
    rw [hx] at h
    cases r with
    | ok a => rw [bind_ok hx]; exact hok a t h
    | error e => rw [bind_error hx]; exact herr e t h

theorem Ends.attempt {Q Q' : Except ε α → σ → Prop} {h : ε → Prog ε σ α} (hx : Ends x s Q)
    (hok : ∀ a t, Q (.ok a) t → Q' (.ok a) t) (herr : ∀ e t, Q (.error e) t → Ends (h e) t Q') :
    Ends (Prog.attempt x h) s Q' := by
  rw [Ends, Prog.attempt] at *
  cases hr : x s with
  | mk r t =>
    rw [hr] at hx
    cases r with
    | ok a => exact hok a t hx
    | error e => exact herr e t hx

/-- Run from `s`, the program returns. -/
def Returns (x : Prog ε σ α) (s : σ) (P : α → σ → Prop) : Prop := ∃ a t, x s = (.ok a, t) ∧ P a t

theorem Returns.bind {P : α → σ → Prop} {Q : Except ε β → σ → Prop} (h : Returns x s P)
    (hf : ∀ a t, P a t → Ends (f a) t Q) : Ends (x >>= f) s Q := by
  obtain ⟨a, t, hx, hP⟩ := h
  rw [Ends, bind_ok hx]
  exact hf a t hP

theorem Returns.ends {P : α → σ → Prop} {Q : Except ε α → σ → Prop} (h : Returns x s P)
    (hQ : ∀ a t, P a t → Q (.ok a) t) : Ends x s Q := by
  obtain ⟨a, t, hx, hP⟩ := h
  rw [Ends, hx]
  exact hQ a t hP

theorem Ends.read {g : σ → α} {Q : Except ε β → σ → Prop} (h : Ends (f (g s)) s Q) :
    Ends (Prog.read g >>= f) s Q :=
  h

theorem Ends.ofExcept {r : Except ε α} {Q : Except ε β → σ → Prop}
    (hok : ∀ a, r = .ok a → Ends (f a) s Q) (herr : ∀ e, r = .error e → Q (.error e) s) :
    Ends (Prog.ofExcept r >>= f) s Q := by
  cases r with
  | ok a => exact hok a rfl
  | error e => exact herr e rfl

theorem Ends.ask {g : σ → Except ε α} {Q : Except ε β → σ → Prop}
    (hok : ∀ a, g s = .ok a → Ends (f a) s Q) (herr : ∀ e, g s = .error e → Q (.error e) s) :
    Ends (Prog.ask g >>= f) s Q := by
  rw [Ends, ask_bind]
  cases h : g s with
  | ok a => exact hok a h
  | error e => exact herr e h

/-- A program on a part leaves the rest of the larger state as it was. -/
theorem Returns.zoom {τ : Type v} {get : τ → σ} {set : τ → σ → τ} {t : τ} {P : α → σ → Prop}
    (h : Returns x (get t) P) : Returns (zoom get set x) t fun a u => ∃ s, P a s ∧ u = set t s := by
  obtain ⟨a, s, hx, hP⟩ := h
  refine ⟨a, set t s, ?_, s, hP, rfl⟩
  simp only [Prog.zoom, hx]

theorem Ends.zoom {τ : Type v} {get : τ → σ} {set : τ → σ → τ} {t : τ}
    {Q : Except ε α → σ → Prop} (h : Ends x (get t) Q) :
    Ends (zoom get set x) t fun r u => ∃ s, Q r s ∧ u = set t s :=
  ⟨(x (get t)).2, h, rfl⟩

def Gives (x : Prog ε σ α) (P : α → Prop) : Prop := ∀ s a t, x s = (.ok a, t) → P a

theorem Gives.pure {P : α → Prop} {a : α} (h : P a) : Gives (Pure.pure a : Prog ε σ α) P := by
  rintro s _ t ⟨⟩
  exact h

theorem Gives.raise {P : α → Prop} (e : ε) : Gives (Prog.raise e : Prog ε σ α) P := nofun

theorem Gives.any (x : Prog ε σ α) : Gives x fun _ => True := fun _ _ _ _ => trivial

theorem Gives.bind {P : α → Prop} {Q : β → Prop} (hx : Gives x P)
    (hf : ∀ a, P a → Gives (f a) Q) : Gives (x >>= f) Q := by
  intro s b t h
  cases hr : x s with
  | mk r u =>
    cases r with
    | ok a =>
      rw [bind_ok hr] at h
      exact hf a (hx s a u hr) u b t h
    | error e =>
      rw [bind_error hr] at h
      cases h

def Keeps (R : σ → σ → Prop) (x : Prog ε σ α) : Prop := ∀ s, R s (x s).2

/-- What a relation needs to be kept by a sequence of programs. -/
structure Chains (R : σ → σ → Prop) : Prop where
  refl : ∀ s, R s s
  trans : ∀ {s t u}, R s t → R t u → R s u

section Keeping

variable {R : σ → σ → Prop}

theorem Keeps.pure (hR : Chains R) (a : α) : Keeps R (Pure.pure a : Prog ε σ α) := hR.refl

theorem Keeps.raise (hR : Chains R) (e : ε) : Keeps R (Prog.raise e : Prog ε σ α) := hR.refl

theorem Keeps.read (hR : Chains R) (g : σ → α) : Keeps R (Prog.read g : Prog ε σ α) := hR.refl

theorem Keeps.ask (hR : Chains R) (g : σ → Except ε α) : Keeps R (Prog.ask g : Prog ε σ α) :=
  hR.refl

theorem Keeps.ofExcept (hR : Chains R) (r : Except ε α) :
    Keeps R (Prog.ofExcept r : Prog ε σ α) := by
  intro s; simpa using hR.refl s

theorem Keeps.raiseIf (hR : Chains R) (c : Bool) (e : ε) :
    Keeps R (Prog.raiseIf c e : Prog ε σ PUnit) := by
  cases c <;> exact hR.refl

theorem Keeps.update {g : σ → σ} (h : ∀ s, R s (g s)) :
    Keeps R (Prog.update g : Prog ε σ PUnit) := h

theorem Keeps.bind (hR : Chains R) (hx : Keeps R x) (hf : ∀ a, Keeps R (f a)) :
    Keeps R (x >>= f) := by
  intro s
  have h := hx s
  cases hr : x s with
  | mk r t =>
    rw [hr] at h
    cases r with
    | ok a => rw [bind_ok hr]; exact hR.trans h (hf a t)
    | error e => rw [bind_error hr]; exact h

theorem Keeps.attempt (hR : Chains R) {h : ε → Prog ε σ α} (hx : Keeps R x)
    (hh : ∀ e, Keeps R (h e)) : Keeps R (Prog.attempt x h) := by
  intro s
  have hxs := hx s
  rw [Prog.attempt]
  cases hr : x s with
  | mk r t =>
    rw [hr] at hxs
    cases r with
    | ok a => exact hxs
    | error e => exact hR.trans hxs (hh e t)

end Keeping

end Effect
