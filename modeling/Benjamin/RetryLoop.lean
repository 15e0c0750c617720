import Benjamin.Effect

/-!
# Loops that try again

A loop issues a request in each of a fixed number of attempts. It ends with the first
outcome that is not to be retried or with the last attempt, waits before it tries again,
and raises an error of its own when it has run out of attempts. `Tries` says what callers
expect of it; `tries_iff` says when they get it.
-/
namespace RetryLoop

open Effect

variable {ε ω α τ : Type}

/-- The requests issued so far, whether the loop has been left at its end, and what it keeps
from one attempt to the next. -/
structure Calls (τ : Type) where
  issued : Nat
  exhausted : Bool
  kept : τ

abbrev Attempts (ε τ : Type) := Prog ε (Calls τ)

def start (kept : τ) : Calls τ := ⟨0, false, kept⟩

def issue (outcomes : Nat → ω) : Attempts ε τ ω := fun c =>
  (.ok (outcomes c.issued), { c with issued := c.issued + 1 })

def keep (f : τ → τ) : Attempts ε τ Unit := Prog.update fun c => { c with kept := f c.kept }

def pause : Option ε → Attempts ε τ Unit
  | none => pure ()
  | some e => Prog.raise e

def runOut (e : τ → ε) : Attempts ε τ α := fun c =>
  (.error (e c.kept), { c with exhausted := true })

/-- A loop over the attempts from the given one on, whose body may return. -/
def forAttempts (body : Nat → Attempts ε τ (Option α)) (after : Attempts ε τ α) :
    Nat → Nat → Attempts ε τ α
  | _, 0 => after
  | attempt, left + 1 => do
    let answer ← body attempt
    match answer with
    | some a => pure a
    | none => forAttempts body after (attempt + 1) left

theorem keep_ends {β : Type} {f : τ → τ} {x : Attempts ε τ β} {c : Calls τ}
    {Q : Except ε β → Calls τ → Prop} (hx : Ends x { c with kept := f c.kept } Q) :
    Ends (keep f >>= fun _ => x) c Q :=
  hx

theorem issue_ends {β : Type} {outcomes : Nat → ω} {x : ω → Attempts ε τ β} {c : Calls τ}
    {Q : Except ε β → Calls τ → Prop}
    (hx : Ends (x (outcomes c.issued)) { c with issued := c.issued + 1 } Q) :
    Ends (issue outcomes >>= x) c Q :=
  hx

/-- What a client makes of an outcome when it does not try again. -/
structure Policy (ω ε α : Type) where
  retryable : ω → Bool
  verdict : ω → Except ε α

def Policy.attempt (p : Policy ω ε α) (wait : Nat → Option ε) (last : Int) (k : Nat) (o : ω) :
    Except ε (Option α) :=
  if p.retryable o = true ∧ (k : Int) < last then
    match wait k with
    | none => .ok none
    | some e => .error e
  else (p.verdict o).map some

/-- Each attempt issues one request and treats its outcome as the policy does. -/
def Follows (p : Policy ω ε α) (wait : Nat → Option ε) (outcomes : Nat → ω) (last : Int)
    (body : Nat → Attempts ε τ (Option α)) : Prop :=
  ∀ k c, Ends (body k) c fun r c' =>
    c'.issued = c.issued + 1 ∧ c'.exhausted = c.exhausted ∧
      r = p.attempt wait last k (outcomes c.issued)

/-- What is expected of a client that is allowed to try again so many times. -/
structure Tries (p : Policy ω ε α) (outcomes : Nat → ω) (retries : Int) (r : Except ε α)
    (c : Calls τ) : Prop where
  atLeastOne : 1 ≤ c.issued
  atMost : (c.issued : Int) ≤ max 0 retries + 1
  retried : ∀ k, k + 1 < c.issued → p.retryable (outcomes k) = true
  stopped : p.retryable (outcomes (c.issued - 1)) = false ∨ (c.issued : Int) = max 0 retries + 1
  answer : r = p.verdict (outcomes (c.issued - 1))
  within : c.exhausted = false

theorem tries_congr {p : Policy ω ε α} {outcomes : Nat → ω} {retries retries' : Int}
    (h : max 0 retries = max 0 retries') {r : Except ε α} {c : Calls τ} :
    Tries p outcomes retries r c ↔ Tries p outcomes retries' r c := by
  constructor
  · rintro ⟨hone, hmost, hretried, hstopped, hanswer, hwithin⟩
    rw [h] at hmost hstopped
    exact ⟨hone, hmost, hretried, hstopped, hanswer, hwithin⟩
  · rintro ⟨hone, hmost, hretried, hstopped, hanswer, hwithin⟩
    rw [← h] at hmost hstopped
    exact ⟨hone, hmost, hretried, hstopped, hanswer, hwithin⟩

section Running

variable (p : Policy ω ε α) (wait : Nat → Option ε) (outcomes : Nat → ω) (last : Int)

/-- The attempts before `k` have all been retried. -/
def Retried (k : Nat) : Prop := ∀ j < k, p.retryable (outcomes j) = true ∧ wait j = none

/-- No wait raises that is followed by an attempt. -/
def Unbroken : Prop :=
  ∀ k : Nat, (k : Int) < last → (∀ j ≤ k, p.retryable (outcomes j) = true) → wait k = none

inductive Ran : Except ε α → Calls τ → Prop
  | unissued (r : Except ε α) (c : Calls τ) (negative : last < 0) (issued : c.issued = 0) : Ran r c
  | answered (k : Nat) (c : Calls τ) (due : (k : Int) ≤ last) (before : Retried p wait outcomes k)
      (final : p.retryable (outcomes k) = false ∨ (k : Int) = last) (issued : c.issued = k + 1)
      (within : c.exhausted = false) : Ran (p.verdict (outcomes k)) c
  | interrupted (k : Nat) (e : ε) (c : Calls τ) (due : (k : Int) < last)
      (before : Retried p wait outcomes k) (retryable : p.retryable (outcomes k) = true)
      (raised : wait k = some e) (issued : c.issued = k + 1) : Ran (.error e) c

variable {p wait outcomes last}

theorem Policy.attempt_cases (p : Policy ω ε α) (wait : Nat → Option ε) (last : Int) (k : Nat)
    (o : ω) :
    (p.retryable o = true ∧ (k : Int) < last ∧ wait k = none ∧ p.attempt wait last k o = .ok none) ∨
      (p.retryable o = true ∧ (k : Int) < last ∧ ∃ e, wait k = some e ∧
        p.attempt wait last k o = .error e) ∨
      ((p.retryable o = false ∨ last ≤ k) ∧ p.attempt wait last k o = (p.verdict o).map some) := by
  rw [Policy.attempt]
  by_cases hagain : p.retryable o = true ∧ (k : Int) < last
  · obtain ⟨hretryable, hdue⟩ := hagain
    rw [if_pos ⟨hretryable, hdue⟩]
    cases hwait : wait k with
    | none => exact .inl ⟨hretryable, hdue, rfl, rfl⟩
    | some e => exact .inr (.inl ⟨hretryable, hdue, e, rfl, rfl⟩)
  · refine .inr (.inr ⟨?_, if_neg hagain⟩)
    cases hretryable : p.retryable o with
    | false => exact .inl rfl
    | true => exact .inr (Int.not_lt.mp fun hdue => hagain ⟨hretryable, hdue⟩)

theorem forAttempts_ran {body : Nat → Attempts ε τ (Option α)} {after : Attempts ε τ α}
    (hbody : Follows p wait outcomes last body) {k left : Nat} (hleft : (left : Int) = last + 1 - k)
    (hsome : 0 < left) (hbefore : Retried p wait outcomes k) {c : Calls τ} (hissued : c.issued = k)
    (hwithin : c.exhausted = false) :
    Ends (forAttempts body after k left) c (Ran p wait outcomes last) := by
  induction left generalizing k c with
  | zero => omega
  | succ left ih =>
    have hcases := p.attempt_cases wait last k (outcomes k)
    have hdone : ∀ c' : Calls τ, c'.issued = c.issued + 1 → c'.exhausted = c.exhausted →
        (p.retryable (outcomes k) = false ∨ last ≤ k) →
        Ran p wait outcomes last (p.verdict (outcomes k)) c' := by
      intro c' hissued' hwithin' hfinal
      exact .answered k c' (by omega) hbefore (hfinal.imp_right fun h => by omega)
        (by rw [hissued', hissued]) (hwithin'.trans hwithin)
    refine Ends.bind (hbody k c) ?_ ?_
    · rintro answer c' ⟨hissued', hwithin', hanswer⟩
      rw [hissued] at hanswer
      rcases hcases with ⟨hretryable, hdue, hwait, hattempt⟩ | ⟨_, _, e, _, hattempt⟩ |
          ⟨hfinal, hattempt⟩
      · rw [hattempt] at hanswer
        cases hanswer
        refine ih (by omega) (by omega) ?_ (by omega) (hwithin'.trans hwithin)
        intro j hj
        rcases Nat.lt_succ_iff_lt_or_eq.mp hj with hj | rfl
        · exact hbefore j hj
        · exact ⟨hretryable, hwait⟩
      · rw [hattempt] at hanswer
        cases hanswer
      · rw [hattempt] at hanswer
        have hran := hdone c' hissued' hwithin' hfinal
        cases hverdict : p.verdict (outcomes k) with
        | error e =>
          rw [hverdict] at hanswer
          cases hanswer
        | ok a =>
          rw [hverdict] at hanswer hran
          cases hanswer
          exact hran
    · rintro e c' ⟨hissued', hwithin', hanswer⟩
      rw [hissued] at hanswer
      rcases hcases with ⟨_, _, _, hattempt⟩ | ⟨hretryable, hdue, e', hwait, hattempt⟩ |
          ⟨hfinal, hattempt⟩
      · rw [hattempt] at hanswer
        cases hanswer
      · rw [hattempt] at hanswer
        cases hanswer
        exact .interrupted k e c' hdue hbefore hretryable hwait (by rw [hissued', hissued])
      · rw [hattempt] at hanswer
        have hran := hdone c' hissued' hwithin' hfinal
        cases hverdict : p.verdict (outcomes k) with
        | error e' =>
          rw [hverdict] at hanswer hran
          cases hanswer
          exact hran
        | ok a =>
          rw [hverdict] at hanswer
          cases hanswer

/-- The whole loop. -/
theorem loop_ran {body : Nat → Attempts ε τ (Option α)} {e : τ → ε} {kept : τ}
    (hbody : Follows p wait outcomes last body) :
    Ends (forAttempts body (runOut e) 0 (last + 1).toNat) (start kept)
      (Ran p wait outcomes last) := by
  by_cases hnegative : last < 0
  · have hnone : (last + 1).toNat = 0 := by omega
    rw [hnone]
    exact .unissued _ _ hnegative rfl
  · exact forAttempts_ran hbody (by omega) (by omega) (fun j hj => by omega) rfl rfl

/-- Callers get what they expect if the number of retries is not negative and no wait breaks
the loop off, and only then. -/
theorem tries_iff {r : Except ε α} {c : Calls τ} (h : Ran p wait outcomes last r c) :
    Tries p outcomes last r c ↔ 0 ≤ last ∧ Unbroken p wait outcomes last := by
  constructor
  · intro htries
    have hone := htries.atLeastOne
    have hstopped := htries.stopped
    cases h with
    | unissued r c hnegative hissued => omega
    | interrupted k e c hdue hbefore hretryable hraised hissued =>
      rw [hissued, Nat.add_sub_cancel, hretryable] at hstopped
      rcases hstopped with hstopped | hstopped
      · cases hstopped
      · omega
    | answered k c hdue hbefore hfinal hissued hwithin =>
      refine ⟨by omega, fun j hj hall => ?_⟩
      rcases Nat.lt_or_ge j k with hjk | hkj
      · exact (hbefore j hjk).2
      · rcases hfinal with hfinal | hfinal
        · rw [hall k hkj] at hfinal
          cases hfinal
        · omega
  · rintro ⟨hpositive, hunbroken⟩
    cases h with
    | unissued r c hnegative hissued => omega
    | interrupted k e c hdue hbefore hretryable hraised hissued =>
      have hnone := hunbroken k hdue fun j hj => by
        rcases Nat.lt_or_eq_of_le hj with hj | rfl
        · exact (hbefore j hj).1
        · exact hretryable
      rw [hraised] at hnone
      cases hnone
    | answered k c hdue hbefore hfinal hissued hwithin =>
      refine ⟨by omega, by omega, fun j hj => (hbefore j (by omega)).1, ?_, ?_, hwithin⟩
      · rw [hissued, Nat.add_sub_cancel]
        exact hfinal.imp_right fun h => by omega
      · rw [hissued, Nat.add_sub_cancel]

end Running

end RetryLoop
