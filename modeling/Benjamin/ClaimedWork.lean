import Benjamin.SerialRun

/-!
# Work that is claimed before it is done

A board gives every key a status. A worker claims an open key, works on it once, and then
reports: a success closes the key for good, a failure opens it again. A worker may stop at
any point, and its key then stays claimed.
-/
namespace ClaimedWork

variable {ι κ : Type*} [DecidableEq κ]

inductive Status where
  | opened | claimed | finished
  deriving DecidableEq

structure Board (κ : Type*) where
  status : κ → Status
  successes : κ → Nat

inductive Phase (κ : Type*) where
  | idle
  | holding (k : κ)
  | succeeded (k : κ)
  | failed (k : κ)
  | released

inductive Move (κ : Type*) where
  | claim (k : κ)
  | refuse
  | work (ok : Bool)
  | report

def Board.setStatus (b : Board κ) (k : κ) (status : Status) : Board κ :=
  { b with status := Function.update b.status k status }

def Board.succeed (b : Board κ) (k : κ) : Board κ :=
  { b with successes := Function.update b.successes k (b.successes k + 1) }

/-- A move that the phase or the board does not allow changes nothing. -/
def advance : Move κ → Board κ → Phase κ → Board κ × Phase κ
  | .claim k, b, .idle =>
    if b.status k = .opened then (b.setStatus k .claimed, .holding k) else (b, .idle)
  | .refuse, b, .idle => (b, .released)
  | .work true, b, .holding k => (b.succeed k, .succeeded k)
  | .work false, b, .holding k => (b, .failed k)
  | .report, b, .succeeded k => (b.setStatus k .finished, .released)
  | .report, b, .failed k => (b.setStatus k .opened, .released)
  | _, b, p => (b, p)

def Phase.holds : Phase κ → Option κ
  | .holding k | .succeeded k | .failed k => some k
  | .idle | .released => none

/-- What a worker knows of the key that it holds. -/
structure Held (b : Board κ) (k : κ) (count : Nat) : Prop where
  status : b.status k = .claimed
  successes : b.successes k = count

/-- No key has more than one success, and none with a success is open; a worker's key is
claimed, and no other worker's. -/
def exclusive : Interleaving.Assertion (Board κ) (Phase κ) where
  shared b := ∀ k, b.successes k = 0 ∨ b.successes k = 1 ∧ b.status k ≠ .opened
  local_ b p := match p with
    | .holding k | .failed k => Held b k 0
    | .succeeded k => Held b k 1
    | .idle | .released => True
  pair _ p q := ∀ k, p.holds = some k → q.holds ≠ some k

section Boards

variable {b : Board κ} {j k : κ} {status : Status}

@[simp] theorem status_setStatus_self : (b.setStatus k status).status k = status := by
  simp [Board.setStatus]

theorem status_setStatus_ne (h : j ≠ k) : (b.setStatus k status).status j = b.status j := by
  simp [Board.setStatus, h]

@[simp] theorem successes_setStatus : (b.setStatus k status).successes = b.successes := rfl

@[simp] theorem status_succeed : (b.succeed k).status = b.status := rfl

@[simp] theorem successes_succeed_self : (b.succeed k).successes k = b.successes k + 1 := by
  simp [Board.succeed]

theorem successes_succeed_ne (h : j ≠ k) : (b.succeed k).successes j = b.successes j := by
  simp [Board.succeed, h]

theorem Held.setStatus_ne {count : Nat} (h : Held b j count) (hne : j ≠ k) :
    Held (b.setStatus k status) j count :=
  ⟨(status_setStatus_ne hne).trans h.status, h.successes⟩

theorem Held.succeed_ne {count : Nat} (h : Held b j count) (hne : j ≠ k) :
    Held (b.succeed k) j count :=
  ⟨h.status, (successes_succeed_ne hne).trans h.successes⟩

theorem shared_setStatus (h : exclusive.shared b) (hk : b.successes k = 0 ∨ status ≠ .opened) :
    exclusive.shared (b.setStatus k status) := by
  intro j
  by_cases hj : j = k
  · subst hj
    rcases h j with hzero | ⟨hone, _⟩
    · exact .inl hzero
    · refine .inr ⟨hone, ?_⟩
      rw [status_setStatus_self]
      exact hk.resolve_left (by omega)
  · rw [successes_setStatus, status_setStatus_ne hj]
    exact h j

theorem shared_succeed (h : exclusive.shared b) (hk : Held b k 0) :
    exclusive.shared (b.succeed k) := by
  intro j
  by_cases hj : j = k
  · subst hj
    refine .inr ⟨?_, ?_⟩
    · rw [successes_succeed_self, hk.successes]
    · rw [status_succeed, hk.status]
      intro heq
      cases heq
  · rw [successes_succeed_ne hj, status_succeed]
    exact h j

end Boards

inductive Advanced (b : Board κ) : Phase κ → Board κ → Phase κ → Prop
  | stalled (p : Phase κ) : Advanced b p b p
  | claimed (k : κ) (opened : b.status k = .opened) :
      Advanced b .idle (b.setStatus k .claimed) (.holding k)
  | refused : Advanced b .idle b .released
  | worked (k : κ) : Advanced b (.holding k) (b.succeed k) (.succeeded k)
  | missed (k : κ) : Advanced b (.holding k) b (.failed k)
  | closed (k : κ) : Advanced b (.succeeded k) (b.setStatus k .finished) .released
  | reopened (k : κ) : Advanced b (.failed k) (b.setStatus k .opened) .released

theorem advance_cases (x : Move κ) (b : Board κ) (p : Phase κ) :
    Advanced b p (advance x b p).1 (advance x b p).2 := by
  cases x with
  | claim k =>
    cases p with
    | idle =>
      simp only [advance]
      split
      · rename_i hopened
        exact .claimed k hopened
      · exact .stalled .idle
    | holding | succeeded | failed | released => exact .stalled _
  | refuse =>
    cases p with
    | idle => exact .refused
    | holding | succeeded | failed | released => exact .stalled _
  | work ok =>
    cases p with
    | holding k =>
      cases ok with
      | true => exact .worked k
      | false => exact .missed k
    | idle | succeeded | failed | released => cases ok <;> exact .stalled _
  | report =>
    cases p with
    | succeeded k => exact .closed k
    | failed k => exact .reopened k
    | idle | holding | released => exact .stalled _

section Safety

variable {b b' : Board κ} {p p' q r : Phase κ}

theorem exclusive_moves (hcase : Advanced b p b' p') (hs : exclusive.shared b)
    (hp : exclusive.local_ b p) : exclusive.shared b' ∧ exclusive.local_ b' p' := by
  cases hcase with
  | stalled => exact ⟨hs, hp⟩
  | claimed k opened =>
    have hzero : b.successes k = 0 := (hs k).resolve_right fun h => h.2 opened
    exact ⟨shared_setStatus hs (.inl hzero), status_setStatus_self, hzero⟩
  | refused => exact ⟨hs, trivial⟩
  | worked k =>
    exact ⟨shared_succeed hs hp, hp.status, by rw [successes_succeed_self, hp.successes]⟩
  | missed k => exact ⟨hs, hp⟩
  | closed k => exact ⟨shared_setStatus hs (.inr fun h => by cases h), trivial⟩
  | reopened k => exact ⟨shared_setStatus hs (.inl hp.successes), trivial⟩

omit [DecidableEq κ] in
theorem local_frame (hq : exclusive.local_ b q)
    (hframe : ∀ k count, q.holds = some k → Held b k count → Held b' k count) :
    exclusive.local_ b' q := by
  cases q with
  | idle | released => trivial
  | holding k | failed k => exact hframe k 0 rfl hq
  | succeeded k => exact hframe k 1 rfl hq

theorem held_frame (hcase : Advanced b p b' p') (hapart : exclusive.pair b p q) :
    ∀ k count, q.holds = some k → Held b k count → Held b' k count := by
  intro j count hj hheld
  cases hcase with
  | stalled => exact hheld
  | claimed k opened =>
    refine hheld.setStatus_ne fun heq => ?_
    subst heq
    cases opened.symm.trans hheld.status
  | refused => exact hheld
  | worked k => exact hheld.succeed_ne fun heq => hapart k rfl (heq ▸ hj)
  | missed k => exact hheld
  | closed k => exact hheld.setStatus_ne fun heq => hapart k rfl (heq ▸ hj)
  | reopened k => exact hheld.setStatus_ne fun heq => hapart k rfl (heq ▸ hj)

/-- A worker takes only a key that is open, so one that nobody holds. -/
theorem pair_moves (hcase : Advanced b p b' p') (hq : exclusive.local_ b q)
    (hapart : exclusive.pair b p q) : exclusive.pair b' p' q := by
  intro j hj hheld
  cases hcase with
  | stalled | worked | missed => exact hapart j hj hheld
  | claimed k opened =>
    cases hj
    cases q with
    | idle | released => cases hheld
    | holding | failed | succeeded =>
      cases hheld
      cases opened.symm.trans hq.status
  | refused | closed | reopened => cases hj

theorem exclusive_free :
    Interleaving.InterferenceFree (advance (κ := κ)) (fun _ _ _ => True) exclusive where
  moves x b p _ hs hp := exclusive_moves (advance_cases x b p) hs hp
  keeps x b p q _ hs hp hq hpq hqp := by
    have hcase := advance_cases x b p
    have hapart := pair_moves hcase hq hpq
    exact ⟨local_frame hq (held_frame hcase hpq), hapart, fun k hk hk' => hapart k hk' hk⟩
  spares _ _ _ _ _ _ _ _ _ _ _ _ _ _ hqr := hqr

end Safety

structure Initial (c : Interleaving.Config ι (Board κ) (Phase κ)) : Prop where
  idle : ∀ i, c.proc i = .idle
  nothing : ∀ k, c.shared.successes k = 0

omit [DecidableEq κ] in
theorem Initial.exclusive {c : Interleaving.Config ι (Board κ) (Phase κ)} (h : Initial c) :
    exclusive.Holds c := by
  refine ⟨fun k => .inl (h.nothing k), ?_, ?_⟩
  · intro i
    rw [h.idle i]
    trivial
  · intro i j _ k hk
    rw [h.idle i] at hk
    cases hk

/-- However the workers interleave and wherever they stop, the work on a key succeeds at
most once, and the key is then never open again. -/
theorem succeeds_once [DecidableEq ι] {c : Interleaving.Config ι (Board κ) (Phase κ)}
    (h : Initial c) (schedule : List (ι × Move κ)) (k : κ) :
    (Interleaving.run advance c schedule).shared.successes k = 0 ∨
      (Interleaving.run advance c schedule).shared.successes k = 1 ∧
        (Interleaving.run advance c schedule).shared.status k ≠ .opened := by
  have hrun : exclusive.Holds (Interleaving.run advance c schedule) :=
    exclusive_free.run (fun _ _ => trivial) h.exclusive
  exact hrun.1 k

end ClaimedWork
