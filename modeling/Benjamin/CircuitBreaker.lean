import Benjamin.PyBase
import Benjamin.SerialRun
import Mathlib.Data.List.Induction

/-!
# The circuit breaker of a service

A breaker counts failures while it is closed, admits nothing while it is open and a few
trial requests once its cooldown is over. Outcomes may arrive late: a request admitted
in one state may report in another. Times are microseconds.
-/
namespace CircuitBreaker

open PyBase

inductive BreakerState where
  | closed | open_ | halfOpen
  deriving DecidableEq, Repr

def BreakerState.str : BreakerState → String
  | .closed => "closed"
  | .open_ => "open"
  | .halfOpen => "half_open"

structure Config where
  failureThreshold : Int
  openSeconds : Int
  halfOpenMaxTrials : Int
  deriving DecidableEq, Repr

structure Breaker extends Config where
  service : String
  state : BreakerState
  failureCount : Int
  openedAt : Option Int
  lastFailure : Option Int
  lastError : Option String
  halfOpenTrialsUsed : Int
  deriving DecidableEq, Repr

/-- `CircuitBreaker(service=..., ...)` with the defaults of its other fields. -/
def fresh (service : String) (config : Config) : Breaker :=
  ⟨config, service, .closed, 0, none, none, none, 0⟩

/-- `t + timedelta(seconds=s)`. -/
def addSeconds (t s : Int) : Except PyError Int :=
  if minInstant ≤ t + s * 1000000 ∧ t + s * 1000000 ≤ maxInstant then .ok (t + s * 1000000)
  else .error (deltaOverflow (s / 86400))

namespace Breaker

def elapsed (b : Breaker) (now : Int) : Except PyError Bool :=
  match b.openedAt with
  | none => .ok false
  | some openedAt =>
    match addSeconds openedAt (max 1 b.openSeconds) with
    | .error e => .error e
    | .ok ends => .ok (decide (ends ≤ now))

def tryTrial (b : Breaker) : Bool × Breaker :=
  if max 1 b.halfOpenMaxTrials ≤ b.halfOpenTrialsUsed then (false, b)
  else (true, { b with halfOpenTrialsUsed := b.halfOpenTrialsUsed + 1 })

def halfOpened (b : Breaker) : Breaker := { b with state := .halfOpen, halfOpenTrialsUsed := 0 }

/-- `allow_request`. An exception leaves the breaker as it was. -/
def allowRequest (b : Breaker) (now : Int) : Except PyError (Bool × Breaker) :=
  match b.state with
  | .closed => .ok (true, b)
  | .open_ =>
    match b.elapsed now with
    | .error e => .error e
    | .ok false => .ok (false, b)
    | .ok true => .ok b.halfOpened.tryTrial
  | .halfOpen => .ok b.tryTrial

def transition (before after : BreakerState) : Option (BreakerState × BreakerState) :=
  if before ≠ after then some (before, after) else none

def recordSuccess (b : Breaker) : Breaker × Option (BreakerState × BreakerState) :=
  ({ b with
      failureCount := 0
      lastError := none
      lastFailure := none
      halfOpenTrialsUsed := 0
      state := .closed
      openedAt := none },
    transition b.state .closed)

def reopened (b : Breaker) (now failureCount : Int) : Breaker :=
  { b with state := .open_, openedAt := some now, failureCount, halfOpenTrialsUsed := 0 }

def recordFailure (b : Breaker) (error : String) (now : Int) :
    Breaker × Option (BreakerState × BreakerState) :=
  let noted := { b with lastError := some error, lastFailure := some now }
  if b.state = .halfOpen then
    (noted.reopened now (max b.failureThreshold (b.failureCount + 1)), transition b.state .open_)
  else if max 1 b.failureThreshold ≤ b.failureCount + 1 then
    (noted.reopened now (b.failureCount + 1), transition b.state .open_)
  else ({ noted with failureCount := b.failureCount + 1 }, none)

end Breaker

inductive Event where
  | allow
  | success
  | failure (error : String)
  deriving DecidableEq, Repr

structure Timed where
  now : Int
  event : Event
  deriving DecidableEq, Repr

def apply (b : Breaker) (t : Timed) : Breaker :=
  match t.event with
  | .allow =>
    match b.allowRequest t.now with
    | .ok (_, b') => b'
    | .error _ => b
  | .success => b.recordSuccess.1
  | .failure error => (b.recordFailure error t.now).1

def after (service : String) (config : Config) (ops : List Timed) : Breaker :=
  SerialRun.final apply (fresh service config) ops

def Admitted (b : Breaker) (now : Int) : Prop := ∃ b', b.allowRequest now = .ok (true, b')

def failuresSince (ops : List Timed) : Nat :=
  ops.foldl (fun n t => match t.event with
    | .allow => n
    | .success => 0
    | .failure _ => n + 1) 0

/-- How many of the requests that ask at the given times are admitted. -/
def admissions (b : Breaker) : List Int → Nat
  | [] => 0
  | now :: rest =>
    match b.allowRequest now with
    | .ok (true, b') => admissions b' rest + 1
    | .ok (false, b') => admissions b' rest
    | .error _ => admissions b rest

/-- What `allow_request` does, and when. -/
inductive AllowCase (b : Breaker) (now : Int) : Except PyError (Bool × Breaker) → Prop
  | closed (state : b.state = .closed) : AllowCase b now (.ok (true, b))
  | waiting (state : b.state = .open_)
      (early : ∀ t ends, b.openedAt = some t → addSeconds t (max 1 b.openSeconds) = .ok ends →
        now < ends) : AllowCase b now (.ok (false, b))
  | overflow (e : PyError) (openedAt : Int) (state : b.state = .open_)
      (opened : b.openedAt = some openedAt)
      (unrepresentable : addSeconds openedAt (max 1 b.openSeconds) = .error e) :
      AllowCase b now (.error e)
  | first (openedAt : Int) (state : b.state = .open_) (opened : b.openedAt = some openedAt)
      (elapsed : openedAt + max 1 b.openSeconds * 1000000 ≤ now) :
      AllowCase b now (.ok (true, { b with state := .halfOpen, halfOpenTrialsUsed := 1 }))
  | another (state : b.state = .halfOpen)
      (left : b.halfOpenTrialsUsed < max 1 b.halfOpenMaxTrials) :
      AllowCase b now (.ok (true, { b with halfOpenTrialsUsed := b.halfOpenTrialsUsed + 1 }))
  | used (state : b.state = .halfOpen)
      (none_left : max 1 b.halfOpenMaxTrials ≤ b.halfOpenTrialsUsed) :
      AllowCase b now (.ok (false, b))

theorem addSeconds_ok {t s ends : Int} (h : addSeconds t s = .ok ends) :
    ends = t + s * 1000000 := by
  rw [addSeconds] at h
  split at h
  · cases h
    rfl
  · cases h

theorem tryTrial_halfOpened (b : Breaker) :
    b.halfOpened.tryTrial = (true, { b with state := .halfOpen, halfOpenTrialsUsed := 1 }) := by
  have hfree : ¬ max 1 b.halfOpenMaxTrials ≤ 0 := by omega
  rw [Breaker.tryTrial, Breaker.halfOpened, if_neg hfree]
  rfl

theorem allowRequest_cases (b : Breaker) (now : Int) : AllowCase b now (b.allowRequest now) := by
  rw [Breaker.allowRequest]
  cases hstate : b.state with
  | closed => exact .closed hstate
  | halfOpen =>
    unfold Breaker.tryTrial
    by_cases hused : max 1 b.halfOpenMaxTrials ≤ b.halfOpenTrialsUsed
    · simp only [if_pos hused]
      exact .used hstate hused
    · simp only [if_neg hused]
      exact .another hstate (by omega)
  | open_ =>
    rw [Breaker.elapsed]
    cases hopened : b.openedAt with
    | none => exact .waiting hstate fun t _ ht => by simp [hopened] at ht
    | some openedAt =>
      cases hends : addSeconds openedAt (max 1 b.openSeconds) with
      | error e =>
        simp only [hends]
        exact .overflow e openedAt hstate hopened hends
      | ok ends =>
        have hsum := addSeconds_ok hends
        simp only [hends]
        by_cases helapsed : ends ≤ now
        · simp only [helapsed, decide_true, tryTrial_halfOpened]
          exact .first openedAt hstate hopened (by omega)
        · simp only [helapsed, decide_false]
          refine .waiting hstate fun t ends' ht hends' => ?_
          rw [hopened] at ht
          cases ht
          rw [hends] at hends'
          cases hends'
          omega

theorem allowRequest_service {b b' : Breaker} {now : Int} {allowed : Bool}
    (h : b.allowRequest now = .ok (allowed, b')) : b'.service = b.service := by
  have hcases := allowRequest_cases b now
  rw [h] at hcases
  cases hcases <;> rfl

theorem recordFailure_service (b : Breaker) (error : String) (now : Int) :
    (b.recordFailure error now).1.service = b.service := by
  rw [Breaker.recordFailure]
  split
  · rfl
  · split <;> rfl

/-- What the fields of a breaker mean after the events, in each of its states. -/
structure Tracked (config : Config) (b : Breaker) (ops : List Timed) : Prop where
  configured : b.toConfig = config
  closed : b.state = .closed → b.failureCount = failuresSince ops ∧
    (failuresSince ops : Int) < max 1 config.failureThreshold ∧ b.openedAt = none ∧
    b.halfOpenTrialsUsed = 0
  opened : b.state = .open_ → b.openedAt.isSome ∧ b.halfOpenTrialsUsed = 0
  halfOpen : b.state = .halfOpen → (∃ openedAt, b.openedAt = some openedAt ∧
      ∃ t ∈ ops, openedAt + max 1 config.openSeconds * 1000000 ≤ t.now) ∧
    1 ≤ b.halfOpenTrialsUsed ∧ b.halfOpenTrialsUsed ≤ max 1 config.halfOpenMaxTrials

theorem failuresSince_append (ops : List Timed) (t : Timed) :
    failuresSince (ops ++ [t]) = match t.event with
      | .allow => failuresSince ops
      | .success => 0
      | .failure _ => failuresSince ops + 1 := by
  rw [failuresSince, List.foldl_append]
  rfl

theorem fresh_tracked (service : String) (config : Config) :
    Tracked config (fresh service config) [] := by
  constructor
  · rfl
  · intro _
    refine ⟨rfl, ?_, rfl, rfl⟩
    have hpositive : (0 : Int) < max 1 config.failureThreshold := by omega
    exact hpositive
  · intro h
    cases h
  · intro h
    cases h

section Steps

variable {config : Config} {b : Breaker} {ops : List Timed} {now : Int}

theorem mem_extended {bound : Int} (t : Timed) (h : ∃ s ∈ ops, bound ≤ s.now) :
    ∃ s ∈ ops ++ [t], bound ≤ s.now := by
  obtain ⟨s, hs, hbound⟩ := h
  exact ⟨s, List.mem_append_left _ hs, hbound⟩

theorem Tracked.asked (h : Tracked config b ops) : Tracked config b (ops ++ [⟨now, .allow⟩]) := by
  constructor
  · exact h.configured
  · rw [failuresSince_append]
    exact h.closed
  · exact h.opened
  · intro hstate
    obtain ⟨⟨openedAt, hopened, hcooled⟩, htrials⟩ := h.halfOpen hstate
    exact ⟨⟨openedAt, hopened, mem_extended _ hcooled⟩, htrials⟩

theorem Tracked.allowed (h : Tracked config b ops) {admitted : Bool} {b' : Breaker}
    (hallow : b.allowRequest now = .ok (admitted, b')) :
    Tracked config b' (ops ++ [⟨now, .allow⟩]) := by
  have hcases := allowRequest_cases b now
  rw [hallow] at hcases
  cases hcases with
  | closed state => exact h.asked
  | waiting state early => exact h.asked
  | used state none_left => exact h.asked
  | first openedAt state opened elapsed =>
    have hcooldown : b.openSeconds = config.openSeconds := congrArg Config.openSeconds h.configured
    rw [hcooldown] at elapsed
    constructor
    · exact h.configured
    · intro hstate
      cases hstate
    · intro hstate
      cases hstate
    · intro _
      refine ⟨⟨openedAt, opened, ⟨now, .allow⟩, by simp, elapsed⟩, le_refl _, ?_⟩
      have hone : (1 : Int) ≤ max 1 config.halfOpenMaxTrials := by omega
      exact hone
  | another state left =>
    have hlimit : b.halfOpenMaxTrials = config.halfOpenMaxTrials :=
      congrArg Config.halfOpenMaxTrials h.configured
    rw [hlimit] at left
    obtain ⟨⟨openedAt, hopened, hcooled⟩, hpositive, _⟩ := h.halfOpen state
    have hnotClosed : b.state ≠ .closed := by simp [state]
    have hnotOpen : b.state ≠ .open_ := by simp [state]
    constructor
    · exact h.configured
    · exact fun hstate => absurd hstate hnotClosed
    · exact fun hstate => absurd hstate hnotOpen
    · intro _
      refine ⟨⟨openedAt, hopened, mem_extended _ hcooled⟩, ?_, ?_⟩
      · have hmore : 1 ≤ b.halfOpenTrialsUsed + 1 := by omega
        exact hmore
      · have hroom : b.halfOpenTrialsUsed + 1 ≤ max 1 config.halfOpenMaxTrials := by omega
        exact hroom

theorem Tracked.succeeded (h : Tracked config b ops) :
    Tracked config b.recordSuccess.1 (ops ++ [⟨now, .success⟩]) := by
  constructor
  · exact h.configured
  · intro _
    rw [failuresSince_append]
    refine ⟨rfl, ?_, rfl, rfl⟩
    have hpositive : (0 : Int) < max 1 config.failureThreshold := by omega
    exact hpositive
  · intro hstate
    cases hstate
  · intro hstate
    cases hstate

theorem tracked_reopened {opening : Breaker} {failureCount : Int}
    (hconfig : opening.toConfig = config) (ops : List Timed) :
    Tracked config (opening.reopened now failureCount) ops := by
  constructor
  · exact hconfig
  · intro hstate
    cases hstate
  · exact fun _ => ⟨rfl, rfl⟩
  · intro hstate
    cases hstate

/-- An open breaker stays open after a failure, and a closed one opens at the threshold. -/
theorem Tracked.failed (h : Tracked config b ops) (error : String) :
    Tracked config (b.recordFailure error now).1 (ops ++ [⟨now, .failure error⟩]) := by
  have hthreshold : b.failureThreshold = config.failureThreshold :=
    congrArg Config.failureThreshold h.configured
  rw [Breaker.recordFailure]
  by_cases htrial : b.state = .halfOpen
  · rw [if_pos htrial]
    refine tracked_reopened ?_ _
    exact h.configured
  · rw [if_neg htrial]
    by_cases hreached : max 1 b.failureThreshold ≤ b.failureCount + 1
    · rw [if_pos hreached]
      refine tracked_reopened ?_ _
      exact h.configured
    · rw [if_neg hreached, hthreshold] at *
      constructor
      · exact h.configured
      · intro hstate
        obtain ⟨hcount, _, hopened, htrials⟩ := h.closed hstate
        rw [failuresSince_append]
        refine ⟨?_, ?_, hopened, htrials⟩
        · change b.failureCount + 1 = ((failuresSince ops + 1 : Nat) : Int)
          omega
        · change ((failuresSince ops + 1 : Nat) : Int) < max 1 config.failureThreshold
          omega
      · exact h.opened
      · exact fun hstate => absurd hstate htrial

theorem Tracked.apply (h : Tracked config b ops) (t : Timed) :
    Tracked config (apply b t) (ops ++ [t]) := by
  obtain ⟨now, event⟩ := t
  rw [CircuitBreaker.apply]
  cases event with
  | allow =>
    dsimp only
    cases hallow : b.allowRequest now with
    | ok answer => exact h.allowed hallow
    | error e => exact h.asked
  | success => exact h.succeeded
  | failure error => exact h.failed error

/-- Between two outcomes an open breaker admits no more than its trials. -/
theorem admissions_le (times : List Int) (hstate : b.state ≠ .closed)
    (htrials : b.state = .halfOpen → b.halfOpenTrialsUsed ≤ max 1 b.halfOpenMaxTrials) :
    (admissions b times : Int) + (if b.state = .halfOpen then b.halfOpenTrialsUsed else 0) ≤
      max 1 b.halfOpenMaxTrials := by
  induction times generalizing b with
  | nil =>
    by_cases hhalf : b.state = .halfOpen
    · have hused := htrials hhalf
      simp only [admissions, if_pos hhalf]
      omega
    · simp only [admissions, if_neg hhalf]
      omega
  | cons now rest ih =>
    have hcases := allowRequest_cases b now
    rw [admissions]
    cases hallow : b.allowRequest now with
    | error e => exact ih hstate htrials
    | ok answer =>
      rw [hallow] at hcases
      cases hcases with
      | closed state => exact absurd state hstate
      | waiting state early => exact ih hstate htrials
      | used state none_left => exact ih hstate htrials
      | first openedAt state opened elapsed =>
        have hrest := @ih { b with state := .halfOpen, halfOpenTrialsUsed := 1 } (by simp)
          (fun _ => by dsimp only; omega)
        simp only [if_pos] at hrest
        simp only [state, reduceCtorEq, if_false]
        omega
      | another state left =>
        have hrest := @ih { b with halfOpenTrialsUsed := b.halfOpenTrialsUsed + 1 } hstate
          (fun _ => by dsimp only; omega)
        simp only [if_pos state] at hrest
        simp only [if_pos state]
        omega

end Steps

theorem after_append (service : String) (config : Config) (ops : List Timed) (t : Timed) :
    after service config (ops ++ [t]) = apply (after service config ops) t := by
  rw [after, SerialRun.final_append]
  rfl

theorem after_tracked (service : String) (config : Config) (ops : List Timed) :
    Tracked config (after service config ops) ops := by
  induction ops using List.reverseRecOn with
  | nil => exact fresh_tracked service config
  | append_singleton ops t ih =>
    rw [after_append]
    exact ih.apply t

theorem leaves_closed_iff {config : Config} {b : Breaker} {ops : List Timed}
    (h : Tracked config b ops) (hclosed : b.state = .closed) (t : Timed) :
    (apply b t).state ≠ .closed ↔
      (failuresSince (ops ++ [t]) : Int) = max 1 config.failureThreshold := by
  obtain ⟨hcount, hbelow, _⟩ := h.closed hclosed
  have hthreshold : b.failureThreshold = config.failureThreshold :=
    congrArg Config.failureThreshold h.configured
  obtain ⟨now, event⟩ := t
  rw [failuresSince_append]
  cases event with
  | allow =>
    have hsame : apply b ⟨now, .allow⟩ = b := by
      simp only [apply, Breaker.allowRequest, hclosed]
    dsimp only
    rw [hsame]
    constructor
    · exact fun hstate => absurd hclosed hstate
    · intro hreached
      omega
  | success =>
    dsimp only
    constructor
    · exact fun hstate => absurd rfl hstate
    · intro hreached
      omega
  | failure error =>
    dsimp only
    have hnotHalf : ¬ b.state = .halfOpen := by simp [hclosed]
    unfold apply Breaker.recordFailure
    simp only [if_neg hnotHalf, hthreshold]
    by_cases hreached : max 1 config.failureThreshold ≤ b.failureCount + 1
    · simp only [if_pos hreached]
      constructor
      · intro _
        omega
      · exact fun _ => by simp [Breaker.reopened]
    · simp only [if_neg hreached]
      constructor
      · exact fun hstate => absurd hclosed hstate
      · intro _
        omega

theorem admission (service : String) (config : Config) (ops : List Timed) :
    let b := after service config ops
    Tracked config b ops ∧
      (b.state = .closed → ∀ t, (apply b t).state ≠ .closed ↔
        (failuresSince (ops ++ [t]) : Int) = max 1 config.failureThreshold) ∧
      (b.state ≠ .closed → ∀ now, (∀ t ∈ ops, t.now ≤ now) → Admitted b now →
        ∃ openedAt, b.openedAt = some openedAt ∧
          openedAt + max 1 config.openSeconds * 1000000 ≤ now) ∧
      (b.state ≠ .closed →
        ∀ times, (admissions b times : Int) ≤ max 1 config.halfOpenMaxTrials) := by
  intro b
  have htracked : Tracked config b ops := after_tracked service config ops
  have hlimit : b.halfOpenMaxTrials = config.halfOpenMaxTrials :=
    congrArg Config.halfOpenMaxTrials htracked.configured
  have hcooldown : b.openSeconds = config.openSeconds :=
    congrArg Config.openSeconds htracked.configured
  refine ⟨htracked, ?_, ?_, ?_⟩
  · intro hclosed t
    exact leaves_closed_iff htracked hclosed t
  · rintro hstate now hnow ⟨b', hadmitted⟩
    have hcases := allowRequest_cases b now
    rw [hadmitted] at hcases
    cases hcases with
    | closed state => exact absurd state hstate
    | first openedAt state opened elapsed =>
      rw [hcooldown] at elapsed
      exact ⟨openedAt, opened, elapsed⟩
    | another state left =>
      obtain ⟨⟨openedAt, hopened, t, ht, hcooled⟩, _⟩ := htracked.halfOpen state
      have hlater := hnow t ht
      exact ⟨openedAt, hopened, by omega⟩
  · intro hstate times
    have hadmitted := admissions_le times hstate fun hhalf => by
      rw [hlimit]
      exact (htracked.halfOpen hhalf).2.2
    rw [hlimit] at hadmitted
    by_cases hhalf : b.state = .halfOpen
    · have hpositive := (htracked.halfOpen hhalf).2.1
      rw [if_pos hhalf] at hadmitted
      omega
    · rw [if_neg hhalf] at hadmitted
      omega

def threeFailures : List Timed :=
  [⟨0, .failure "e"⟩, ⟨1000000, .failure "e"⟩, ⟨2000000, .failure "e"⟩]

theorem admission_after_failures :
    ∃ openedAt, (after "llm" ⟨3, 60, 1⟩ threeFailures).openedAt = some openedAt ∧
      openedAt + max 1 60 * 1000000 ≤ 62000000 :=
  (admission "llm" ⟨3, 60, 1⟩ threeFailures).2.2.1 (by decide) 62000000 (by decide) ⟨_, rfl⟩

end CircuitBreaker
