import Benjamin.AssistantState
import Benjamin.BreakerManager
import Benjamin.IsoReading
import Benjamin.PyJson

/-!
# A breaker across restarts

What `to_dict` writes of a breaker and what `from_dict` reads of any payload. A breaker
that is replaced by the one read from its own payload, at any points of a run, shows
the same answers, transitions and payloads as one that is not.
-/
namespace BreakerRestart

open PyBase CircuitBreaker BreakerManager IsoReading AssistantState

/-- `int()` of a text and of a float. -/
structure Conversions extends Libraries where
  intOfStr : String → Except PyError Int
  intOfFloat : String → Except PyError Int

def notANumber (type : String) : PyError :=
  .typeError ("int() argument must be a string, a bytes-like object or a real number, not '" ++
    type ++ "'")

/-- `int(value)`. -/
def pyInt (lib : Conversions) : Json → Except PyError Int
  | .null => .error (notANumber "NoneType")
  | .bool b => .ok (if b then 1 else 0)
  | .int n => .ok n
  | .float repr => lib.intOfFloat repr
  | .str s => lib.intOfStr s
  | .arr _ => .error (notANumber "list")
  | .obj _ => .error (notANumber "dict")

/-- `_parse_iso`. The conversion to UTC raises at the ends of the calendar. -/
def readIso (lib : Conversions) : Option String → Except PyError (Option Int)
  | none => .ok none
  | some value =>
    if value = "" then .ok none
    else match lib.fromisoformat value with
      | none => .ok none
      | some (.naive wall) => .ok (some wall)
      | some (.aware utc) => (toUtc utc).map some

def orNull {α : Type} (json : α → Json) : Option α → Json
  | some a => json a
  | none => .null

/-- `to_dict`. -/
def toDict (b : Breaker) : Dict :=
  [("state", .str b.state.str),
    ("failure_count", .int b.failureCount),
    ("opened_at_iso", orNull (fun t => .str (isoformat t)) b.openedAt),
    ("last_failure_iso", orNull (fun t => .str (isoformat t)) b.lastFailure),
    ("last_error", orNull .str b.lastError),
    ("half_open_trials_used", .int b.halfOpenTrialsUsed)]

/-- `str(payload.get("state") or "closed")`. -/
def stateText (lib : Conversions) (payload : Dict) : String :=
  let value := payload.lookup "state"
  if value.isTruthy then pyStr lib.toRuntime value else "closed"

/-- `int(payload.get(key) or 0)`. -/
def readCount (lib : Conversions) (payload : Dict) (key : String) : Except PyError Int :=
  let value := payload.lookup key
  pyInt lib (if value.isTruthy then value else .int 0)

/-- `str(payload.get("last_error"))`, unless it is `None`. -/
def readError (lib : Conversions) (payload : Dict) : Option String :=
  match payload.lookup "last_error" with
  | .null => none
  | value => some (pyStr lib.toRuntime value)

/-- `from_dict`. -/
def fromDict (lib : Conversions) (service : String) (config : Config) (payload : Dict) :
    Except PyError Breaker := do
  let failureCount ← readCount lib payload "failure_count"
  let openedAt ← readIso lib (payload.lookup "opened_at_iso").asStr
  let lastFailure ← readIso lib (payload.lookup "last_failure_iso").asStr
  let halfOpenTrialsUsed ← readCount lib payload "half_open_trials_used"
  return { config with
    service
    state := parseState (stateText lib payload)
    failureCount
    openedAt
    lastFailure
    lastError := readError lib payload
    halfOpenTrialsUsed }

inductive Reply where
  | allowed (answer : Except PyError Bool)
  | moved (transition : Option (BreakerState × BreakerState))

structure Observation where
  reply : Reply
  snapshot : Dict

def reply (b : Breaker) (t : Timed) : Reply :=
  match t.event with
  | .allow => .allowed ((b.allowRequest t.now).map Prod.fst)
  | .success => .moved b.recordSuccess.2
  | .failure error => .moved (b.recordFailure error t.now).2

def observe (b : Breaker) (t : Timed) : Observation × Breaker :=
  (⟨reply b t, toDict (apply b t)⟩, apply b t)

def reload (lib : Conversions) (b : Breaker) : Except PyError Breaker :=
  fromDict lib b.service b.toConfig (toDict b)

structure Dated (b : Breaker) : Prop where
  opened : ∀ t, b.openedAt = some t → InRange t
  failed : ∀ t, b.lastFailure = some t → InRange t

theorem fresh_dated (service : String) (config : Config) : Dated (fresh service config) :=
  ⟨nofun, nofun⟩

section Steps

variable {b : Breaker} {now : Int}

theorem Dated.allowed (h : Dated b) {admitted : Bool} {b' : Breaker}
    (hallow : b.allowRequest now = .ok (admitted, b')) : Dated b' := by
  have hcases := allowRequest_cases b now
  rw [hallow] at hcases
  cases hcases <;> exact ⟨h.opened, h.failed⟩

theorem recordSuccess_dated (b : Breaker) : Dated b.recordSuccess.1 := ⟨nofun, nofun⟩

theorem dated_reopened {noted : Breaker} {failureCount : Int} (hnow : InRange now)
    (hfailed : noted.lastFailure = some now) : Dated (noted.reopened now failureCount) := by
  constructor
  · intro t ht
    cases ht
    exact hnow
  · intro t ht
    cases hfailed.symm.trans ht
    exact hnow

theorem Dated.failure (h : Dated b) (hnow : InRange now) (error : String) :
    Dated (b.recordFailure error now).1 := by
  rw [Breaker.recordFailure]
  split
  · exact dated_reopened hnow rfl
  · split
    · exact dated_reopened hnow rfl
    · refine ⟨h.opened, fun t ht => ?_⟩
      cases ht
      exact hnow

theorem Dated.apply (h : Dated b) {t : Timed} (hnow : InRange t.now) : Dated (apply b t) := by
  obtain ⟨now, event⟩ := t
  rw [CircuitBreaker.apply]
  cases event with
  | allow =>
    dsimp only
    cases hallow : b.allowRequest now with
    | ok answer => exact h.allowed hallow
    | error e => exact h
  | success => exact recordSuccess_dated b
  | failure error => exact h.failure hnow error

end Steps

theorem after_dated (service : String) (config : Config) {ops : List Timed}
    (hops : ∀ t ∈ ops, InRange t.now) : Dated (after service config ops) := by
  induction ops using List.reverseRecOn with
  | nil => exact fresh_dated service config
  | append_singleton ops t ih =>
    rw [after_append]
    exact (ih fun s hs => hops s (List.mem_append_left _ hs)).apply (hops t (by simp))

section Reading

variable {lib : Conversions}

theorem readIso_isoformat (hread : ReadsTimestamps lib.toRuntime) {time : Option Int}
    (h : ∀ t, time = some t → InRange t) :
    readIso lib (orNull (fun t => .str (isoformat t)) time).asStr = .ok time := by
  cases time with
  | none => rfl
  | some t =>
    have hrange := h t rfl
    have hread' := hread t hrange
    simp only [orNull, Json.asStr, readIso, if_neg (isoformat_ne_empty t), hread', toUtc_eq,
      if_pos hrange, Except.map]

theorem readCount_int {payload : Dict} {key : String} {n : Int}
    (h : payload.lookup key = .int n) : readCount lib payload key = .ok n := by
  rw [readCount, h]
  by_cases hzero : n = 0
  · simp [Json.isTruthy, pyInt, hzero]
  · simp [Json.isTruthy, pyInt, hzero]

theorem stateText_toDict (b : Breaker) : stateText lib (toDict b) = b.state.str := by
  have hne : b.state.str ≠ "" := by cases b.state <;> decide
  simp [stateText, toDict, Dict.lookup, Json.isTruthy, hne, pyStr]

theorem readError_toDict (b : Breaker) : readError lib (toDict b) = b.lastError := by
  cases h : b.lastError with
  | none => simp [readError, toDict, Dict.lookup, h, orNull]
  | some error => simp [readError, toDict, Dict.lookup, h, orNull, pyStr]

theorem reload_dated (hread : ReadsTimestamps lib.toRuntime) {b : Breaker} (h : Dated b) :
    reload lib b = .ok b := by
  have hcount : readCount lib (toDict b) "failure_count" = .ok b.failureCount := readCount_int rfl
  have htrials : readCount lib (toDict b) "half_open_trials_used" = .ok b.halfOpenTrialsUsed :=
    readCount_int rfl
  have hopened : readIso lib ((toDict b).lookup "opened_at_iso").asStr = .ok b.openedAt :=
    readIso_isoformat hread h.opened
  have hfailed : readIso lib ((toDict b).lookup "last_failure_iso").asStr = .ok b.lastFailure :=
    readIso_isoformat hread h.failed
  rw [reload, fromDict]
  rw [hcount, hopened, hfailed, htrials, stateText_toDict, readError_toDict, parseState_str]
  rfl

end Reading

/-- A breaker is reloaded as it is, and no restarts of it are seen in what follows. -/
theorem restarts_unseen {lib : Conversions} (hread : ReadsTimestamps lib.toRuntime)
    (service : String) (config : Config) {before : List Timed}
    (hbefore : ∀ t ∈ before, InRange t.now)
    {later : List (Bool × Timed)} (hlater : ∀ op ∈ later, InRange op.2.now) :
    let b := after service config before
    reload lib b = .ok b ∧
      SerialRun.reloadedObservations observe (reload lib) b later =
        .ok (SerialRun.observations observe b (later.map Prod.snd)) := by
  intro b
  have hdated : Dated b := after_dated service config hbefore
  have hstep : ∀ b t, InRange t.now → Dated b → Dated (observe b t).2 :=
    fun _ _ hnow hb => hb.apply hnow
  exact ⟨reload_dated hread hdated,
    SerialRun.reloadedObservations_eq (fun _ hb => reload_dated hread hb) hstep hdated hlater⟩

def readDigits (s : String) : Option Int :=
  if s ≠ "" ∧ s.toList.all Char.isDigit then
    some (s.toList.foldl (fun n c => n * 10 + (c.toNat - 48)) 0)
  else none

def plainConversions : Conversions where
  toRuntime := { exampleRuntime (fun _ => .returned "") fun _ => none with
    fromisoformat := fromIsoformat }
  loadsRaises := fun _ => none
  zoneInfo := fun _ => .notFound
  intOfStr := fun s => match readDigits s with
    | some n => .ok n
    | none => .error (.valueError ("invalid literal for int() with base 10: '" ++ s ++ "'"))
  intOfFloat := fun _ => .error (.overflowError "cannot convert float infinity to integer")

theorem plainConversions_reads : ReadsTimestamps plainConversions.toRuntime := by
  intro t h
  have hruntime : plainConversions.fromisoformat = fromIsoformat := rfl
  rw [hruntime]
  exact fromIsoformat_isoformat h

def failedOnce : List Timed := [⟨0, .failure "down"⟩, ⟨60000000, .allow⟩]

def refusedThenClosed : List (Bool × Timed) :=
  [(true, ⟨61000000, .allow⟩), (true, ⟨62000000, .success⟩)]

/-- A half-open breaker is restarted with its only trial used. -/
theorem halfOpen_restart_unseen :
    (after "llm" ⟨1, 60, 1⟩ failedOnce).state = .halfOpen ∧
      reload plainConversions (after "llm" ⟨1, 60, 1⟩ failedOnce) =
        .ok (after "llm" ⟨1, 60, 1⟩ failedOnce) ∧
      SerialRun.reloadedObservations observe (reload plainConversions)
          (after "llm" ⟨1, 60, 1⟩ failedOnce) refusedThenClosed =
        .ok (SerialRun.observations observe (after "llm" ⟨1, 60, 1⟩ failedOnce)
          (refusedThenClosed.map Prod.snd)) := by
  have hstate : (after "llm" ⟨1, 60, 1⟩ failedOnce).state = .halfOpen := by decide
  have hbefore : ∀ t ∈ failedOnce, InRange t.now := by decide
  have hlater : ∀ op ∈ refusedThenClosed, InRange op.2.now := by decide
  have hunseen := restarts_unseen plainConversions_reads "llm" ⟨1, 60, 1⟩ hbefore hlater
  exact ⟨hstate, hunseen⟩

end BreakerRestart
