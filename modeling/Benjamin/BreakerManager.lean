import Benjamin.CircuitBreaker
import Benjamin.KeyedList
import Benjamin.PlanSchemas

/-!
# The breaker manager and its file

A manager loads the breakers of all services once and saves all of them after every
request. `breakers.json` is kept as the value that its text stands for; the infra
episodes that a manager adds are left out.
-/
namespace BreakerManager

open PyBase PlanSchemas CircuitBreaker

/-- What `to_dict` writes of a breaker. -/
structure Entry where
  state : String
  failureCount : Int
  openedAtIso : Option String
  lastFailureIso : Option String
  lastError : Option String
  halfOpenTrialsUsed : Int
  deriving DecidableEq, Repr

abbrev File := List (String × Entry)

def toEntry (b : Breaker) : Entry :=
  ⟨b.state.str, b.failureCount, b.openedAt.map isoformat, b.lastFailure.map isoformat, b.lastError,
    b.halfOpenTrialsUsed⟩

/-- A naive time is read as UTC. -/
def parseIso (rt : Runtime) (value : Option String) : Option Int :=
  (truthy value).bind fun s => (rt.fromisoformat s).map Datetime.ticks

/-- Any other state than the three is taken for `closed`. -/
def parseState (s : String) : BreakerState :=
  if s = "open" then .open_ else if s = "half_open" then .halfOpen else .closed

/-- `from_dict`. -/
def fromEntry (rt : Runtime) (service : String) (config : Config) (e : Entry) : Breaker :=
  { config with
    service
    state := parseState e.state
    failureCount := e.failureCount
    openedAt := parseIso rt e.openedAtIso
    lastFailure := parseIso rt e.lastFailureIso
    lastError := e.lastError
    halfOpenTrialsUsed := e.halfOpenTrialsUsed }

def initialEntry : Entry := ⟨"closed", 0, none, none, none, 0⟩

/-- `load().get(service, {})`. -/
def loadedEntry (file : File) (service : String) : Entry :=
  ((KeyedList.get Prod.fst file service).map Prod.snd).getD initialEntry

def services : List String := ["llm", "gmail", "calendar"]

structure Settings where
  enabled : Bool
  failureThreshold : Int
  openSeconds : Int
  halfOpenMaxTrials : Int

def Settings.config (s : Settings) : Config :=
  ⟨max 1 s.failureThreshold, max 1 s.openSeconds, max 1 s.halfOpenMaxTrials⟩

structure Manager where
  enabled : Bool
  config : Config
  breakers : List Breaker

namespace Manager

/-- `BreakerManager(state_dir)`. -/
def build (rt : Runtime) (s : Settings) (file : File) : Manager :=
  ⟨s.enabled, s.config,
    services.map fun service => fromEntry rt service s.config (loadedEntry file service)⟩

/-- `get`; a service that is not known yet has a fresh breaker. -/
def get (m : Manager) (service : String) : Breaker :=
  (KeyedList.get Breaker.service m.breakers service).getD (fresh service m.config)

def put (m : Manager) (b : Breaker) : Manager :=
  { m with breakers := KeyedList.upsert Breaker.service b m.breakers }

def snapshot (m : Manager) : File := m.breakers.map fun b => (b.service, toEntry b)

/-- The request of `wrap` up to the call of `fn`. -/
def ask (m : Manager) (service : String) (now : Int) : Except PyError (Bool × Manager) :=
  match (m.get service).allowRequest now with
  | .error e => .error e
  | .ok (allowed, b) => .ok (allowed, m.put b)

/-- The outcome of `fn` is recorded. -/
def conclude (m : Manager) (service : String) (outcome : Except PyError Unit) (now : Int) :
    Manager :=
  match outcome with
  | .ok _ => m.put (m.get service).recordSuccess.1
  | .error e => m.put ((m.get service).recordFailure e.str now).1

/-- `wrap`, where `fn` ends at the second time with the given outcome. -/
def wrap (m : Manager) (file : File) (service : String) (now : Int) (outcome : Except PyError Unit)
    (later : Int) : Except PyError Unit × Manager × File :=
  if !m.enabled then (outcome, m, file)
  else
    match m.ask service now with
    | .error e => (.error e, m, file)
    | .ok (false, m₁) =>
      (.error (.serviceDegraded service (m₁.get service).lastError), m₁, m₁.snapshot)
    | .ok (true, m₁) =>
      let m₂ := m₁.conclude service outcome later
      (outcome, m₂, m₂.snapshot)

end Manager

theorem get_service (m : Manager) (service : String) : (m.get service).service = service := by
  rw [Manager.get]
  cases h : KeyedList.get Breaker.service m.breakers service with
  | none => rfl
  | some b => exact KeyedList.get_key h

theorem get_put_self (m : Manager) {b : Breaker} {service : String} (h : b.service = service) :
    (m.put b).get service = b := by
  subst h
  rw [Manager.get, Manager.put, KeyedList.get_upsert_self]
  rfl

theorem get_put_ne (m : Manager) {b : Breaker} {service : String} (h : b.service ≠ service) :
    (m.put b).get service = m.get service := by
  unfold Manager.get Manager.put
  rw [KeyedList.get_upsert_ne h]

theorem get_loaded {f : String → Breaker} (hf : ∀ service, (f service).service = service)
    (names : List String) (service : String) :
    KeyedList.get Breaker.service (names.map f) service =
      if service ∈ names then some (f service) else none := by
  induction names with
  | nil => simp
  | cons name rest ih =>
    rw [List.map_cons, KeyedList.get_cons, hf, ih]
    by_cases hname : name = service
    · subst hname
      simp
    · have hne : service ≠ name := Ne.symm hname
      simp [hname, hne]

theorem get_build (rt : Runtime) (settings : Settings) (file : File) (service : String) :
    (Manager.build rt settings file).get service =
      if service ∈ services then fromEntry rt service settings.config (loadedEntry file service)
      else fresh service settings.config := by
  rw [Manager.get, Manager.build, get_loaded fun _ => rfl]
  split <;> rfl

theorem loadedEntry_snapshot (m : Manager) (service : String) :
    loadedEntry m.snapshot service = toEntry (m.get service) := by
  have hfind : KeyedList.get Prod.fst m.snapshot service =
      (KeyedList.get Breaker.service m.breakers service).map fun b => (b.service, toEntry b) := by
    rw [KeyedList.get, Manager.snapshot, List.find?_map]
    rfl
  rw [loadedEntry, Manager.get, hfind]
  cases KeyedList.get Breaker.service m.breakers service with
  | none => rfl
  | some b => rfl

def Parses (rt : Runtime) (t : Int) : Prop := rt.fromisoformat (isoformat t) = some (.aware t)

instance (rt : Runtime) (t : Int) : Decidable (Parses rt t) := inferInstanceAs (Decidable (_ = _))

theorem isoformat_ne_empty (t : Int) : isoformat t ≠ "" := by
  rw [isoformat]
  simp

theorem parseIso_isoformat {rt : Runtime} {t : Int} (h : Parses rt t) :
    parseIso rt (some (isoformat t)) = some t := by
  have htruthy : truthy (some (isoformat t)) = some (isoformat t) := by
    simp [truthy, Option.filter, isoformat_ne_empty]
  rw [parseIso, htruthy, Option.bind_some, h]
  rfl

theorem parseState_str (s : BreakerState) : parseState s.str = s := by
  cases s <;> rfl

theorem parseIso_map {rt : Runtime} {time : Option Int} (h : ∀ t, time = some t → Parses rt t) :
    parseIso rt (time.map isoformat) = time := by
  cases time with
  | none => rfl
  | some t => exact parseIso_isoformat (h t rfl)

def reconfigured (b : Breaker) (config : Config) : Breaker := { b with toConfig := config }

/-- A breaker whose times read back is loaded as it was saved, but for its configuration. -/
theorem fromEntry_toEntry {rt : Runtime} {b : Breaker} {service : String} (config : Config)
    (hservice : b.service = service) (hopened : ∀ t, b.openedAt = some t → Parses rt t)
    (hfailed : ∀ t, b.lastFailure = some t → Parses rt t) :
    fromEntry rt service config (toEntry b) = reconfigured b config := by
  subst hservice
  rw [fromEntry, toEntry, reconfigured]
  simp only [parseState_str, parseIso_map hopened, parseIso_map hfailed]

/-- A new manager has the states of the file, where these survive being loaded and saved
and the file has no other services. -/
theorem build_loads {rt : Runtime} {settings : Settings} {file : File}
    (hsurvive : ∀ service ∈ services, toEntry (fromEntry rt service settings.config
      (loadedEntry file service)) = loadedEntry file service)
    (hothers : ∀ p ∈ file, p.1 ∈ services) (service : String) :
    toEntry ((Manager.build rt settings file).get service) = loadedEntry file service := by
  rw [get_build]
  by_cases hservice : service ∈ services
  · rw [if_pos hservice]
    exact hsurvive service hservice
  · have habsent : KeyedList.get Prod.fst file service = none := by
      rw [KeyedList.get_none_iff]
      rintro p hp rfl
      exact hservice (hothers p hp)
    rw [if_neg hservice, loadedEntry, habsent]
    rfl

end BreakerManager
