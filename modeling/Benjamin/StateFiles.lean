import Benjamin.BreakerRestart
import Benjamin.PolicyOverrides

/-!
# The state files that are one document

How `breakers.json`, `safe_mode.json`, `policy_overrides.json` and `maintenance.json` are
loaded. A file is absent or has a text; what is no JSON is read as an empty document.
-/
namespace StateFiles

open PyBase CircuitBreaker BreakerManager BreakerRestart SecurityPolicy PolicyOverrides

/-- The document of a file, `none` where there is none or `json.loads` cannot decode it. -/
def readDocument (lib : Libraries) : Option String → Except PyError (Option Json)
  | none => .ok none
  | some text => jsonLoads lib text

/-- Whatever is no dict is taken for an empty one. -/
def dictOf : Option Json → Dict
  | some (.obj d) => d
  | _ => []

def dictItem : String × Json → Option (String × Dict)
  | (key, .obj value) => some (key, value)
  | _ => none

/-- `BreakerStore.load`. -/
def loadBreakers (lib : Libraries) (file : Option String) :
    Except PyError (List (String × Dict)) :=
  (readDocument lib file).map fun document => (dictOf document).filterMap dictItem

/-- `loaded.get(service, {})`. -/
def payloadOf (loaded : List (String × Dict)) (service : String) : Dict :=
  ((KeyedList.get Prod.fst loaded service).map Prod.snd).getD []

def readAll (lib : Conversions) (config : Config) (loaded : List (String × Dict)) :
    List String → Except PyError (List Breaker)
  | [] => .ok []
  | service :: rest =>
    match fromDict lib service config (payloadOf loaded service) with
    | .error e => .error e
    | .ok b => (readAll lib config loaded rest).map (b :: ·)

/-- `BreakerManager(state_dir)`. -/
def buildManager (lib : Conversions) (s : Settings) (file : Option String) :
    Except PyError Manager :=
  match loadBreakers lib.toLibraries file with
  | .error e => .error e
  | .ok loaded => (readAll lib s.config loaded services).map fun breakers =>
    ⟨s.enabled, s.config, breakers⟩

/-- `_env_forced_on`. -/
def envForcedOn (lib : Libraries) (safeMode : Option String) : Bool :=
  decide (lib.casefold (strip (safeMode.getD "off")) = "on")

/-- `is_safe_mode_enabled`. -/
def isSafeModeEnabled (lib : Libraries) (safeMode file : Option String) : Except PyError Bool :=
  if envForcedOn lib safeMode then .ok true
  else match readDocument lib file with
    | .error e => .error e
    | .ok none => .ok false
    | .ok (some (.obj payload)) => .ok (Dict.lookup payload "enabled").isTruthy
    | .ok (some _) => .error noAttribute

def scopeList : Json → Option (List String)
  | .arr items => some (items.filterMap Json.asStr)
  | _ => none

def overridesOf (document : Option Json) : Overrides :=
  ⟨scopeList ((dictOf document).lookup "scopes_enabled"),
    scopeList ((dictOf document).lookup "rules_allowed_scopes")⟩

/-- `PermissionsPolicy()`, which opens the file only where overrides are enabled. -/
def loadPolicy (lib : Libraries) (env : PolicyEnv) (file : Option String) :
    Except PyError PermissionsPolicy :=
  if env.overridesEnabled lib.toRuntime then
    (readDocument lib file).map fun document =>
      buildPolicy lib.toRuntime env (overridesOf document)
  else .ok (buildPolicy lib.toRuntime env ⟨none, none⟩)

/-- `_default_job_status`. -/
def defaultJobStatus : Dict :=
  [("last_run_iso", .null), ("ok", .null), ("summary", .obj []), ("details", .obj []),
    ("correlation_id", .null)]

def jobNames : List String := ["doctor_validate", "weekly_compact"]

/-- `{**status[key], **value}` for a dict, else the default. -/
def jobStatus (document : Option Json) (job : String) : Dict :=
  match (dictOf document).lookup job with
  | .obj value => Dict.update defaultJobStatus value
  | _ => defaultJobStatus

/-- `load_maintenance_status`. -/
def loadMaintenanceStatus (lib : Libraries) (file : Option String) :
    Except PyError (List (String × Dict)) :=
  (readDocument lib file).map fun document => jobNames.map fun job => (job, jobStatus document job)

/-- The document as `json.loads` gives it, whether or not a loader gets to see it. -/
def documentOf (lib : Libraries) (file : Option String) : Option Json := file.bind lib.loads

def entry (document : Option Json) (key : String) : Dict :=
  dictOf (some ((dictOf document).lookup key))

def stateOf : Json → BreakerState
  | .str s => parseState s
  | _ => .closed

def countOf : Json → Int
  | .int n => n
  | _ => 0

def timeOf (lib : Libraries) : Json → Option Int
  | .str s =>
    if s = "" then none
    else match lib.fromisoformat s with
      | none => none
      | some (.naive wall) => some wall
      | some (.aware utc) => if InRange utc then some utc else none
  | _ => none

structure Reads (lib : Libraries) (payload : Dict) (b : Breaker) : Prop where
  state : b.state = stateOf (payload.lookup "state")
  failureCount : b.failureCount = countOf (payload.lookup "failure_count")
  openedAt : b.openedAt = timeOf lib (payload.lookup "opened_at_iso")
  lastFailure : b.lastFailure = timeOf lib (payload.lookup "last_failure_iso")
  lastError : b.lastError = (payload.lookup "last_error").asStr
  halfOpenTrialsUsed : b.halfOpenTrialsUsed = countOf (payload.lookup "half_open_trials_used")

def BreakersDegrade (lib : Conversions) (s : Settings) (file : Option String) : Prop :=
  ∃ m, buildManager lib s file = .ok m ∧ m.enabled = s.enabled ∧ m.config = s.config ∧
    List.Forall₂ (fun service b => b.service = service ∧ b.toConfig = s.config ∧
      Reads lib.toLibraries (entry (documentOf lib.toLibraries file) service) b) services m.breakers

def flagOf : Json → Bool
  | .bool b => b
  | _ => false

def SafeModeDegrades (lib : Libraries) (safeMode file : Option String) : Prop :=
  isSafeModeEnabled lib safeMode file = .ok (envForcedOn lib safeMode ||
    flagOf ((dictOf (documentOf lib file)).lookup "enabled"))

/-- A list in the file replaces the scopes of the environment by its entries that are scopes. -/
def Chosen (value : Json) (fromEnv : List String) (scope : String) : Prop :=
  match value with
  | .arr items => .str scope ∈ items ∧ scope ∈ allScopes
  | _ => scope ∈ fromEnv

def PolicyDegrades (lib : Libraries) (env : PolicyEnv) (file : Option String) : Prop :=
  ∃ policy, loadPolicy lib env file = .ok policy ∧ policy.scopeMode = env.mode lib.toRuntime ∧
    policy.overridesEnabled = env.overridesEnabled lib.toRuntime ∧
    if env.overridesEnabled lib.toRuntime then
      Has policy
        (Chosen ((dictOf (documentOf lib file)).lookup "scopes_enabled") env.enabledScopes)
        (Chosen ((dictOf (documentOf lib file)).lookup "rules_allowed_scopes") env.rulesScopes)
    else Has policy (· ∈ env.enabledScopes) (· ∈ env.rulesScopes)

def field (d : Dict) (key : String) : Option Json := (d.find? fun kv => kv.1 = key).map Prod.snd

/-- The status has both jobs, each with the fields of its entry and the default of every other. -/
def MaintenanceDegrades (lib : Libraries) (file : Option String) : Prop :=
  ∃ status, loadMaintenanceStatus lib file = .ok status ∧ status.map Prod.fst = jobNames ∧
    ∀ job fields, (job, fields) ∈ status → ∀ key,
      field fields key = (field (entry (documentOf lib file) job) key).or
      (field defaultJobStatus key)

/-- What the loaders rely on: an object is read as a dict, and the text of a value that is no
text is not the name of a state. -/
structure Documented (lib : Conversions) : Prop where
  dicts : ∀ text d, lib.loads text = some (.obj d) → (d.map Prod.fst).Nodup ∧
    ∀ key value, (key, .obj value) ∈ d → (value.map Prod.fst).Nodup
  str : ∀ value : Json, value.asStr = none → parseState (lib.str value) = .closed

/-- `json.loads` raises nothing that the loaders do not catch. -/
def Loadable (lib : Libraries) (file : Option String) : Prop :=
  ∀ text, file = some text → lib.loadsRaises text = none

def CountLike (lib : Conversions) (value : Json) : Prop :=
  (∃ n, value = .int n) ∨ value.isTruthy = false ∨ pyInt lib value = .ok 0

/-- Not the text of a time that is out of range in UTC. -/
def TimeLike (lib : Libraries) (value : Json) : Prop :=
  ∀ s utc, value = .str s → s ≠ "" → lib.fromisoformat s = some (.aware utc) → InRange utc

structure Readable (lib : Conversions) (payload : Dict) : Prop where
  failureCount : CountLike lib (payload.lookup "failure_count")
  openedAt : TimeLike lib.toLibraries (payload.lookup "opened_at_iso")
  lastFailure : TimeLike lib.toLibraries (payload.lookup "last_failure_iso")
  lastError : payload.lookup "last_error" = .null ∨ ∃ s, payload.lookup "last_error" = .str s
  halfOpenTrialsUsed : CountLike lib (payload.lookup "half_open_trials_used")

section Breakers

variable {lib : Conversions} {payload : Dict}

theorem countOf_other {value : Json} (h : ∀ n, value ≠ .int n) : countOf value = 0 := by
  cases value with
  | int n => exact absurd rfl (h n)
  | _ => rfl

theorem readCount_iff (key : String) :
    readCount lib payload key = .ok (countOf (payload.lookup key)) ↔
      CountLike lib (payload.lookup key) := by
  by_cases hint : ∃ n, payload.lookup key = .int n
  · obtain ⟨n, hn⟩ := hint
    have hread : readCount lib payload key = .ok n := readCount_int hn
    simp [hread, hn, countOf, CountLike]
  · have hother : ∀ n, payload.lookup key ≠ .int n := fun n hn => hint ⟨n, hn⟩
    rw [countOf_other hother]
    rw [readCount, CountLike]
    cases htruthy : (payload.lookup key).isTruthy with
    | true => simp [hother]
    | false => simp [pyInt]

theorem timeLike_str {s : String} : TimeLike lib.toLibraries (.str s) ↔
    (s ≠ "" → ∀ utc, lib.fromisoformat s = some (.aware utc) → InRange utc) := by
  constructor
  · exact fun h hne utc => h s utc rfl hne
  · rintro h s utc ⟨⟩ hne
    exact h hne utc

theorem timeLike_other {value : Json} (h : value.asStr = none) :
    TimeLike lib.toLibraries value := by
  rintro s utc rfl
  cases h

theorem readIso_iff (value : Json) :
    readIso lib value.asStr = .ok (timeOf lib.toLibraries value) ↔
    TimeLike lib.toLibraries value := by
  cases value with
  | str s =>
    rw [timeLike_str]
    by_cases hempty : s = ""
    · simp [Json.asStr, readIso, timeOf, hempty]
    · cases htime : lib.fromisoformat s with
      | none => simp [Json.asStr, readIso, timeOf, hempty, htime]
      | some time =>
        cases time with
        | naive wall => simp [Json.asStr, readIso, timeOf, hempty, htime]
        | aware utc =>
          by_cases hrange : InRange utc
          · simp [Json.asStr, readIso, timeOf, hempty, htime, toUtc_eq, hrange, Except.map]
          · simp [Json.asStr, readIso, timeOf, hempty, htime, toUtc_eq, hrange, Except.map]
  | _ => exact iff_of_true rfl (timeLike_other rfl)

theorem readError_iff :
    readError lib payload = (payload.lookup "last_error").asStr ↔
      payload.lookup "last_error" = .null ∨ ∃ s, payload.lookup "last_error" = .str s := by
  rw [readError]
  cases payload.lookup "last_error" with
  | null => simp [Json.asStr]
  | str s => simp [Json.asStr, pyStr]
  | _ => simp [Json.asStr]

theorem parseState_stateText (h : Documented lib) :
    parseState (stateText lib payload) = stateOf (payload.lookup "state") := by
  have hother : ∀ value : Json, value.asStr = none →
      parseState (if value.isTruthy then lib.str value else "closed") = .closed := by
    intro value hvalue
    split
    · exact h.str value hvalue
    · rfl
  unfold stateText
  dsimp only
  cases payload.lookup "state" with
  | str s =>
    by_cases hempty : s = ""
    · rw [hempty]
      rfl
    · simp [Json.isTruthy, hempty, pyStr, stateOf]
  | _ => exact hother _ rfl

theorem bind_ok_inv {α β : Type} {x : Except PyError α} {f : α → Except PyError β} {b : β}
    (h : x >>= f = .ok b) : ∃ a, x = .ok a ∧ f a = .ok b := by
  cases x with
  | error e => cases h
  | ok a => exact ⟨a, rfl, h⟩

theorem fromDict_ok_iff {service : String} {config : Config} {b : Breaker} :
    fromDict lib service config payload = .ok b ↔ b.service = service ∧ b.toConfig = config ∧
      b.state = parseState (stateText lib payload) ∧
      readCount lib payload "failure_count" = .ok b.failureCount ∧
      readIso lib (payload.lookup "opened_at_iso").asStr = .ok b.openedAt ∧
      readIso lib (payload.lookup "last_failure_iso").asStr = .ok b.lastFailure ∧
      b.lastError = readError lib payload ∧
      readCount lib payload "half_open_trials_used" = .ok b.halfOpenTrialsUsed := by
  rw [fromDict]
  constructor
  · intro h
    obtain ⟨failureCount, hcount, h⟩ := bind_ok_inv h
    obtain ⟨openedAt, hopened, h⟩ := bind_ok_inv h
    obtain ⟨lastFailure, hfailed, h⟩ := bind_ok_inv h
    obtain ⟨trials, htrials, h⟩ := bind_ok_inv h
    cases h
    exact ⟨rfl, rfl, rfl, hcount, hopened, hfailed, rfl, htrials⟩
  · rintro ⟨rfl, rfl, hstate, hcount, hopened, hfailed, herror, htrials⟩
    rw [hcount, hopened, hfailed, htrials, ← hstate, ← herror]
    rfl

theorem fromDict_reads_iff (h : Documented lib) (service : String) (config : Config) :
    (∃ b, fromDict lib service config payload = .ok b ∧ b.service = service ∧
      b.toConfig = config ∧ Reads lib.toLibraries payload b) ↔ Readable lib payload := by
  constructor
  · rintro ⟨b, hread, -, -, hfields⟩
    obtain ⟨-, -, -, hcount, hopened, hfailed, herror, htrials⟩ := fromDict_ok_iff.mp hread
    constructor
    · rw [← readCount_iff, hcount, hfields.failureCount]
    · rw [← readIso_iff, hopened, hfields.openedAt]
    · rw [← readIso_iff, hfailed, hfields.lastFailure]
    · rw [← readError_iff, ← herror, hfields.lastError]
    · rw [← readCount_iff, htrials, hfields.halfOpenTrialsUsed]
  · intro hreadable
    let b : Breaker := { config with
      service
      state := stateOf (payload.lookup "state")
      failureCount := countOf (payload.lookup "failure_count")
      openedAt := timeOf lib.toLibraries (payload.lookup "opened_at_iso")
      lastFailure := timeOf lib.toLibraries (payload.lookup "last_failure_iso")
      lastError := (payload.lookup "last_error").asStr
      halfOpenTrialsUsed := countOf (payload.lookup "half_open_trials_used") }
    have hread : fromDict lib service config payload = .ok b := by
      rw [fromDict_ok_iff]
      exact ⟨rfl, rfl, (parseState_stateText h).symm, (readCount_iff _).mpr hreadable.failureCount,
        (readIso_iff _).mpr hreadable.openedAt, (readIso_iff _).mpr hreadable.lastFailure,
        (readError_iff.mpr hreadable.lastError).symm,
        (readCount_iff _).mpr hreadable.halfOpenTrialsUsed⟩
    exact ⟨b, hread, rfl, rfl, ⟨rfl, rfl, rfl, rfl, rfl, rfl⟩⟩

theorem readAll_iff {config : Config} {loaded : List (String × Dict)} {P : String → Breaker → Prop}
    (names : List String) :
    (∃ breakers, readAll lib config loaded names = .ok breakers ∧ List.Forall₂ P names breakers) ↔
      ∀ name ∈ names, ∃ b, fromDict lib name config (payloadOf loaded name) = .ok b ∧ P name b := by
  induction names with
  | nil => exact iff_of_true ⟨[], rfl, .nil⟩ nofun
  | cons name names ih =>
    rw [List.forall_mem_cons, ← ih, readAll]
    constructor
    · rintro ⟨breakers, hread, hall⟩
      cases hfirst : fromDict lib name config (payloadOf loaded name) with
      | error e =>
        rw [hfirst] at hread
        cases hread
      | ok b =>
        rw [hfirst] at hread
        cases hrest : readAll lib config loaded names with
        | error e =>
          simp only [hrest, Except.map] at hread
          cases hread
        | ok rest =>
          simp only [hrest, Except.map] at hread
          cases hread
          cases hall with
          | cons hb hrest => exact ⟨⟨b, rfl, hb⟩, rest, rfl, hrest⟩
    · rintro ⟨⟨b, hb, hP⟩, breakers, hread, hall⟩
      refine ⟨b :: breakers, ?_, .cons hP hall⟩
      simp only [hb, hread, Except.map]

theorem dictItem_obj (key : String) (value : Dict) :
    dictItem (key, .obj value) = some (key, value) :=
  rfl

theorem payloadOf_filterMap {d : Dict} (h : (d.map Prod.fst).Nodup) (service : String) :
    payloadOf (d.filterMap dictItem) service = dictOf (some (d.lookup service)) := by
  have hkey : ∀ kv item, dictItem kv = some item → item.1 = kv.1 := by
    rintro ⟨key, value⟩ item hitem
    cases value <;> cases hitem
    rfl
  induction d with
  | nil => rfl
  | cons kv d ih =>
    obtain ⟨key, value⟩ := kv
    rw [List.map_cons, List.nodup_cons] at h
    have hrest := ih h.2
    by_cases hservice : key = service
    · subst hservice
      have hfound : Dict.lookup ((key, value) :: d) key = value := by simp [Dict.lookup]
      have habsent : KeyedList.get Prod.fst (d.filterMap dictItem) key = none := by
        rw [KeyedList.get_none_iff]
        intro item hitem hsame
        obtain ⟨kv, hkv, hdict⟩ := List.mem_filterMap.mp hitem
        have hmem : key ∈ d.map Prod.fst :=
          List.mem_map.mpr ⟨kv, hkv, (hkey kv item hdict).symm.trans hsame⟩
        exact h.1 hmem
      rw [hfound]
      cases value with
      | obj payload =>
        rw [List.filterMap_cons_some (dictItem_obj key payload), payloadOf, KeyedList.get_cons,
          if_pos rfl]
        rfl
      | _ =>
        rw [List.filterMap_cons_none rfl, payloadOf, habsent]
        rfl
    · have hlater : Dict.lookup ((key, value) :: d) service = Dict.lookup d service := by
        simp [Dict.lookup, hservice]
      rw [hlater, ← hrest]
      cases value with
      | obj payload =>
        rw [List.filterMap_cons_some (dictItem_obj key payload), payloadOf, KeyedList.get_cons,
          if_neg hservice]
        rfl
      | _ => rw [List.filterMap_cons_none rfl]

end Breakers

section Files

variable {lib : Conversions} {file : Option String}

theorem readDocument_loadable {lib : Libraries} (h : Loadable lib file) :
    readDocument lib file = .ok (documentOf lib file) := by
  cases file with
  | none => rfl
  | some text =>
    simp only [readDocument, jsonLoads, h text rfl, documentOf, Option.bind_some]

theorem readDocument_raises {lib : Libraries} (h : ¬ Loadable lib file) :
    ∃ e, readDocument lib file = .error e := by
  cases file with
  | none => exact absurd nofun h
  | some text =>
    cases hraises : lib.loadsRaises text with
    | none =>
      refine absurd ?_ h
      rintro _ ⟨⟩
      exact hraises
    | some e => exact ⟨e, by rw [readDocument, jsonLoads, hraises]⟩

theorem mem_of_lookup {d : Dict} {key : String} {value : Json} (h : d.lookup key = value)
    (hvalue : value ≠ .null) : (key, value) ∈ d := by
  rw [Dict.lookup] at h
  cases hfind : d.find? fun kv => kv.1 = key with
  | none =>
    rw [hfind] at h
    exact absurd h.symm hvalue
  | some kv =>
    rw [hfind] at h
    have hkey : kv.1 = key := by simpa using List.find?_some hfind
    have hkv : kv = (key, value) := Prod.ext hkey h
    exact hkv ▸ List.mem_of_find?_eq_some hfind

theorem documentOf_distinct (h : Documented lib) :
    ((dictOf (documentOf lib.toLibraries file)).map Prod.fst).Nodup ∧
      ∀ key, ((entry (documentOf lib.toLibraries file) key).map Prod.fst).Nodup := by
  have hempty : ((([] : Dict).map Prod.fst).Nodup) := List.nodup_nil
  cases file with
  | none => exact ⟨hempty, fun _ => hempty⟩
  | some text =>
    unfold entry documentOf
    rw [Option.bind_some]
    cases hloads : lib.loads text with
    | none => exact ⟨hempty, fun _ => hempty⟩
    | some document =>
      cases document with
      | obj d =>
        obtain ⟨hkeys, hvalues⟩ := h.dicts text d hloads
        refine ⟨hkeys, fun key => ?_⟩
        change ((dictOf (some (Dict.lookup d key))).map Prod.fst).Nodup
        cases hvalue : Dict.lookup d key with
        | obj value => exact hvalues key value (mem_of_lookup hvalue nofun)
        | _ => exact hempty
      | _ => exact ⟨hempty, fun _ => hempty⟩

theorem breakers_loadable (hload : Loadable lib.toLibraries file) (h : Documented lib)
    (s : Settings) :
    BreakersDegrade lib s file ↔ ∀ service ∈ services,
      Readable lib (entry (documentOf lib.toLibraries file) service) := by
  have hloaded : loadBreakers lib.toLibraries file =
      .ok ((dictOf (documentOf lib.toLibraries file)).filterMap dictItem) := by
    rw [loadBreakers, readDocument_loadable hload]
    rfl
  have heach : ∀ service ∈ services,
      (Readable lib (entry (documentOf lib.toLibraries file) service) ↔
        ∃ b, fromDict lib service s.config (payloadOf
            ((dictOf (documentOf lib.toLibraries file)).filterMap dictItem) service) = .ok b ∧
          b.service = service ∧ b.toConfig = s.config ∧
            Reads lib.toLibraries (entry (documentOf lib.toLibraries file) service) b) := by
    intro service _
    rw [payloadOf_filterMap (documentOf_distinct h).1, ← entry, fromDict_reads_iff h]
  rw [forall₂_congr heach, ← readAll_iff, BreakersDegrade, buildManager, hloaded]
  dsimp only
  cases readAll lib s.config ((dictOf (documentOf lib.toLibraries file)).filterMap dictItem)
      services with
  | error e => exact ⟨nofun, nofun⟩
  | ok breakers =>
    constructor
    · rintro ⟨m, ⟨⟩, -, -, hall⟩
      exact ⟨breakers, rfl, hall⟩
    · rintro ⟨_, ⟨⟩, hall⟩
      exact ⟨_, rfl, rfl, rfl, hall⟩

theorem breakers_degrade_iff (h : Documented lib) (s : Settings) :
    BreakersDegrade lib s file ↔ Loadable lib.toLibraries file ∧ ∀ service ∈ services,
      Readable lib (entry (documentOf lib.toLibraries file) service) := by
  by_cases hload : Loadable lib.toLibraries file
  · rw [breakers_loadable hload h, and_iff_right hload]
  · refine iff_of_false ?_ fun hboth => hload hboth.1
    rintro ⟨m, hbuilt, -⟩
    obtain ⟨e, he⟩ := readDocument_raises hload
    rw [buildManager, loadBreakers, he] at hbuilt
    cases hbuilt

/-- What is asked of `safe_mode.json`. -/
def FlagLike (document : Option Json) : Prop :=
  ∀ value, document = some value → ∃ d, value = .obj d ∧
    ((∃ b, Dict.lookup d "enabled" = .bool b) ∨ (Dict.lookup d "enabled").isTruthy = false)

theorem truthy_eq_flag_iff (value : Json) :
    value.isTruthy = flagOf value ↔ (∃ b, value = .bool b) ∨ value.isTruthy = false := by
  cases value with
  | bool b => simp [Json.isTruthy, flagOf]
  | _ => simp [flagOf]

theorem safeMode_degrades_iff {lib : Libraries} (safeMode : Option String) :
    SafeModeDegrades lib safeMode file ↔
      envForcedOn lib safeMode = true ∨ Loadable lib file ∧ FlagLike (documentOf lib file) := by
  rw [SafeModeDegrades, isSafeModeEnabled]
  cases hforced : envForcedOn lib safeMode with
  | true => simp
  | false =>
    simp only [Bool.false_eq_true, if_false, false_or, Bool.false_or]
    by_cases hload : Loadable lib file
    · rw [readDocument_loadable hload, and_iff_right hload]
      rw [FlagLike]
      cases documentOf lib file with
      | none => simp [dictOf, Dict.lookup, flagOf]
      | some document =>
        cases document with
        | obj d => simp [dictOf, truthy_eq_flag_iff]
        | _ => simp
    · obtain ⟨e, he⟩ := readDocument_raises hload
      rw [he]
      refine iff_of_false ?_ fun hboth => hload hboth.1
      intro hdegrades
      cases hdegrades

theorem mem_scopeList {items : List Json} {scope : String} :
    scope ∈ items.filterMap Json.asStr ↔ .str scope ∈ items := by
  rw [List.mem_filterMap]
  constructor
  · rintro ⟨item, hitem, hscope⟩
    cases item with
    | str s =>
      cases hscope
      exact hitem
    | _ => cases hscope
  · exact fun hitem => ⟨_, hitem, rfl⟩

theorem mem_override_scopeList (value : Json) (fromEnv : List String) :
    ∀ scope, scope ∈ override (scopeList value) fromEnv ↔ Chosen value fromEnv scope := by
  intro scope
  cases value with
  | arr items => rw [scopeList, override, mem_canonical, mem_scopeList, Chosen]
  | _ => rfl

theorem has_own (mode : ScopeMode) (enabled rules : List String) (overridden : Bool) :
    Has ⟨mode, enabled, rules, overridden⟩ (· ∈ enabled) (· ∈ rules) :=
  ⟨fun _ => Iff.rfl, fun _ => Iff.rfl⟩

theorem policy_degrades_iff {lib : Libraries} (env : PolicyEnv) :
    PolicyDegrades lib env file ↔
      env.overridesEnabled lib.toRuntime = false ∨ Loadable lib file := by
  rw [PolicyDegrades, loadPolicy]
  cases henabled : env.overridesEnabled lib.toRuntime with
  | false =>
    have hbuilt : buildPolicy lib.toRuntime env ⟨none, none⟩ =
        ⟨env.mode lib.toRuntime, env.enabledScopes, env.rulesScopes, false⟩ := by
      rw [buildPolicy, henabled]
      rfl
    simp only [Bool.false_eq_true, if_false, true_or, iff_true, hbuilt]
    exact ⟨_, rfl, rfl, rfl, has_own _ _ _ _⟩
  | true =>
    simp only [if_true, Bool.true_eq_false, false_or]
    by_cases hload : Loadable lib file
    · have hbuilt := buildPolicy_enabled henabled (overridesOf (documentOf lib file))
      refine iff_of_true ⟨_, (by rw [readDocument_loadable hload]; rfl), ?_⟩ hload
      dsimp only
      rw [hbuilt]
      exact ⟨rfl, rfl, mem_override_scopeList _ env.enabledScopes,
        mem_override_scopeList _ env.rulesScopes⟩
    · obtain ⟨e, he⟩ := readDocument_raises hload
      refine iff_of_false ?_ hload
      rintro ⟨policy, hpolicy, -⟩
      rw [he] at hpolicy
      cases hpolicy

theorem field_cons (kv : String × Json) (d : Dict) (key : String) :
    field (kv :: d) key = if kv.1 = key then some kv.2 else field d key := by
  unfold field
  by_cases h : kv.1 = key
  · simp [h]
  · simp [h]

theorem field_set (d : Dict) (key : String) (value : Json) (other : String) :
    field (d.set key value) other = if key = other then some value else field d other := by
  induction d with
  | nil => rw [Dict.set, field_cons]
  | cons kv d ih =>
    obtain ⟨k, v⟩ := kv
    rw [Dict.set]
    by_cases hkey : k = key
    · rw [if_pos hkey, field_cons, field_cons]
      subst hkey
      by_cases hother : k = other
      · simp [hother]
      · simp [hother]
    · rw [if_neg hkey, field_cons, field_cons, ih]
      by_cases hother : k = other
      · have hne : key ≠ other := fun h => hkey (hother.trans h.symm)
        simp [hother, hne]
      · simp [hother]

theorem field_update (d : Dict) {more : Dict} (h : (more.map Prod.fst).Nodup) (key : String) :
    field (Dict.update d more) key = (field more key).or (field d key) := by
  induction more generalizing d with
  | nil => rfl
  | cons kv more ih =>
    rw [List.map_cons, List.nodup_cons] at h
    have hrest : field (Dict.update d (kv :: more)) key =
        (field more key).or (field (d.set kv.1 kv.2) key) := ih _ h.2
    rw [hrest, field_set, field_cons]
    by_cases hkey : kv.1 = key
    · have habsent : field more key = none := by
        rw [field, Option.map_eq_none_iff, List.find?_eq_none]
        intro other hother
        have hne : other.1 ≠ key := by
          rintro rfl
          exact h.1 (hkey ▸ List.mem_map_of_mem hother)
        simpa using hne
      rw [if_pos hkey, if_pos hkey, habsent]
      rfl
    · rw [if_neg hkey, if_neg hkey]

theorem field_jobStatus (h : Documented lib) (job key : String) :
    field (jobStatus (documentOf lib.toLibraries file) job) key =
      (field (entry (documentOf lib.toLibraries file) job) key).or
      (field defaultJobStatus key) := by
  have hdistinct := (@documentOf_distinct lib file h).2 job
  rw [jobStatus]
  rw [entry] at hdistinct ⊢
  cases hvalue : (dictOf (documentOf lib.toLibraries file)).lookup job with
  | obj value =>
    rw [hvalue] at hdistinct
    exact field_update defaultJobStatus hdistinct key
  | _ => rfl

theorem maintenance_degrades_iff (h : Documented lib) :
    MaintenanceDegrades lib.toLibraries file ↔ Loadable lib.toLibraries file := by
  rw [MaintenanceDegrades, loadMaintenanceStatus]
  by_cases hload : Loadable lib.toLibraries file
  · refine iff_of_true ⟨_, by rw [readDocument_loadable hload]; rfl, rfl, ?_⟩ hload
    intro job fields hmem key
    obtain ⟨job', -, hjob⟩ := List.mem_map.mp hmem
    cases hjob
    exact field_jobStatus h job key
  · obtain ⟨e, he⟩ := readDocument_raises hload
    refine iff_of_false ?_ hload
    rintro ⟨status, hstatus, -⟩
    rw [he] at hstatus
    cases hstatus

end Files

/-- Each loader degrades to defaults exactly on the files that hold nothing it does not take. -/
theorem malformed_degrade_iff {lib : Conversions} (h : Documented lib) (s : Settings)
    (env : PolicyEnv) (safeMode breakers safe overrides maintenance : Option String) :
    (BreakersDegrade lib s breakers ↔ Loadable lib.toLibraries breakers ∧ ∀ service ∈ services,
      Readable lib (entry (documentOf lib.toLibraries breakers) service)) ∧
    (SafeModeDegrades lib.toLibraries safeMode safe ↔ envForcedOn lib.toLibraries safeMode = true ∨
      Loadable lib.toLibraries safe ∧ FlagLike (documentOf lib.toLibraries safe)) ∧
    (PolicyDegrades lib.toLibraries env overrides ↔
      env.overridesEnabled lib.toRuntime = false ∨ Loadable lib.toLibraries overrides) ∧
    (MaintenanceDegrades lib.toLibraries maintenance ↔ Loadable lib.toLibraries maintenance) :=
  ⟨breakers_degrade_iff h s, safeMode_degrades_iff safeMode, policy_degrades_iff env,
    maintenance_degrades_iff h⟩

def miscounted : Json := .obj [("llm", .obj [("failure_count", .str "x")])]

def opened : Json := .obj [("llm", .obj [("state", .str "open"), ("failure_count", .int 3)])]

def loadsKnown (text : String) : Option Json :=
  if text = dumps miscounted then some miscounted
  else if text = dumps opened then some opened
  else if text = "[]" then some (.arr []) else none

def readingLibrary : Conversions := { plainConversions with loads := loadsKnown }

theorem readingLibrary_documented : Documented readingLibrary := by
  refine ⟨fun text d hloads => ?_, fun value _ => rfl⟩
  have hcases : d = [("llm", .obj [("failure_count", .str "x")])] ∨
      d = [("llm", .obj [("state", .str "open"), ("failure_count", .int 3)])] := by
    change loadsKnown text = some (.obj d) at hloads
    rw [loadsKnown] at hloads
    split at hloads
    · cases hloads
      exact Or.inl rfl
    · split at hloads
      · cases hloads
        exact Or.inr rfl
      · split at hloads <;> cases hloads
  rcases hcases with rfl | rfl
  · refine ⟨by simp, fun key value hmem => ?_⟩
    obtain ⟨-, rfl⟩ : key = "llm" ∧ value = [("failure_count", .str "x")] := by simpa using hmem
    simp
  · refine ⟨by simp, fun key value hmem => ?_⟩
    obtain ⟨-, rfl⟩ : key = "llm" ∧
        value = [("state", .str "open"), ("failure_count", .int 3)] := by
      simpa using hmem
    simp

def defaults : Settings := ⟨true, 3, 60, 1⟩

theorem readingLibrary_loadable (file : Option String) :
    Loadable readingLibrary.toLibraries file := fun _ _ => rfl

theorem loads_known :
    readingLibrary.loads (dumps miscounted) = some miscounted ∧
      readingLibrary.loads (dumps opened) = some opened ∧
      readingLibrary.loads "[]" = some (.arr []) := by
  have hopened : dumps opened ≠ dumps miscounted := by decide
  have hbrackets : "[]" ≠ dumps miscounted ∧ "[]" ≠ dumps opened := by decide
  have hreads : readingLibrary.loads = loadsKnown := rfl
  simp [hreads, loadsKnown, hopened, hbrackets]

/-- A count that is no number keeps the manager from being built, and a list in the place of
the flag keeps every request from being served. -/
theorem malformed_file_raises :
    ¬ BreakersDegrade readingLibrary defaults (some (dumps miscounted)) ∧
      ¬ SafeModeDegrades readingLibrary.toLibraries none (some "[]") ∧
      isSafeModeEnabled readingLibrary.toLibraries none (some "[]") = .error noAttribute := by
  have hraises : isSafeModeEnabled readingLibrary.toLibraries none (some "[]") =
      .error noAttribute := by
    have hforced : envForcedOn readingLibrary.toLibraries none = false := by decide
    have hdocument : readDocument readingLibrary.toLibraries (some "[]") =
        .ok (some (.arr [])) := by
      rw [readDocument_loadable (readingLibrary_loadable _), documentOf, Option.bind_some,
        loads_known.2.2]
    rw [isSafeModeEnabled, hforced, hdocument]
    rfl
  refine ⟨?_, ?_, hraises⟩
  · rw [breakers_degrade_iff readingLibrary_documented, documentOf, Option.bind_some,
      loads_known.1]
    rintro ⟨-, hreadable⟩
    obtain ⟨n, hn⟩ | hfalsy | hzero := (hreadable "llm" (by decide)).failureCount
    · cases hn
    · cases hfalsy
    · have hno : readDigits "x" = none := by decide
      have hcount : pyInt readingLibrary (.str "x") =
          .error (.valueError ("invalid literal for int() with base 10: '" ++ "x" ++ "'")) := by
        simp only [pyInt, readingLibrary, plainConversions, hno]
      cases hcount.symm.trans hzero
  · rw [SafeModeDegrades, hraises]
    intro hdegrades
    cases hdegrades

/-- An entry that leaves fields out is read with their defaults. -/
theorem opened_breaker_loaded :
    BreakersDegrade readingLibrary defaults (some (dumps opened)) := by
  have hiff := (malformed_degrade_iff readingLibrary_documented defaults ⟨none, none, none, none⟩
    none (some (dumps opened)) none none none).1
  rw [hiff, documentOf, Option.bind_some, loads_known.2.1]
  have hopened : ∀ payload, payload = [("state", Json.str "open"), ("failure_count", .int 3)] ∨
      payload = [] → Readable readingLibrary payload := by
    rintro payload (rfl | rfl)
    · exact ⟨Or.inl ⟨3, rfl⟩, nofun, nofun, Or.inl rfl, Or.inr (Or.inl rfl)⟩
    · exact ⟨Or.inr (Or.inl rfl), nofun, nofun, Or.inl rfl, Or.inr (Or.inl rfl)⟩
  refine ⟨readingLibrary_loadable _, fun service hservice => hopened _ ?_⟩
  simp only [services, List.mem_cons, List.not_mem_nil, or_false] at hservice
  rcases hservice with rfl | rfl | rfl
  · exact Or.inl rfl
  · exact Or.inr rfl
  · exact Or.inr rfl

end StateFiles
