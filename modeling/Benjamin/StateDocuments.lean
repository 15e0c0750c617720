import Benjamin.IndentedJson
import Benjamin.RewrittenFiles
import Benjamin.StateFiles

/-!
# State documents

The four state files that hold one document, with the texts that their savers write. A process
has its breakers in memory and looks up the other three at every use; it may be started again at
any point, between a request and its outcome too. No answer of such a run tells the files from a
memory that is never lost.
-/
namespace StateDocuments

open PyBase RecordModels CircuitBreaker BreakerManager BreakerRestart SecurityPolicy
open PolicyOverrides StateFiles JsonReader IndentedJson IsoReading
open RewrittenFiles (noFloats)

structure Files where
  breakers : Option String
  safeMode : Option String
  overrides : Option String
  maintenance : Option String

structure Process where
  manager : Manager
  files : Files

inductive Job where
  | doctorValidate | weeklyCompact

def Job.name : Job → String
  | .doctorValidate => "doctor_validate"
  | .weeklyCompact => "weekly_compact"

/-- The arguments of `_update_job_status`, with the time of the call. -/
structure JobRun where
  job : Job
  nowIso : String
  ok : Bool
  summary : Dict
  details : Dict
  correlationId : String

def JobRun.entry (run : JobRun) : Dict :=
  [("last_run_iso", .str run.nowIso), ("ok", .bool run.ok), ("summary", .obj run.summary),
    ("details", .obj run.details), ("correlation_id", .str run.correlationId)]

/-- `snapshot` of the manager. -/
def snapshotDict (m : Manager) : Dict := m.breakers.map fun b => (b.service, .obj (toDict b))

/-- `BreakerStore.save`. -/
def breakersText (m : Manager) : String := dumpsSorted (.obj (snapshotDict m))

/-- `set_safe_mode_enabled`. -/
def safeModeText (enabled : Bool) : String := dumps (.obj [("enabled", .bool enabled)])

/-- `PolicyOverridesStore.save`. -/
def overridesText (overrides : Dict) : String := dumpsSorted (.obj overrides)

/-- `save_maintenance_status`. -/
def maintenanceText (status : List (String × Dict)) : String :=
  dumpsIndented (.obj (status.map fun entry => (entry.1, .obj entry.2))) ++ "\n"

/-- `PolicyOverridesStore.load`. -/
def loadOverrides (lib : Libraries) (file : Option String) : Except PyError Dict :=
  (readDocument lib file).map dictOf

def hashable : Json → Bool
  | .arr _ | .obj _ => false
  | _ => true

def notIterable (type : String) : PyError := .typeError ("'" ++ type ++ "' object is not iterable")

/-- The strings of `set(value)`; nothing else of it is a scope. -/
def stringSet : Json → Except PyError (List String)
  | .null => .error (notIterable "NoneType")
  | .bool _ => .error (notIterable "bool")
  | .int _ => .error (notIterable "int")
  | .float _ => .error (notIterable "float")
  | .str s => .ok (s.toList.map fun c => String.ofList [c])
  | .arr items => match items.find? fun item => !hashable item with
    | none => .ok (items.filterMap Json.asStr)
    | some (.obj _) => .error (.typeError "unhashable type: 'dict'")
    | some _ => .error (.typeError "unhashable type: 'list'")
  | .obj fields => .ok (fields.map Prod.fst)

/-- `set(overrides.get("scopes_enabled", default))`. -/
def currentScopes (overrides : Dict) (default : List String) : Except PyError (List String) :=
  match field overrides "scopes_enabled" with
  | none => .ok default
  | some value => stringSet value

def scopesJson (scopes : List String) : Json := .arr (scopes.map .str)

/-- `overrides.setdefault(key, scopes)`. -/
def setDefault (overrides : Dict) (key : String) (scopes : List String) : Dict :=
  match field overrides key with
  | none => overrides.set key (scopesJson scopes)
  | some _ => overrides

def writeEnabled (policy : PermissionsPolicy) (overrides : Dict) (enabled : List String) : Dict :=
  setDefault (overrides.set "scopes_enabled" (scopesJson (sortedSet (canonical enabled))))
    "rules_allowed_scopes" policy.snapshotModel.rulesAllowedScopes

def writeRules (policy : PermissionsPolicy) (overrides : Dict) (scopes : List String) : Dict :=
  setDefault (overrides.set "rules_allowed_scopes" (scopesJson scopes))
    "scopes_enabled" (sortedSet policy.explicitScopesEnabled)

def editDict (policy : PermissionsPolicy) (overrides : Dict) :
    Request → List String → Except PyError Dict
  | .enableScopes _, scopes =>
    (currentScopes overrides []).map fun enabled =>
      writeEnabled policy overrides (enabled ++ scopes)
  | .disableScopes _, scopes =>
    (currentScopes overrides policy.explicitScopesEnabled).map fun current =>
      writeEnabled policy overrides (current.filter fun scope => scope ∉ scopes)
  | .setRulesAllowedScopes _, scopes => .ok (writeRules policy overrides scopes)
  | .resetRulesAllowedScopes, _ =>
    .ok (writeRules policy overrides (sortedSet defaultRulesAllowedScopes))

def handleFile (lib : Libraries) (env : PolicyEnv) (file : Option String) (request : Request) :
    Except PyError PolicySnapshot × Option String :=
  match validateScopes request.scopes with
  | .error e => (.error e, file)
  | .ok scopes =>
    match loadPolicy lib env file with
    | .error e => (.error e, file)
    | .ok policy =>
      match guardOverridesEnabled policy with
      | .error e => (.error e, file)
      | .ok _ =>
        match loadOverrides lib file >>= fun overrides =>
            editDict policy overrides request scopes with
        | .error e => (.error e, file)
        | .ok overrides =>
          let file := some (overridesText overrides)
          ((loadPolicy lib env file).map PermissionsPolicy.snapshotModel, file)

/-- The libraries, the environment and the settings that a process is started with. -/
structure Host where
  lib : Conversions
  settings : Settings
  safeMode : Option String
  env : PolicyEnv

inductive Op where
  | restart
  | ask (service : String) (now : Int)
  | conclude (service : String) (outcome : Except PyError Unit) (now : Int)
  | setSafeMode (enabled : Bool)
  | isSafeModeEnabled
  | editPolicy (request : Request)
  | getScopes
  | updateJobStatus (run : JobRun)
  | loadStatus

inductive Answer where
  | call (outcome : Except PyError Unit)
  | flag (enabled : Except PyError Bool)
  | policy (snapshot : Except PyError PolicySnapshot)
  | status (status : Except PyError (List (String × Dict)))

namespace Process

def persist (p : Process) (m : Manager) : Process :=
  ⟨m, { p.files with breakers := some (breakersText m) }⟩

/-- `wrap` up to the call of `fn`. -/
def ask (p : Process) (service : String) (now : Int) : Except PyError Unit × Process :=
  if !p.manager.enabled then (.ok (), p)
  else match p.manager.ask service now with
    | .error e => (.error e, p)
    | .ok (false, m) => (.error (.serviceDegraded service (m.get service).lastError), p.persist m)
    | .ok (true, m) => (.ok (), p.persist m)

/-- `wrap` from the end of `fn` on. -/
def conclude (p : Process) (service : String) (outcome : Except PyError Unit) (now : Int) :
    Except PyError Unit × Process :=
  if !p.manager.enabled then (outcome, p)
  else (outcome, p.persist (p.manager.conclude service outcome now))

def restart (host : Host) (p : Process) : Except PyError Unit × Process :=
  match buildManager host.lib host.settings p.files.breakers with
  | .error e => (.error e, p)
  | .ok m => (.ok (), { p with manager := m })

/-- `_update_job_status`. -/
def updateJobStatus (lib : Libraries) (p : Process) (run : JobRun) :
    Except PyError (List (String × Dict)) × Process :=
  match loadMaintenanceStatus lib p.files.maintenance with
  | .error e => (.error e, p)
  | .ok status =>
    let status := KeyedList.upsert Prod.fst (run.job.name, run.entry) status
    (.ok status, { p with files.maintenance := some (maintenanceText status) })

def editPolicy (host : Host) (p : Process) (request : Request) :
    Except PyError PolicySnapshot × Process :=
  let (answer, file) := handleFile host.lib.toLibraries host.env p.files.overrides request
  (answer, { p with files.overrides := file })

end Process

def observe (host : Host) (p : Process) : Op → Answer × Process
  | .restart => (.call (p.restart host).1, (p.restart host).2)
  | .ask service now => (.call (p.ask service now).1, (p.ask service now).2)
  | .conclude service outcome now =>
    (.call (p.conclude service outcome now).1, (p.conclude service outcome now).2)
  | .setSafeMode enabled =>
    (.call (.ok ()), { p with files.safeMode := some (safeModeText enabled) })
  | .isSafeModeEnabled =>
    (.flag (StateFiles.isSafeModeEnabled host.lib.toLibraries host.safeMode p.files.safeMode), p)
  | .editPolicy request => (.policy (p.editPolicy host request).1, (p.editPolicy host request).2)
  | .getScopes =>
    (.policy ((loadPolicy host.lib.toLibraries host.env p.files.overrides).map
      PermissionsPolicy.snapshotModel), p)
  | .updateJobStatus run =>
    (.status (p.updateJobStatus host.lib.toLibraries run).1,
      (p.updateJobStatus host.lib.toLibraries run).2)
  | .loadStatus => (.status (loadMaintenanceStatus host.lib.toLibraries p.files.maintenance), p)

structure Memory where
  manager : Manager
  safeMode : Bool
  overrides : Overrides
  status : List (String × Dict)

namespace Memory

def ask (mem : Memory) (service : String) (now : Int) : Except PyError Unit × Memory :=
  if !mem.manager.enabled then (.ok (), mem)
  else match mem.manager.ask service now with
    | .error e => (.error e, mem)
    | .ok (false, m) =>
      (.error (.serviceDegraded service (m.get service).lastError), { mem with manager := m })
    | .ok (true, m) => (.ok (), { mem with manager := m })

def conclude (mem : Memory) (service : String) (outcome : Except PyError Unit) (now : Int) :
    Memory :=
  if mem.manager.enabled then { mem with manager := mem.manager.conclude service outcome now }
  else mem

end Memory

def recollect (host : Host) (mem : Memory) : Op → Answer × Memory
  | .restart => (.call (.ok ()), mem)
  | .ask service now => (.call (mem.ask service now).1, (mem.ask service now).2)
  | .conclude service outcome now => (.call outcome, mem.conclude service outcome now)
  | .setSafeMode enabled => (.call (.ok ()), { mem with safeMode := enabled })
  | .isSafeModeEnabled =>
    (.flag (.ok (envForcedOn host.lib.toLibraries host.safeMode || mem.safeMode)), mem)
  | .editPolicy request =>
    (.policy (handle host.lib.toRuntime host.env mem.overrides request).1,
      { mem with overrides := (handle host.lib.toRuntime host.env mem.overrides request).2 })
  | .getScopes =>
    (.policy (.ok (buildPolicy host.lib.toRuntime host.env mem.overrides).snapshotModel), mem)
  | .updateJobStatus run =>
    let status := KeyedList.upsert Prod.fst (run.job.name, run.entry) mem.status
    (.status (.ok status), { mem with status })
  | .loadStatus => (.status (.ok mem.status), mem)

theorem field_eq_get (d : Dict) (key : String) :
    field d key = (KeyedList.get Prod.fst d key).map Prod.snd := rfl

theorem lookup_eq_field (d : Dict) (key : String) : d.lookup key = (field d key).getD .null := by
  unfold field Dict.lookup
  cases d.find? fun kv => kv.1 = key <;> rfl

theorem field_perm {d other : Dict} (h : d.Perm other) (hkeys : (d.map Prod.fst).Nodup)
    (key : String) : field d key = field other key := by
  have hother : (other.map Prod.fst).Nodup := (h.map Prod.fst).nodup_iff.mp hkeys
  cases hfield : KeyedList.get Prod.fst d key with
  | none =>
    have habsent : KeyedList.get Prod.fst other key = none := by
      rw [KeyedList.get_none_iff] at hfield ⊢
      exact fun kv hkv => hfield kv (h.mem_iff.mpr hkv)
    rw [field_eq_get, field_eq_get, hfield, habsent]
  | some kv =>
    obtain rfl : kv.1 = key := KeyedList.get_key hfield
    have hmem : kv ∈ other := h.mem_iff.mp (KeyedList.get_mem hfield)
    rw [field_eq_get, field_eq_get, hfield, (KeyedList.get_self_iff hother).mpr hmem]

theorem field_map (f : Json → Json) (d : Dict) (key : String) :
    field (d.map fun kv => (kv.1, f kv.2)) key = (field d key).map f := by
  induction d with
  | nil => rfl
  | cons kv d ih =>
    rw [List.map_cons, field_cons, field_cons, ih]
    split <;> rfl

/-- The fields that `sort_keys` writes of a dict. -/
def arranged (d : Dict) : Dict := CanonicalJson.sorted (d.map fun kv => (kv.1, sortedJson kv.2))

theorem arranged_nodup {d : Dict} (h : (d.map Prod.fst).Nodup) :
    ((arranged d).map Prod.fst).Nodup := by
  refine ((CanonicalJson.sorted_perm _).map Prod.fst).nodup_iff.mpr ?_
  simpa [List.map_map, Function.comp_def] using h

theorem field_arranged {d : Dict} (h : (d.map Prod.fst).Nodup) (key : String) :
    field (arranged d) key = (field d key).map sortedJson := by
  rw [arranged, field_perm (CanonicalJson.sorted_perm _) (arranged_nodup h), field_map]

theorem sortedJson_scopesJson (scopes : List String) :
    sortedJson (scopesJson scopes) = scopesJson scopes := by
  rw [scopesJson, sortedJson, sortedItems_map, List.map_map]
  rfl

section Reading

variable {lib : Conversions} {floats : Floats}

theorem readDocument_read {lib : Libraries} (hloads : lib.loads = loads floats) {text : String}
    {j : Json} (hquiet : Loadable lib (some text)) (h : loads floats text = some j) :
    readDocument lib (some text) = .ok (some j) := by
  rw [readDocument_loadable hquiet, documentOf, Option.bind_some, hloads, h]

theorem loads_dumpsSorted_obj {d : Dict} (h : Genuine (IsFloat floats) (.obj d)) :
    loads floats (dumpsSorted (.obj d)) = some (.obj (arranged d)) := by
  rw [loads_dumpsSorted h, sortedJson_obj]
  rfl

end Reading

/-- The breakers of the services in their order, with times that exist. -/
structure Ready (s : Settings) (m : Manager) : Prop where
  enabled : m.enabled = s.enabled
  config : m.config = s.config
  names : m.breakers.map Breaker.service = services
  configured : ∀ b ∈ m.breakers, b.toConfig = s.config
  dated : ∀ b ∈ m.breakers, Dated b

/-- A naive datetime is between the ends of the calendar. -/
def ReadsDatetimes (rt : Runtime) : Prop :=
  ∀ text wall, rt.fromisoformat text = some (.naive wall) → InRange wall

section Breakers

variable {lib : Conversions} {floats : Floats} {s : Settings} {m : Manager}

theorem fromDict_congr {d other : Dict} (h : ∀ key, d.lookup key = other.lookup key)
    (service : String) (config : Config) :
    fromDict lib service config d = fromDict lib service config other := by
  simp only [fromDict, readCount, readError, stateText, h]

theorem readAll_each {config : Config} {loaded : List (String × Dict)} (breakers : List Breaker)
    (h : ∀ b ∈ breakers, fromDict lib b.service config (payloadOf loaded b.service) = .ok b) :
    readAll lib config loaded (breakers.map Breaker.service) = .ok breakers := by
  induction breakers with
  | nil => rfl
  | cons b rest ih =>
    rw [List.map_cons, readAll, h b List.mem_cons_self,
      ih fun other hother => h other (List.mem_cons_of_mem _ hother)]
    rfl

theorem toDict_arranged (b : Breaker) :
    (toDict b).map (fun kv => (kv.1, sortedJson kv.2)) = toDict b := by
  unfold toDict
  cases b.openedAt <;> cases b.lastFailure <;> cases b.lastError <;> rfl

theorem toDict_nodup (b : Breaker) : ((toDict b).map Prod.fst).Nodup := by
  simp [toDict]

theorem toDict_genuine (IsFloat : String → Prop) (b : Breaker) :
    Genuine IsFloat (.obj (toDict b)) := by
  have horNull : ∀ {α : Type} (json : α → Json), (∀ a, Genuine IsFloat (json a)) →
      ∀ value, Genuine IsFloat (orNull json value) := by
    intro α json hjson value
    cases value with
    | none => exact .null
    | some a => exact hjson a
  refine .obj (toDict_nodup b) ?_
  simp only [toDict, List.forall_mem_cons, List.not_mem_nil, false_implies, implies_true, and_true]
  exact ⟨.str _, .int _, horNull _ (fun _ => .str _) _, horNull _ (fun _ => .str _) _,
    horNull _ .str _, .int _⟩

theorem snapshotDict_nodup (h : Ready s m) : ((snapshotDict m).map Prod.fst).Nodup := by
  have hkeys : (snapshotDict m).map Prod.fst = services := by
    rw [← h.names, snapshotDict, List.map_map]
    rfl
  rw [hkeys]
  decide

theorem snapshotDict_genuine (IsFloat : String → Prop) (h : Ready s m) :
    Genuine IsFloat (.obj (snapshotDict m)) := by
  refine .obj (snapshotDict_nodup h) fun kv hkv => ?_
  obtain ⟨b, -, rfl⟩ := List.mem_map.mp hkv
  exact toDict_genuine IsFloat b

theorem lookup_saved (h : Ready s m) {b : Breaker} (hb : b ∈ m.breakers) :
    (arranged (snapshotDict m)).lookup b.service = .obj (CanonicalJson.sorted (toDict b)) := by
  have hnodup := snapshotDict_nodup h
  have hmem : (b.service, Json.obj (toDict b)) ∈ snapshotDict m := List.mem_map.mpr ⟨b, hb, rfl⟩
  have hget := (KeyedList.get_self_iff hnodup).mpr hmem
  dsimp only at hget
  rw [lookup_eq_field, field_arranged hnodup, field_eq_get, hget]
  simp [sortedJson_obj, toDict_arranged]

/-- A manager is read back as it was saved. -/
theorem buildManager_saved (hloads : lib.loads = loads floats)
    (hread : ReadsTimestamps lib.toRuntime)
    (hquiet : Loadable lib.toLibraries (some (breakersText m))) (h : Ready s m) :
    buildManager lib s (some (breakersText m)) = .ok m := by
  have hnodup := snapshotDict_nodup h
  have hdocument := readDocument_read hloads hquiet
    (loads_dumpsSorted_obj (snapshotDict_genuine (IsFloat floats) h))
  have hloaded : loadBreakers lib.toLibraries (some (breakersText m)) =
      .ok ((arranged (snapshotDict m)).filterMap dictItem) := by
    rw [loadBreakers, hdocument]
    rfl
  have heach : ∀ b ∈ m.breakers, fromDict lib b.service s.config
      (payloadOf ((arranged (snapshotDict m)).filterMap dictItem) b.service) = .ok b := by
    intro b hb
    have hsame : ∀ key,
        Dict.lookup (CanonicalJson.sorted (toDict b)) key = (toDict b).lookup key := by
      intro key
      have hperm := (CanonicalJson.sorted_perm (toDict b)).symm
      rw [lookup_eq_field, lookup_eq_field, field_perm hperm (toDict_nodup b)]
    rw [payloadOf_filterMap (arranged_nodup hnodup), lookup_saved h hb]
    have hreload := reload_dated hread (h.dated b hb)
    rw [reload, h.configured b hb] at hreload
    rw [dictOf, fromDict_congr hsame]
    exact hreload
  rw [buildManager, hloaded]
  dsimp only
  rw [← h.names, readAll_each m.breakers heach, ← h.enabled, ← h.config]
  rfl

theorem readIso_inRange (hdates : ReadsDatetimes lib.toRuntime) {value : Option String} {t : Int}
    (h : readIso lib value = .ok (some t)) : InRange t := by
  cases value with
  | none => cases h
  | some text =>
    rw [readIso] at h
    split at h
    · cases h
    · cases htime : lib.fromisoformat text with
      | none => simp [htime] at h
      | some time =>
        cases time with
        | naive wall =>
          obtain rfl : wall = t := by simpa [htime] using h
          exact hdates text wall htime
        | aware utc =>
          simp only [htime, toUtc_eq] at h
          split at h
          · rename_i hrange
            cases h
            exact hrange
          · cases h

theorem readAll_ok {config : Config} {loaded : List (String × Dict)} {names : List String}
    {breakers : List Breaker} (h : readAll lib config loaded names = .ok breakers) :
    breakers.map Breaker.service = names ∧ ∀ b ∈ breakers,
      fromDict lib b.service config (payloadOf loaded b.service) = .ok b := by
  induction names generalizing breakers with
  | nil =>
    cases h
    exact ⟨rfl, by simp⟩
  | cons name names ih =>
    rw [readAll] at h
    cases hfirst : fromDict lib name config (payloadOf loaded name) with
    | error e => simp [hfirst] at h
    | ok b =>
      cases hrest : readAll lib config loaded names with
      | error e => simp [hfirst, hrest, Except.map] at h
      | ok rest =>
        obtain rfl : b :: rest = breakers := by simpa [hfirst, hrest, Except.map] using h
        obtain ⟨hnames, heach⟩ := ih hrest
        obtain rfl := (fromDict_ok_iff.mp hfirst).1
        rw [List.forall_mem_cons]
        exact ⟨congrArg _ hnames, hfirst, heach⟩

theorem buildManager_ready (hdates : ReadsDatetimes lib.toRuntime) {file : Option String}
    (h : buildManager lib s file = .ok m) : Ready s m := by
  rw [buildManager] at h
  cases hloaded : loadBreakers lib.toLibraries file with
  | error e => simp [hloaded] at h
  | ok loaded =>
    cases hread : readAll lib s.config loaded services with
    | error e => simp [hloaded, hread, Except.map] at h
    | ok breakers =>
      obtain rfl : (⟨s.enabled, s.config, breakers⟩ : Manager) = m := by
        simpa [hloaded, hread, Except.map] using h
      obtain ⟨hservices, heach⟩ := readAll_ok hread
      refine ⟨rfl, rfl, hservices, fun b hb => ?_, fun b hb => ?_⟩
      · exact (fromDict_ok_iff.mp (heach b hb)).2.1
      · obtain ⟨-, -, -, -, hopened, hfailed, -⟩ := fromDict_ok_iff.mp (heach b hb)
        constructor
        · intro t ht
          exact readIso_inRange hdates (ht ▸ hopened)
        · intro t ht
          exact readIso_inRange hdates (ht ▸ hfailed)

theorem get_mem (h : Ready s m) {service : String} (hservice : service ∈ services) :
    m.get service ∈ m.breakers := by
  rw [← h.names] at hservice
  obtain ⟨b, hb, hname⟩ := List.mem_map.mp hservice
  cases hget : KeyedList.get Breaker.service m.breakers service with
  | none => exact absurd hname (KeyedList.get_none_iff.mp hget b hb)
  | some found =>
    rw [Manager.get, hget]
    exact KeyedList.get_mem hget

theorem Ready.put (h : Ready s m) {b : Breaker} (hservice : b.service ∈ services)
    (hconfig : b.toConfig = s.config) (hdated : Dated b) : Ready s (m.put b) := by
  refine ⟨h.enabled, h.config, ?_, fun other hother => ?_, fun other hother => ?_⟩
  · rw [← h.names] at hservice
    exact (KeyedList.keys_upsert hservice).trans h.names
  · obtain rfl | hold := KeyedList.mem_upsert hother
    · exact hconfig
    · exact h.configured other hold
  · obtain rfl | hold := KeyedList.mem_upsert hother
    · exact hdated
    · exact h.dated other hold

theorem Ready.ask (h : Ready s m) {service : String} (hservice : service ∈ services) {now : Int}
    {allowed : Bool} {after : Manager} (hask : m.ask service now = .ok (allowed, after)) :
    Ready s after := by
  have hmem := get_mem h hservice
  rw [Manager.ask] at hask
  cases hallow : (m.get service).allowRequest now with
  | error e => simp [hallow] at hask
  | ok answer =>
    obtain ⟨admitted, b⟩ := answer
    obtain ⟨rfl, rfl⟩ : admitted = allowed ∧ m.put b = after := by simpa [hallow] using hask
    have hconfig : b.toConfig = (m.get service).toConfig := by
      have hcases := allowRequest_cases (m.get service) now
      rw [hallow] at hcases
      cases hcases <;> rfl
    refine h.put ?_ (hconfig.trans (h.configured _ hmem)) ((h.dated _ hmem).allowed hallow)
    rw [allowRequest_service hallow, get_service]
    exact hservice

theorem Ready.conclude (h : Ready s m) {service : String} (hservice : service ∈ services)
    (outcome : Except PyError Unit) {now : Int} (hnow : InRange now) :
    Ready s (m.conclude service outcome now) := by
  have hmem := get_mem h hservice
  have hname : (m.get service).service ∈ services := by rwa [get_service]
  have hconfig := h.configured _ hmem
  cases outcome with
  | ok => exact h.put hname hconfig (recordSuccess_dated _)
  | error e =>
    refine h.put ?_ ?_ ((h.dated _ hmem).failure hnow _)
    · rwa [recordFailure_service]
    · rw [← hconfig, Breaker.recordFailure]
      split
      · rfl
      · split <;> rfl

end Breakers

/-- The two lists of the document, where they are there, are lists of strings. -/
def WellKept (overrides : Dict) : Prop :=
  ∀ key ∈ ["scopes_enabled", "rules_allowed_scopes"],
    field overrides key = none ∨ ∃ scopes, field overrides key = some (scopesJson scopes)

section Overrides

variable {overrides : Dict}

theorem scopeList_scopesJson (scopes : List String) :
    scopeList (scopesJson scopes) = some scopes := by
  have hstrings : (scopes.map Json.str).filterMap Json.asStr = scopes := by
    rw [List.filterMap_map]
    exact List.filterMap_some
  rw [scopesJson, scopeList, hstrings]

theorem stringSet_scopesJson (scopes : List String) :
    stringSet (scopesJson scopes) = .ok scopes := by
  have hstrings : (scopes.map Json.str).filterMap Json.asStr = scopes :=
    Option.some.inj (scopeList_scopesJson scopes)
  have hhashable : (scopes.map Json.str).find? (fun item => !hashable item) = none := by
    rw [List.find?_eq_none]
    intro item hitem
    obtain ⟨scope, -, rfl⟩ := List.mem_map.mp hitem
    simp [hashable]
  rw [scopesJson, stringSet, hhashable, hstrings]

def listed (overrides : Dict) (key : String) : Option (List String) :=
  (field overrides key).bind scopeList

theorem overridesOf_obj (overrides : Dict) : overridesOf (some (.obj overrides)) =
    ⟨listed overrides "scopes_enabled", listed overrides "rules_allowed_scopes"⟩ := by
  have hlist : ∀ key, scopeList (overrides.lookup key) = listed overrides key := by
    intro key
    rw [lookup_eq_field, listed]
    cases field overrides key <;> rfl
  rw [overridesOf, dictOf, hlist, hlist]

theorem WellKept.field_listed (h : WellKept overrides) {key : String}
    (hkey : key ∈ ["scopes_enabled", "rules_allowed_scopes"]) :
    field overrides key = (listed overrides key).map scopesJson := by
  rw [listed]
  obtain hnone | ⟨scopes, hscopes⟩ := h key hkey
  · rw [hnone]
    rfl
  · rw [hscopes, Option.bind_some, scopeList_scopesJson]
    rfl

theorem currentScopes_listed (h : WellKept overrides) (default : List String) :
    currentScopes overrides default = .ok ((listed overrides "scopes_enabled").getD default) := by
  rw [currentScopes, h.field_listed (by simp)]
  cases listed overrides "scopes_enabled" with
  | none => rfl
  | some scopes => exact stringSet_scopesJson scopes

theorem field_setDefault {key other : String} (hne : key ≠ other) (scopes missing : List String)
    (asked : String) :
    field (setDefault (overrides.set key (scopesJson scopes)) other missing) asked =
      if asked = key then some (scopesJson scopes)
      else if asked = other then some ((field overrides other).getD (scopesJson missing))
      else field overrides asked := by
  have hother : field (overrides.set key (scopesJson scopes)) other = field overrides other := by
    rw [field_set, if_neg hne]
  rw [setDefault, hother]
  cases hfield : field overrides other with
  | none =>
    dsimp only
    rw [field_set, field_set]
    by_cases hkey : asked = key
    · subst hkey
      simp [Ne.symm hne]
    · by_cases hasked : asked = other
      · subst hasked
        simp [hkey]
      · simp [hkey, hasked, Ne.symm hkey, Ne.symm hasked]
  | some value =>
    dsimp only
    rw [field_set]
    by_cases hkey : asked = key
    · simp [hkey]
    · by_cases hasked : asked = other
      · subst hasked
        simp [hkey, Ne.symm hkey, hfield]
      · simp [hkey, hasked, Ne.symm hkey]

theorem WellKept.setDefault (h : WellKept overrides) (key other : String) (hne : key ≠ other)
    (hother : other ∈ ["scopes_enabled", "rules_allowed_scopes"]) (scopes missing : List String) :
    let written := setDefault (overrides.set key (scopesJson scopes)) other missing
    WellKept written ∧ listed written key = some scopes ∧
      listed written other = some ((listed overrides other).getD missing) := by
  intro written
  have hfield : ∀ asked, field written asked = _ := field_setDefault hne scopes missing
  have hgetD : (field overrides other).getD (scopesJson missing) =
      scopesJson ((listed overrides other).getD missing) := by
    rw [h.field_listed hother]
    cases listed overrides other <;> rfl
  refine ⟨fun asked hasked => ?_, ?_, ?_⟩
  · rw [hfield]
    split
    · exact .inr ⟨_, rfl⟩
    · split
      · exact .inr ⟨_, congrArg some hgetD⟩
      · exact h asked hasked
  · rw [listed, hfield, if_pos rfl, Option.bind_some, scopeList_scopesJson]
  · rw [listed, hfield, if_neg (Ne.symm hne), if_pos rfl, hgetD, Option.bind_some,
      scopeList_scopesJson]

theorem scopesJson_genuine (IsFloat : String → Prop) (scopes : List String) :
    Genuine IsFloat (scopesJson scopes) := by
  refine .arr fun item hitem => ?_
  obtain ⟨scope, -, rfl⟩ := List.mem_map.mp hitem
  exact .str scope

theorem setDefault_genuine {IsFloat : String → Prop} (h : Genuine IsFloat (.obj overrides))
    (key other : String) (scopes missing : List String) :
    Genuine IsFloat (.obj (setDefault (overrides.set key (scopesJson scopes)) other missing)) := by
  have hset := set_genuine h key (scopesJson_genuine IsFloat scopes)
  rw [setDefault]
  split
  · exact set_genuine hset other (scopesJson_genuine IsFloat missing)
  · exact hset

theorem editDict_ok (h : WellKept overrides) {IsFloat : String → Prop}
    (hgenuine : Genuine IsFloat (.obj overrides)) (policy : PermissionsPolicy) (request : Request)
    (scopes : List String) :
    ∃ written, editDict policy overrides request scopes = .ok written ∧ WellKept written ∧
      Genuine IsFloat (.obj written) ∧
      overridesOf (some (.obj written)) =
        edit policy (overridesOf (some (.obj overrides))) request scopes := by
  have henabled : ∀ enabled : List String,
      let written := writeEnabled policy overrides enabled
      WellKept written ∧ Genuine IsFloat (.obj written) ∧ overridesOf (some (.obj written)) =
        ⟨some (sortedSet (canonical enabled)), some ((listed overrides "rules_allowed_scopes").getD
          policy.snapshotModel.rulesAllowedScopes)⟩ := by
    intro enabled written
    obtain ⟨hkept, hkey, hother⟩ := h.setDefault "scopes_enabled"
      "rules_allowed_scopes" (by decide) (by simp) (sortedSet (canonical enabled))
      policy.snapshotModel.rulesAllowedScopes
    exact ⟨hkept, setDefault_genuine hgenuine _ _ _ _, by
      rw [overridesOf_obj, ← hkey, ← hother]; rfl⟩
  have hrules : ∀ rules : List String,
      let written := writeRules policy overrides rules
      WellKept written ∧ Genuine IsFloat (.obj written) ∧ overridesOf (some (.obj written)) =
        rulesOverrides policy (overridesOf (some (.obj overrides))) rules := by
    intro rules written
    obtain ⟨hkept, hkey, hother⟩ := h.setDefault "rules_allowed_scopes"
      "scopes_enabled" (by decide) (by simp) rules
      (sortedSet policy.explicitScopesEnabled)
    refine ⟨hkept, setDefault_genuine hgenuine _ _ _ _, ?_⟩
    rw [overridesOf_obj, overridesOf_obj, rulesOverrides, ← hkey, ← hother]
    rfl
  cases request with
  | enableScopes asked =>
    rw [editDict, currentScopes_listed h, overridesOf_obj]
    exact ⟨_, rfl, henabled _⟩
  | disableScopes asked =>
    rw [editDict, currentScopes_listed h, overridesOf_obj]
    exact ⟨_, rfl, henabled _⟩
  | setRulesAllowedScopes asked => exact ⟨_, rfl, hrules _⟩
  | resetRulesAllowedScopes => exact ⟨_, rfl, hrules _⟩

/-- The file holds a well kept document with these lists. -/
def Keeps (lib : Libraries) (file : Option String) (lists : Overrides) : Prop :=
  ∃ overrides, loadOverrides lib file = .ok overrides ∧ WellKept overrides ∧
    overridesOf (some (.obj overrides)) = lists

section Files

variable {lib : Libraries} {floats : Floats} {env : PolicyEnv} {file : Option String}
  {lists : Overrides}

theorem loadOverrides_genuine (hloads : lib.loads = loads floats)
    (h : loadOverrides lib file = .ok overrides) : Genuine (IsFloat floats) (.obj overrides) := by
  have hempty : Genuine (IsFloat floats) (.obj []) := .obj List.nodup_nil (by simp)
  rw [loadOverrides] at h
  cases file with
  | none =>
    cases h
    exact hempty
  | some text =>
    rw [readDocument, jsonLoads, hloads] at h
    split at h
    · cases h
    · obtain rfl : dictOf (loads floats text) = overrides := by simpa [Except.map] using h
      cases hread : loads floats text with
      | none => exact hempty
      | some j =>
        cases j with
        | obj d => exact loads_genuine hread
        | _ => exact hempty

theorem Keeps.loadPolicy (h : Keeps lib file lists) (env : PolicyEnv) :
    loadPolicy lib env file = .ok (buildPolicy lib.toRuntime env lists) := by
  obtain ⟨overrides, hload, -, rfl⟩ := h
  rw [StateFiles.loadPolicy]
  cases henabled : env.overridesEnabled lib.toRuntime with
  | false =>
    rw [buildPolicy, buildPolicy, henabled]
    rfl
  | true =>
    rw [loadOverrides] at hload
    cases hdocument : readDocument lib file with
    | error e => simp [hdocument, Except.map] at hload
    | ok document =>
      obtain rfl : dictOf document = overrides := by simpa [hdocument, Except.map] using hload
      rfl

theorem keeps_saved (hloads : lib.loads = loads floats)
    (hquiet : Loadable lib (some (overridesText overrides))) (h : WellKept overrides)
    (hgenuine : Genuine (IsFloat floats) (.obj overrides)) :
    Keeps lib (some (overridesText overrides)) (overridesOf (some (.obj overrides))) := by
  have hkeys := (genuine_obj_iff.mp hgenuine).1
  have hdocument := readDocument_read hloads hquiet (loads_dumpsSorted_obj hgenuine)
  have hfield : ∀ key ∈ ["scopes_enabled", "rules_allowed_scopes"],
      field (arranged overrides) key = field overrides key := by
    intro key hkey
    rw [field_arranged hkeys, h.field_listed hkey]
    cases listed overrides key with
    | none => rfl
    | some scopes => exact congrArg some (sortedJson_scopesJson scopes)
  refine ⟨arranged overrides, ?_, fun key hkey => ?_, ?_⟩
  · rw [loadOverrides, hdocument]
    rfl
  · rw [hfield key hkey]
    exact h key hkey
  · rw [overridesOf_obj, overridesOf_obj, listed, listed, listed, listed, hfield _ (by simp),
      hfield _ (by simp)]

/-- An endpoint answers as it does on the two lists of the file, and writes what it makes of
them. -/
theorem handleFile_handle (hloads : lib.loads = loads floats) (h : Keeps lib file lists)
    (request : Request) (hquiet : Loadable lib (handleFile lib env file request).2) :
    (handleFile lib env file request).1 = (handle lib.toRuntime env lists request).1 ∧
      Keeps lib (handleFile lib env file request).2
        (handle lib.toRuntime env lists request).2 := by
  have hpolicy := h.loadPolicy env
  unfold handleFile at hquiet ⊢
  unfold handle
  cases hscopes : validateScopes request.scopes with
  | error e => exact ⟨rfl, h⟩
  | ok scopes =>
    simp only [hscopes, hpolicy] at hquiet ⊢
    cases hguard : guardOverridesEnabled (buildPolicy lib.toRuntime env lists) with
    | error e => exact ⟨rfl, h⟩
    | ok _ =>
      obtain ⟨overrides, hload, hkept, rfl⟩ := h
      obtain ⟨written, hedit, hwritten, hgenuine, hlists⟩ := editDict_ok hkept
        (loadOverrides_genuine hloads hload)
        (buildPolicy lib.toRuntime env (overridesOf (some (.obj overrides)))) request scopes
      have hresult : (loadOverrides lib file >>= fun overrides' => editDict
          (buildPolicy lib.toRuntime env (overridesOf (some (.obj overrides)))) overrides' request
            scopes) = .ok written := by
        rw [hload]
        exact hedit
      simp only [hguard, hresult] at hquiet ⊢
      have hkeeps := keeps_saved hloads hquiet hwritten hgenuine
      rw [hlists] at hkeeps
      exact ⟨by rw [hkeeps.loadPolicy env]; rfl, hkeeps⟩

end Files

end Overrides

structure Sound (floats : Floats) (status : List (String × Dict)) : Prop where
  names : status.map Prod.fst = jobNames
  fields : ∀ entry ∈ status, defaultJobStatus.map Prod.fst <+: entry.2.map Prod.fst
  genuine : ∀ entry ∈ status, Genuine (IsFloat floats) (.obj entry.2)

theorem keys_set (d : Dict) (key : String) (value : Json) :
    d.map Prod.fst <+: (d.set key value).map Prod.fst := by
  induction d with
  | nil => exact List.nil_prefix
  | cons kv d ih =>
    rw [Dict.set]
    split
    · rename_i hkey
      rw [List.map_cons, List.map_cons, hkey]
    · exact List.prefix_cons_inj _ |>.mpr ih

theorem keys_update (d more : Dict) : d.map Prod.fst <+: (d.update more).map Prod.fst := by
  induction more generalizing d with
  | nil => exact List.prefix_rfl
  | cons kv more ih => exact (keys_set d kv.1 kv.2).trans (ih _)

theorem set_behind {front : Dict} {key : String} (h : key ∉ front.map Prod.fst) (old value : Json)
    (rest : Dict) :
    Dict.set (front ++ (key, old) :: rest) key value = front ++ (key, value) :: rest := by
  induction front with
  | nil => simp [Dict.set]
  | cons kv front ih =>
    simp only [List.map_cons, List.mem_cons, not_or] at h
    simp [Dict.set, Ne.symm h.1, ih h.2]

theorem update_values (front : Dict) {d other : Dict} (hkeys : d.map Prod.fst = other.map Prod.fst)
    (h : ((front ++ d).map Prod.fst).Nodup) : Dict.update (front ++ d) other = front ++ other := by
  induction other generalizing front d with
  | nil =>
    obtain rfl : d = [] := by simpa using hkeys
    rfl
  | cons kv other ih =>
    obtain ⟨key, value⟩ := kv
    cases d with
    | nil => simp at hkeys
    | cons first d =>
      obtain ⟨key', old⟩ := first
      obtain ⟨rfl, hrest⟩ : key' = key ∧ d.map Prod.fst = other.map Prod.fst := by
        simpa using hkeys
      have hfront : key' ∉ front.map Prod.fst := by
        rw [List.map_append, List.nodup_append] at h
        intro hmem
        exact h.2.2 key' hmem key' (by simp) rfl
      have happend : front ++ (key', value) :: d = (front ++ [(key', value)]) ++ d := by simp
      rw [Dict.update, List.foldl_cons]
      dsimp only
      rw [set_behind hfront, happend, ← Dict.update, ih _ hrest]
      · simp
      · simpa using h

theorem update_absorbs {d other : Dict} (hkeys : d.map Prod.fst <+: other.map Prod.fst)
    (h : (other.map Prod.fst).Nodup) : Dict.update d other = other := by
  obtain ⟨more, hmore⟩ := hkeys
  have hsplit : other = other.take d.length ++ other.drop d.length := by simp
  have hfirst : d.map Prod.fst = (other.take d.length).map Prod.fst := by
    rw [List.map_take, ← hmore]
    simp
  have hd : ((([] : Dict) ++ d).map Prod.fst).Nodup := by
    refine List.Nodup.sublist ?_ h
    rw [← hmore, List.nil_append]
    exact List.sublist_append_left _ _
  have hvalues := update_values [] hfirst hd
  have hdistinct : Dict.update (other.take d.length) (other.drop d.length) = other := by
    rw [update_distinct (other.take d.length) (by rwa [← hsplit]), ← hsplit]
  calc Dict.update d other
      = Dict.update (Dict.update d (other.take d.length)) (other.drop d.length) := by
        rw [Dict.update, Dict.update, Dict.update, ← List.foldl_append, ← hsplit]
    _ = Dict.update (other.take d.length) (other.drop d.length) := by
        rw [List.nil_append, List.nil_append] at hvalues
        rw [hvalues]
    _ = other := hdistinct

section Status

variable {lib : Libraries} {floats : Floats} {file : Option String} {status : List (String × Dict)}

theorem defaultJobStatus_genuine (IsFloat : String → Prop) :
    Genuine IsFloat (.obj defaultJobStatus) := by
  have hempty : Genuine IsFloat (.obj []) := .obj List.nodup_nil (by simp)
  refine .obj (by decide) ?_
  simp only [defaultJobStatus, List.forall_mem_cons, List.not_mem_nil, false_implies, implies_true,
    and_true]
  exact ⟨.null, .null, hempty, hempty, .null⟩

theorem jobStatus_sound {document : Option Json}
    (h : ∀ j, document = some j → Genuine (IsFloat floats) j) (job : String) :
    defaultJobStatus.map Prod.fst <+: (jobStatus document job).map Prod.fst ∧
      Genuine (IsFloat floats) (.obj (jobStatus document job)) := by
  have hdefault := defaultJobStatus_genuine (IsFloat floats)
  have hlookup : Genuine (IsFloat floats) ((dictOf document).lookup job) := by
    cases document with
    | none => exact .null
    | some j =>
      cases j with
      | obj d =>
        rw [dictOf, lookup_eq_field]
        cases hfield : KeyedList.get Prod.fst d job with
        | none =>
          rw [field_eq_get, hfield]
          exact .null
        | some kv =>
          rw [field_eq_get, hfield]
          exact (genuine_obj_iff.mp (h _ rfl)).2 kv (KeyedList.get_mem hfield)
      | _ => exact .null
  rw [jobStatus]
  split
  · rename_i value hvalue
    rw [hvalue] at hlookup
    exact ⟨keys_update _ _, update_genuine hdefault (genuine_obj_iff.mp hlookup).2⟩
  · exact ⟨List.prefix_rfl, hdefault⟩

theorem loaded_sound (hloads : lib.loads = loads floats)
    (h : loadMaintenanceStatus lib file = .ok status) : Sound floats status := by
  rw [loadMaintenanceStatus] at h
  cases hdocument : readDocument lib file with
  | error e => simp [hdocument, Except.map] at h
  | ok document =>
    obtain rfl : jobNames.map (fun job => (job, jobStatus document job)) = status := by
      simpa [hdocument, Except.map] using h
    have hgenuine : ∀ j, document = some j → Genuine (IsFloat floats) j := by
      rintro j rfl
      cases file with
      | none => cases hdocument
      | some text =>
        rw [readDocument, jsonLoads, hloads] at hdocument
        split at hdocument
        · cases hdocument
        · exact loads_genuine (Except.ok.inj hdocument)
    refine ⟨rfl, fun entry hentry => ?_, fun entry hentry => ?_⟩
    · obtain ⟨job, -, rfl⟩ := List.mem_map.mp hentry
      exact (jobStatus_sound hgenuine job).1
    · obtain ⟨job, -, rfl⟩ := List.mem_map.mp hentry
      exact (jobStatus_sound hgenuine job).2

/-- What a job notes is a document. -/
def JobRun.Valid (floats : Floats) (run : JobRun) : Prop :=
  Genuine (IsFloat floats) (.obj run.summary) ∧ Genuine (IsFloat floats) (.obj run.details)

theorem Sound.noted (h : Sound floats status) {run : JobRun} (hrun : run.Valid floats) :
    Sound floats (KeyedList.upsert Prod.fst (run.job.name, run.entry) status) := by
  have hentry : Genuine (IsFloat floats) (.obj run.entry) := by
    refine .obj (by simp [JobRun.entry]) ?_
    simp only [JobRun.entry, List.forall_mem_cons, List.not_mem_nil, false_implies, implies_true,
      and_true]
    exact ⟨.str _, .bool _, hrun.1, hrun.2, .str _⟩
  have hname : run.job.name ∈ status.map Prod.fst := by
    rw [h.names]
    cases run.job <;> decide
  refine ⟨?_, fun entry hmem => ?_, fun entry hmem => ?_⟩
  · rw [KeyedList.keys_upsert hname, h.names]
  · obtain rfl | hold := KeyedList.mem_upsert hmem
    · exact List.prefix_rfl
    · exact h.fields entry hold
  · obtain rfl | hold := KeyedList.mem_upsert hmem
    · exact hentry
    · exact h.genuine entry hold

/-- A sound status is read back as it was saved. -/
theorem loadMaintenanceStatus_saved (hloads : lib.loads = loads floats)
    (hquiet : Loadable lib (some (maintenanceText status))) (h : Sound floats status) :
    loadMaintenanceStatus lib (some (maintenanceText status)) = .ok status := by
  have hnames : (status.map fun entry => (entry.1, Json.obj entry.2)).map Prod.fst = jobNames := by
    rw [← h.names, List.map_map]
    rfl
  have hnodup : ((status.map fun entry => (entry.1, Json.obj entry.2)).map Prod.fst).Nodup := by
    rw [hnames]
    decide
  have hgenuine : Genuine (IsFloat floats)
      (.obj (status.map fun entry => (entry.1, Json.obj entry.2))) := by
    refine .obj hnodup fun kv hkv => ?_
    obtain ⟨entry, hentry, rfl⟩ := List.mem_map.mp hkv
    exact h.genuine entry hentry
  have hdocument := readDocument_read hloads hquiet (loads_dumpsIndented_line hgenuine)
  have heach : ∀ entry ∈ status,
      jobStatus (some (.obj (status.map fun entry => (entry.1, Json.obj entry.2)))) entry.1 =
        entry.2 := by
    intro entry hentry
    have hmem : (entry.1, Json.obj entry.2) ∈ status.map fun entry => (entry.1, Json.obj entry.2) :=
      List.mem_map.mpr ⟨entry, hentry, rfl⟩
    have hget := (KeyedList.get_self_iff hnodup).mpr hmem
    dsimp only at hget
    have hlookup : Dict.lookup (status.map fun entry => (entry.1, Json.obj entry.2)) entry.1 =
        .obj entry.2 := by
      rw [lookup_eq_field, field_eq_get, hget]
      rfl
    rw [jobStatus, dictOf, hlookup]
    exact update_absorbs (h.fields entry hentry) (genuine_obj_iff.mp (h.genuine entry hentry)).1
  have hstatus : (status.map Prod.fst).map (fun job => (job, jobStatus (some (.obj
      (status.map fun entry => (entry.1, Json.obj entry.2)))) job)) = status := by
    rw [List.map_map]
    calc status.map _ = status.map id := List.map_congr_left fun entry hentry => by
          rw [Function.comp, heach entry hentry]
          rfl
      _ = status := List.map_id status
  rw [loadMaintenanceStatus, hdocument, ← h.names]
  exact congrArg Except.ok hstatus

end Status

/-- The loaders find in the files what the memory has. -/
structure Opened (host : Host) (files : Files) (mem : Memory) : Prop where
  breakers : buildManager host.lib host.settings files.breakers = .ok mem.manager
  safeMode : StateFiles.isSafeModeEnabled host.lib.toLibraries host.safeMode files.safeMode =
    .ok (envForcedOn host.lib.toLibraries host.safeMode || mem.safeMode)
  overrides : Keeps host.lib.toLibraries files.overrides mem.overrides
  status : loadMaintenanceStatus host.lib.toLibraries files.maintenance = .ok mem.status

/-- The requests are for services, at times that exist, and what a job notes is a document. -/
def Op.Valid (floats : Floats) : Op → Prop
  | .ask service _ => service ∈ services
  | .conclude service _ now => service ∈ services ∧ InRange now
  | .updateJobStatus run => run.Valid floats
  | _ => True

/-- `json.loads` takes the texts of the files. -/
def Quiet (host : Host) (files : Files) : Prop :=
  ∀ file ∈ [files.breakers, files.safeMode, files.overrides, files.maintenance],
    Loadable host.lib.toLibraries file

def advance (host : Host) (p : Process) (op : Op) : Process := (observe host p op).2

def remember (host : Host) (mem : Memory) (op : Op) : Memory := (recollect host mem op).2

/-- What the process relies on: `json.loads`, `fromisoformat` and the range of datetimes. -/
structure Reliable (lib : Conversions) (floats : Floats) : Prop where
  loads : lib.loads = loads floats
  timestamps : ReadsTimestamps lib.toRuntime
  datetimes : ReadsDatetimes lib.toRuntime

section Runs

variable {host : Host} {floats : Floats} {files : Files} {mem : Memory}

theorem Opened.persist (h : Opened host files mem) (hlib : Reliable host.lib floats) {m : Manager}
    (hready : Ready host.settings m)
    (hquiet : Quiet host (Process.persist ⟨mem.manager, files⟩ m).files) :
    Opened host (Process.persist ⟨mem.manager, files⟩ m).files { mem with manager := m } where
  breakers := buildManager_saved hlib.loads hlib.timestamps (hquiet _ (by simp [Process.persist]))
    hready
  safeMode := h.safeMode
  overrides := h.overrides
  status := h.status

theorem isSafeModeEnabled_saved (hlib : Reliable host.lib floats) (enabled : Bool)
    (hquiet : Loadable host.lib.toLibraries (some (safeModeText enabled))) :
    StateFiles.isSafeModeEnabled host.lib.toLibraries host.safeMode (some (safeModeText enabled)) =
      .ok (envForcedOn host.lib.toLibraries host.safeMode || enabled) := by
  have hgenuine : Genuine (IsFloat floats) (.obj [("enabled", .bool enabled)]) :=
    .obj (by simp) (by simp [Genuine.bool])
  have hplain : Plain ⟨", ", ": ", true, false⟩ := ⟨⟨[' '], rfl, rfl⟩, ⟨[' '], rfl, rfl⟩, rfl⟩
  have hread : loads floats (safeModeText enabled) = some (.obj [("enabled", .bool enabled)]) :=
    loads_dumpsWith hplain hgenuine
  have hdocument := readDocument_read hlib.loads hquiet hread
  rw [StateFiles.isSafeModeEnabled, hdocument]
  cases envForcedOn host.lib.toLibraries host.safeMode with
  | true => rfl
  | false => simp [Dict.lookup, Json.isTruthy]

/-- A call is answered as the memory answers it, and the files are read as the memory that is
left. -/
theorem observe_recollect (hlib : Reliable host.lib floats) (h : Opened host files mem) {op : Op}
    (hop : op.Valid floats) (hquiet : Quiet host (advance host ⟨mem.manager, files⟩ op).files) :
    (observe host ⟨mem.manager, files⟩ op).1 = (recollect host mem op).1 ∧
      (advance host ⟨mem.manager, files⟩ op).manager = (remember host mem op).manager ∧
      Opened host (advance host ⟨mem.manager, files⟩ op).files (remember host mem op) := by
  have hready := buildManager_ready hlib.datetimes h.breakers
  unfold advance at hquiet ⊢
  unfold remember
  cases op with
  | restart =>
    rw [observe, Process.restart, h.breakers]
    exact ⟨rfl, rfl, h⟩
  | ask service now =>
    simp only [observe, recollect, Process.ask, Memory.ask] at hquiet ⊢
    cases henabled : mem.manager.enabled with
    | false => exact ⟨rfl, rfl, h⟩
    | true =>
      cases hask : mem.manager.ask service now with
      | error e => exact ⟨rfl, rfl, h⟩
      | ok answer =>
        obtain ⟨allowed, m⟩ := answer
        have hafter := hready.ask hop hask
        simp only [henabled, hask] at hquiet ⊢
        cases allowed with
        | true => exact ⟨rfl, rfl, h.persist hlib hafter hquiet⟩
        | false => exact ⟨rfl, rfl, h.persist hlib hafter hquiet⟩
  | conclude service outcome now =>
    simp only [observe, recollect, Process.conclude, Memory.conclude] at hquiet ⊢
    cases henabled : mem.manager.enabled with
    | false => exact ⟨rfl, rfl, h⟩
    | true =>
      simp only [henabled] at hquiet ⊢
      exact ⟨rfl, rfl, h.persist hlib (hready.conclude hop.1 outcome hop.2) hquiet⟩
  | setSafeMode enabled =>
    have hsaved := isSafeModeEnabled_saved hlib enabled
      (hquiet _ (List.mem_cons_of_mem _ List.mem_cons_self))
    exact ⟨rfl, rfl, h.breakers, hsaved, h.overrides, h.status⟩
  | isSafeModeEnabled =>
    rw [observe, h.safeMode]
    exact ⟨rfl, rfl, h⟩
  | editPolicy request =>
    have hsaved : Loadable host.lib.toLibraries
        (handleFile host.lib.toLibraries host.env files.overrides request).2 :=
      hquiet _ (by simp [observe, Process.editPolicy])
    obtain ⟨hanswer, hkeeps⟩ := handleFile_handle hlib.loads h.overrides request hsaved
    exact ⟨congrArg _ hanswer, rfl, h.breakers, h.safeMode, hkeeps, h.status⟩
  | getScopes =>
    rw [observe, h.overrides.loadPolicy]
    exact ⟨rfl, rfl, h⟩
  | updateJobStatus run =>
    have hsound := (loaded_sound hlib.loads h.status).noted hop
    have hsaved : Loadable host.lib.toLibraries (some (maintenanceText
        (KeyedList.upsert Prod.fst (run.job.name, run.entry) mem.status))) :=
      hquiet _ (by simp [observe, Process.updateJobStatus, h.status])
    have hstatus := loadMaintenanceStatus_saved hlib.loads hsaved hsound
    rw [observe, Process.updateJobStatus, h.status]
    exact ⟨rfl, rfl, h.breakers, h.safeMode, h.overrides, hstatus⟩
  | loadStatus =>
    rw [observe, h.status]
    exact ⟨rfl, rfl, h⟩

/-- Over any run from files that are read, every answer is that of a memory which is never lost,
wherever the process is started again, and the files are read as this memory. -/
theorem documents_refine_memory (hlib : Reliable host.lib floats) (h : Opened host files mem)
    {ops : List Op} (hops : ∀ op ∈ ops, op.Valid floats)
    (hquiet : ∀ t ∈ SerialRun.transitions (advance host) ⟨mem.manager, files⟩ ops,
      Quiet host t.after.files) :
    SerialRun.observations (observe host) ⟨mem.manager, files⟩ ops =
        SerialRun.observations (recollect host) mem ops ∧
      Opened host (SerialRun.final (advance host) ⟨mem.manager, files⟩ ops).files
        (SerialRun.final (remember host) mem ops) := by
  induction ops generalizing files mem with
  | nil => exact ⟨rfl, h⟩
  | cons op rest ih =>
    obtain ⟨hanswer, hmanager, hopened⟩ := observe_recollect hlib h (hops op List.mem_cons_self)
      (hquiet _ List.mem_cons_self)
    have hafter : advance host ⟨mem.manager, files⟩ op =
        ⟨(remember host mem op).manager, (advance host ⟨mem.manager, files⟩ op).files⟩ := by
      rw [← hmanager]
    obtain ⟨hanswers, hfinal⟩ := ih hopened (fun o ho => hops o (List.mem_cons_of_mem _ ho))
      fun t ht => hquiet t (List.mem_cons_of_mem _ (by rwa [hafter]))
    refine ⟨?_, ?_⟩
    · rw [SerialRun.observations, SerialRun.observations, hanswer]
      rw [← hafter] at hanswers
      exact congrArg _ hanswers
    · rw [SerialRun.final_cons, SerialRun.final_cons, hafter]
      exact hfinal

end Runs

def documentHost : Host where
  lib := { plainConversions with loads := loads noFloats }
  settings := ⟨true, 1, 60, 1⟩
  safeMode := none
  env := ⟨none, none, none, none⟩

theorem documentHost_reliable : Reliable documentHost.lib noFloats := by
  have hruntime : documentHost.lib.fromisoformat = fromIsoformat := rfl
  refine ⟨rfl, fun t h => ?_, fun text wall h => ?_⟩
  · rw [hruntime]
    exact fromIsoformat_isoformat h
  · rw [hruntime, fromIsoformat] at h
    split at h <;> cases h

def emptyMemory : Memory :=
  ⟨⟨true, ⟨1, 60, 1⟩, services.map fun service => fresh service ⟨1, 60, 1⟩⟩, false, ⟨none, none⟩,
    jobNames.map fun job => (job, defaultJobStatus)⟩

theorem emptyMemory_opened : Opened documentHost ⟨none, none, none, none⟩ emptyMemory where
  breakers := rfl
  safeMode := rfl
  overrides := ⟨[], rfl, by simp [WellKept, field], rfl⟩
  status := rfl

def lossyRun : List Op :=
  [.setSafeMode true, .ask "llm" 0, .restart, .conclude "llm" (.error (.other "down")) 1000000,
    .editPolicy (.enableScopes ["gmail.send"]), .restart, .ask "llm" 2000000,
    .updateJobStatus ⟨.weeklyCompact, "2026-01-06T09:00:00+00:00", true, [], [], "c1"⟩,
    .isSafeModeEnabled, .loadStatus]

theorem lossyRun_remembered :
    SerialRun.observations (observe documentHost) ⟨emptyMemory.manager, ⟨none, none, none, none⟩⟩
        lossyRun = SerialRun.observations (recollect documentHost) emptyMemory lossyRun ∧
      Opened documentHost (SerialRun.final (advance documentHost)
          ⟨emptyMemory.manager, ⟨none, none, none, none⟩⟩ lossyRun).files
        (SerialRun.final (remember documentHost) emptyMemory lossyRun) := by
  refine documents_refine_memory documentHost_reliable emptyMemory_opened ?_ ?_
  · simp only [lossyRun, List.forall_mem_cons, List.not_mem_nil, false_implies, implies_true,
      and_true, Op.Valid, JobRun.Valid, true_and]
    have hempty : Genuine (IsFloat noFloats) (.obj []) := .obj List.nodup_nil (by simp)
    exact ⟨by decide, ⟨by decide, by decide⟩, by decide, hempty, hempty⟩
  · intro t _ file _ text _
    rfl

end StateDocuments
