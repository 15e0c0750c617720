import Benjamin.Orchestrator
import Benjamin.SchedulerJobs
import Benjamin.SemanticMemory

/-!
# What a chat leaves in the memory

`WritePolicy`, `MemoryManager` and the briefing that reads the memory. A message with the
words of a preference is kept under the slug of its first words, so a later message with the
same slug takes its place. Every exchange leaves one episode. The briefing shows the five
oldest preferences.
-/
namespace ChatMemory

open PyBase JsonLines RecordModels RewrittenFiles JsonReader SemanticMemory Amendments
  CompactionRace AssistantState
open Orchestration (shorten)
open RuleMatching (occursIn)
open TornTail (episodicStore)

def preferencePatterns : List String :=
  ["from now on", "always", "never", "remember that", "my preference is"]

/-- `any(pattern in lowered for pattern in _PREFERENCE_PATTERNS)`. -/
def statesPreference (rt : Runtime) (message : String) : Bool :=
  preferencePatterns.any fun pattern => occursIn pattern (rt.casefold message)

/-- `[a-z0-9]`. -/
def isSlugChar (c : Char) : Bool := decide ('a' ≤ c ∧ c ≤ 'z') || c.isDigit

/-- `re.findall(r"[a-z0-9]+", text)`. -/
def slugWords (text : List Char) : List (List Char) :=
  (text.splitOnP fun c => !isSlugChar c).filter fun word => word ≠ []

/-- `_slugify(text)`. -/
def slugify (rt : Runtime) (text : String) : List Char :=
  ['-'].intercalate ((slugWords (rt.casefold text).toList).take 8)

/-- `self._slugify(user_message)[:48] or "user"`. -/
def keySlug (rt : Runtime) (message : String) : String :=
  if (slugify rt message).take 48 = [] then "user" else String.ofList ((slugify rt message).take 48)

structure SemanticUpsert where
  key : String
  value : String
  scope : String
  tags : List String

structure Proposal where
  semanticUpserts : List SemanticUpsert
  episodes : List Episode

/-- `propose_writes`. -/
def proposeWrites (rt : Runtime) (message answer : String) : Proposal where
  semanticUpserts :=
    if statesPreference rt message then
      [⟨"preference:" ++ keySlug rt message, strip message, "global", ["preference", "autowrite"]⟩]
    else []
  episodes :=
    [⟨"task", "User asked: " ++ shorten message ++ ". Assistant: " ++ shorten answer ++ ".", []⟩]

structure MemoryFiles where
  semantic : Option ByteArray
  episodic : ByteArray

/-- The clock and the identifiers that the writes of one `commit` draw. -/
structure Stamp where
  nowIso : String
  factId : Nat → String
  episodeId : Nat → String

section Manager

variable (lib : Libraries) (stamp : Stamp)

def commitFacts (n : Nat) : List SemanticUpsert → Option ByteArray →
    Except PyError Nat × Option ByteArray
  | [], file => (.ok n, file)
  | u :: rest, file =>
    match upsert lib ⟨stamp.nowIso, stamp.factId n, u.key, u.value, u.scope, some u.tags⟩ file with
    | (.error e, file) => (.error e, file)
    | (.ok _, file) => commitFacts (n + 1) rest file

def commitEpisodes (n : Nat) : List Episode → ByteArray → Nat × ByteArray
  | [], file => (n, file)
  | e :: rest, file =>
    commitEpisodes (n + 1) rest
      (episodicStore.appendLine file ⟨e, stamp.episodeId n, stamp.nowIso⟩)

/-- `MemoryManager.commit`: the counts of the facts and of the episodes. -/
def commit (p : Proposal) (files : MemoryFiles) : Except PyError (Nat × Nat) × MemoryFiles :=
  match commitFacts lib stamp 0 p.semanticUpserts files.semantic with
  | (.error e, semantic) => (.error e, { files with semantic })
  | (.ok factCount, semantic) =>
    let (episodeCount, episodic) := commitEpisodes stamp 0 p.episodes files.episodic
    (.ok (factCount, episodeCount), ⟨semantic, episodic⟩)

end Manager

structure Exchange where
  message : String
  answer : String
  stamp : Stamp

/-- The writes of `handle` with `autowrite_enabled`. -/
def remember (lib : Libraries) (files : MemoryFiles) (x : Exchange) :
    Except PyError (Nat × Nat) × MemoryFiles :=
  commit lib x.stamp (proposeWrites lib.toRuntime x.message x.answer) files

/-- `retrieve_context`. -/
def retrieveContext (lib : Libraries) (text : String) (limit : Int) (files : MemoryFiles) :
    Except PyError (List StoredFact × List StoredEpisode) :=
  let factLimit := max 1 (limit / 2)
  let episodeLimit := max 1 (limit - factLimit)
  match search lib text factLimit files.semantic with
  | .error e => .error e
  | .ok facts =>
    match episodicStore.loadAll lib files.episodic with
    | .error e => .error e
    | .ok episodes =>
      .ok (facts, NewestScans.episodicSearch lib.toRuntime text episodeLimit episodes)

def Exchange.states (rt : Runtime) (x : Exchange) : Bool := statesPreference rt x.message

def Exchange.write (rt : Runtime) (x : Exchange) : FactWrite :=
  ⟨x.stamp.nowIso, x.stamp.factId 0, "preference:" ++ keySlug rt x.message, strip x.message,
    "global", some ["preference", "autowrite"]⟩

def preferenceWrite (rt : Runtime) (x : Exchange) : Option FactWrite :=
  if x.states rt then some (x.write rt) else none

def episodeOf (x : Exchange) : StoredEpisode :=
  ⟨⟨"task", "User asked: " ++ shorten x.message ++ ". Assistant: " ++ shorten x.answer ++ ".", []⟩,
    x.stamp.episodeId 0, x.stamp.nowIso⟩

theorem remember_eq (lib : Libraries) (files : MemoryFiles) (x : Exchange) :
    remember lib files x =
      match preferenceWrite lib.toRuntime x with
      | none => (.ok (0, 1), { files with
          episodic := episodicStore.appendLine files.episodic (episodeOf x) })
      | some w =>
        match upsert lib w files.semantic with
        | (.error e, semantic) => (.error e, { files with semantic })
        | (.ok _, semantic) =>
          (.ok (1, 1), ⟨semantic, episodicStore.appendLine files.episodic (episodeOf x)⟩) := by
  unfold remember commit proposeWrites preferenceWrite Exchange.states
  cases statesPreference lib.toRuntime x.message with
  | false => rfl
  | true =>
    simp only [if_true, commitFacts, Exchange.write]
    rcases upsert lib _ files.semantic with ⟨_ | _, semantic⟩
    · rfl
    · rfl

/-- The file is text and has no unfinished line. -/
def Ended (content : ByteArray) : Prop :=
  ∃ text, decode content = some text ∧ strip (unfinished text) = ""

theorem filled_finished {text : String} (h : strip (unfinished text) = "") :
    filled (lines text) = filled (finished text) := by
  have hne : lines text ≠ [] := by
    simp [lines, List.splitOn_ne_nil]
  have hlast : unfinished text = (lines text).getLast hne := by
    rw [unfinished, List.getLast?_eq_some_getLast hne, Option.getD_some]
  have hsplit : lines text = finished text ++ [unfinished text] := by
    rw [hlast]
    exact (List.dropLast_append_getLast hne).symm
  rw [hsplit, filled_append, filled_cons, if_pos h]
  simp [filled]

section Appending

variable {ρ : Type} {S : TornTail.JsonlStore ρ} {lib : Libraries} {r : ρ} {content : ByteArray}

theorem loadAll_ended (hr : S.RoundTrips lib r) (hended : Ended content) {records : List ρ}
    (h : S.loadAll lib content = .ok records) :
    S.loadAll lib (S.appendLine content r) = .ok (records ++ [r]) := by
  obtain ⟨text, hdecode, hblank⟩ := hended
  rw [TornTail.JsonlStore.loadAll, hdecode] at h
  dsimp only at h
  rw [filled_finished hblank, TornTail.JsonlStore.readLines_ok_iff] at h
  obtain ⟨htame, rfl⟩ := h
  have hself : S.recordOn lib (S.text r) = some r :=
    TornTail.JsonlStore.recordOn_eq_some.mpr hr.2
  rw [TornTail.JsonlStore.loadAll_appendLine hr.1 hdecode,
    TornTail.JsonlStore.strip_after_blank S r hblank, TornTail.JsonlStore.readLines_ok_iff,
    List.forall_mem_append, List.forall_mem_singleton]
  exact ⟨⟨htame, some r, hr.2⟩, by simp [List.filterMap_append, hself]⟩

theorem ended_appendLine (hr : Unbroken (S.text r)) (hended : Ended content) :
    Ended (S.appendLine content r) := by
  obtain ⟨text, hdecode, -⟩ := hended
  refine ⟨text ++ (S.text r ++ "\n"), ?_, ?_⟩
  · rw [TornTail.JsonlStore.appendLine, decode_append, hdecode]
    rfl
  · rw [← String.append_assoc, unfinished,
      lines_append text hr (TornTail.JsonlStore.text_ne_empty S r)]
    simp [strip]

end Appending

def filesAfter (lib : Libraries) (files : MemoryFiles) (xs : List Exchange) : MemoryFiles :=
  SerialRun.final (fun files x => (remember lib files x).2) files xs

/-- The facts and the episodes that the files hold. -/
structure Holds (lib : Libraries) (files : MemoryFiles) (known : List StoredFact)
    (episodes : List StoredEpisode) : Prop where
  facts : loadFacts lib files.semantic = .ok known
  episodes : episodicStore.loadAll lib files.episodic = .ok episodes
  ended : Ended files.episodic

section Runs

variable {lib : Libraries} {floats : Floats} {files : MemoryFiles} {known : List StoredFact}
  {episodes : List StoredEpisode}

/-- No text that the memory writes makes `json.loads` give up. -/
structure Quiet (lib : Libraries) : Prop where
  facts : ∀ fact, lib.loadsRaises (recordLine semanticFile fact) = none
  episodes : ∀ x, lib.loadsRaises (episodicStore.text (episodeOf x)) = none

theorem episodeOf_roundTrips (hquiet : Quiet lib) (x : Exchange) :
    episodicStore.RoundTrips (reading lib floats) (episodeOf x) := by
  have hgenuine : Genuine (IsFloat floats) (.obj (StoredRecords.dumpEpisode (episodeOf x))) := by
    refine .obj (by simp [StoredRecords.dumpEpisode]) ?_
    simp [StoredRecords.dumpEpisode, episodeOf, Genuine.str, genuine_empty]
  have hloads : jsonLoads (reading lib floats) (episodicStore.text (episodeOf x)) =
      .ok (some (.obj (StoredRecords.dumpEpisode (episodeOf x)))) := by
    have hraises : (reading lib floats).loadsRaises (episodicStore.text (episodeOf x)) = none :=
      hquiet.episodes x
    have hread : (reading lib floats).loads (episodicStore.text (episodeOf x)) =
        some (.obj (StoredRecords.dumpEpisode (episodeOf x))) :=
      loads_dumpsWith plain_looseJson hgenuine
    rw [jsonLoads, hraises, hread]
  refine ⟨looseLine_unbroken hgenuine, ?_⟩
  rw [TornTail.JsonlStore.readLine, hloads]
  rfl

/-- One exchange: its preference amends the facts, and it is one more episode. -/
theorem remember_holds (hquiet : Quiet lib) (h : Holds (reading lib floats) files known episodes)
    (x : Exchange) :
    (remember (reading lib floats) files x).1 =
        .ok ((preferenceWrite lib.toRuntime x).toList.length, 1) ∧
      Holds (reading lib floats) (remember (reading lib floats) files x).2
        (amendAll facts known (preferenceWrite lib.toRuntime x).toList)
        (episodes ++ [episodeOf x]) := by
  have hround : episodicStore.RoundTrips (reading lib floats) (episodeOf x) :=
    episodeOf_roundTrips hquiet x
  have hepisodes := loadAll_ended hround h.ended h.episodes
  have hended := ended_appendLine hround.1 h.ended
  have hsame : (reading lib floats).toRuntime.casefold = lib.casefold := rfl
  have hwrite : preferenceWrite (reading lib floats).toRuntime x =
      preferenceWrite lib.toRuntime x :=
    rfl
  rw [remember_eq, hwrite]
  cases preferenceWrite lib.toRuntime x with
  | none => exact ⟨rfl, h.facts, hepisodes, hended⟩
  | some w =>
    have hupsert := upsert_ok h.facts w
    simp only [hupsert]
    exact ⟨rfl, load_facts hquiet.facts _, hepisodes, hended⟩

theorem exchanges_hold (hquiet : Quiet lib) (h : Holds (reading lib floats) files known episodes)
    (xs : List Exchange) :
    Holds (reading lib floats) (filesAfter (reading lib floats) files xs)
      (amendAll facts known (xs.filterMap (preferenceWrite lib.toRuntime)))
      (episodes ++ xs.map episodeOf) := by
  induction xs generalizing files known episodes with
  | nil =>
    change Holds (reading lib floats) files known (episodes ++ [])
    rwa [List.append_nil]
  | cons x rest ih =>
    have hrest := ih (remember_holds hquiet h x).2
    have hwrites : amendAll facts known ((x :: rest).filterMap (preferenceWrite lib.toRuntime)) =
        amendAll facts (amendAll facts known (preferenceWrite lib.toRuntime x).toList)
          (rest.filterMap (preferenceWrite lib.toRuntime)) := by
      cases hx : preferenceWrite lib.toRuntime x with
      | none => rw [List.filterMap_cons_none hx]; rfl
      | some w => rw [List.filterMap_cons_some hx]; rfl
    rw [hwrites]
    rw [List.append_assoc, List.singleton_append] at hrest
    exact hrest

theorem exchanges_answered (hquiet : Quiet lib)
    (h : Holds (reading lib floats) files known episodes) (xs : List Exchange) :
    SerialRun.observations (remember (reading lib floats)) files xs =
      xs.map fun x => .ok (if statesPreference lib.toRuntime x.message then 1 else 0, 1) := by
  induction xs generalizing files known episodes with
  | nil => rfl
  | cons x rest ih =>
    obtain ⟨hanswer, hafter⟩ := remember_holds hquiet h x
    have hcount : (preferenceWrite lib.toRuntime x).toList.length =
        if statesPreference lib.toRuntime x.message then 1 else 0 := by
      unfold preferenceWrite Exchange.states
      split <;> rfl
    rw [SerialRun.observations, hanswer, hcount, ih hafter, List.map_cons]

end Runs

theorem retrieveContext_ok {lib : Libraries} {files : MemoryFiles} {known : List StoredFact}
    {episodes : List StoredEpisode} (h : Holds lib files known episodes) (text : String)
    (limit : Int) : retrieveContext lib text limit files =
      .ok (found lib.toRuntime text (max 1 (limit / 2)) known,
        NewestScans.episodicSearch lib.toRuntime text (max 1 (limit - max 1 (limit / 2)))
          episodes) := by
  simp only [retrieveContext, search_ok h.facts, h.episodes]

/-- After a run of exchanges a context is retrieved from what they have left. -/
theorem context_after_exchanges {lib : Libraries} {floats : Floats} {files : MemoryFiles}
    {known : List StoredFact} {episodes : List StoredEpisode} (hquiet : Quiet lib)
    (h : Holds (reading lib floats) files known episodes) (xs : List Exchange) (text : String)
    (limit : Int) :
    retrieveContext (reading lib floats) text limit
        (filesAfter (reading lib floats) files xs) =
      .ok (found lib.toRuntime text (max 1 (limit / 2))
          (amendAll facts known (xs.filterMap (preferenceWrite lib.toRuntime))),
        NewestScans.episodicSearch lib.toRuntime text (max 1 (limit - max 1 (limit / 2)))
          (episodes ++ xs.map episodeOf)) :=
  retrieveContext_ok (exchanges_hold hquiet h xs) text limit

def lastSaid (rt : Runtime) (xs : List Exchange) (slug : String) : Option Exchange :=
  BoundedLog.latest (fun x => keySlug rt x.message) (xs.filter (Exchange.states rt)) slug

def preferencePlace (slug : String) : String × String := ("global", "preference:" ++ slug)

def Said (rt : Runtime) (xs : List Exchange) (fact : StoredFact) : Prop :=
  ∃ x ∈ xs, x.states rt = true ∧ factPlace fact = preferencePlace (keySlug rt x.message)

def saidContent (x : Exchange) : String × List String × String :=
  (strip x.message, ["preference", "autowrite"], x.stamp.nowIso)

/-- What a run of exchanges makes of the facts. -/
structure Learnt (rt : Runtime) (known : List StoredFact) (xs : List Exchange)
    (known' : List StoredFact) : Prop where
  said : ∀ slug, (KeyedList.get factPlace known' (preferencePlace slug)).map factContent =
    ((lastSaid rt xs slug).map saidContent).or
      ((KeyedList.get factPlace known (preferencePlace slug)).map factContent)
  others : ∀ fact, ¬ Said rt xs fact → (fact ∈ known' ↔ fact ∈ known)
  identities : known.map factIdentity <+: known'.map factIdentity

section Preferences

variable {rt : Runtime} {xs : List Exchange} {x : Exchange}

theorem write_place (rt : Runtime) (x : Exchange) :
    facts.place (x.write rt) = preferencePlace (keySlug rt x.message) := rfl

theorem preferenceWrite_some (h : x.states rt = true) :
    preferenceWrite rt x = some (x.write rt) := if_pos h

theorem preferenceWrite_none (h : ¬ x.states rt = true) : preferenceWrite rt x = none := if_neg h

theorem preferencePlace_inj {a b : String} (h : preferencePlace a = preferencePlace b) : a = b := by
  simpa [preferencePlace] using h

theorem latest_writes (rt : Runtime) (xs : List Exchange) (slug : String) :
    (BoundedLog.latest facts.place (xs.filterMap (preferenceWrite rt)) (preferencePlace slug)).map
        facts.written = (lastSaid rt xs slug).map saidContent := by
  unfold lastSaid
  induction xs with
  | nil => rfl
  | cons x rest ih =>
    by_cases hx : x.states rt = true
    · rw [List.filterMap_cons_some (preferenceWrite_some hx), List.filter_cons_of_pos hx,
        BoundedLog.latest, BoundedLog.latest, write_place, Option.map_or, Option.map_or, ih]
      by_cases hslug : keySlug rt x.message = slug
      · rw [if_pos hslug, hslug, if_pos rfl]
        rfl
      · rw [if_neg hslug, if_neg fun h => hslug (preferencePlace_inj h)]
        rfl
    · rw [List.filterMap_cons_none (preferenceWrite_none hx), List.filter_cons_of_neg hx]
      exact ih

theorem said_iff {fact : StoredFact} : Said rt xs fact ↔
    facts.key fact ∈ (xs.filterMap (preferenceWrite rt)).map facts.place := by
  simp only [List.mem_map, List.mem_filterMap]
  constructor
  · rintro ⟨x, hx, hstates, hplace⟩
    exact ⟨_, ⟨x, hx, preferenceWrite_some hstates⟩, hplace.symm⟩
  · rintro ⟨w, ⟨x, hx, hwrite⟩, hplace⟩
    by_cases hstates : x.states rt = true
    · rw [preferenceWrite_some hstates] at hwrite
      cases hwrite
      exact ⟨x, hx, hstates, hplace.symm⟩
    · rw [preferenceWrite_none hstates] at hwrite
      cases hwrite

theorem learnt (rt : Runtime) (known : List StoredFact) (xs : List Exchange) :
    Learnt rt known xs (amendAll facts known (xs.filterMap (preferenceWrite rt))) where
  said slug := by
    have hcontent := content_amendAll (A := facts) known (xs.filterMap (preferenceWrite rt))
      (preferencePlace slug)
    rw [latest_writes] at hcontent
    exact hcontent
  others fact hfact := by
    have hothers := others_amendAll (A := facts) known (xs.filterMap (preferenceWrite rt))
    have hmem := congrArg (fact ∈ ·) hothers
    simpa [List.mem_filter, ← said_iff, hfact] using hmem
  identities := identity_amendAll (A := facts) known _

end Preferences

/-- Over any run of exchanges every message that states a preference is kept under its slug,
the last one with a slug takes the place of the others, no other fact is touched, and each
exchange is one more episode. -/
theorem chats_remembered {lib : Libraries} {floats : Floats} {files : MemoryFiles}
    {known : List StoredFact} {episodes : List StoredEpisode} (hquiet : Quiet lib)
    (h : Holds (reading lib floats) files known episodes) (xs : List Exchange) :
    SerialRun.observations (remember (reading lib floats)) files xs =
        xs.map (fun x => .ok (if x.states lib.toRuntime then 1 else 0, 1)) ∧
      ∃ known', Holds (reading lib floats) (filesAfter (reading lib floats) files xs) known'
          (episodes ++ xs.map episodeOf) ∧
        Learnt lib.toRuntime known xs known' :=
  ⟨exchanges_answered hquiet h xs, _, exchanges_hold hquiet h xs, learnt lib.toRuntime known xs⟩

def tornFiles : MemoryFiles := ⟨some (encode (linesText tornLines)), encode ""⟩

theorem tornFiles_hold : Holds (reading quietLibraries noFloats) tornFiles [teaFact] [] where
  facts := tornLines_load
  episodes := by
    rw [tornFiles, TornTail.JsonlStore.loadAll, decode_encode]
    rfl
  ended := ⟨"", decode_encode "", by decide⟩

/-- The last message has the slug of the first. -/
def teaChat : List Exchange :=
  [⟨"i always drink green tea in the morning", "Noted.",
      ⟨"2026-01-06T09:00:00+00:00", fun _ => "f2", fun _ => "e1"⟩⟩,
    ⟨"what is the time?", "Nine.", ⟨"2026-01-06T09:01:00+00:00", fun _ => "f3", fun _ => "e2"⟩⟩,
    ⟨"i always drink green tea in the morning, not coffee", "Noted.",
      ⟨"2026-01-06T09:02:00+00:00", fun _ => "f4", fun _ => "e3"⟩⟩]

theorem teaChat_remembered :
    SerialRun.observations (remember (reading quietLibraries noFloats)) tornFiles teaChat =
        teaChat.map (fun x => .ok (if x.states quietLibraries.toRuntime then 1 else 0, 1)) ∧
      ∃ known', Holds (reading quietLibraries noFloats)
          (filesAfter (reading quietLibraries noFloats) tornFiles teaChat) known'
          ([] ++ teaChat.map episodeOf) ∧
        Learnt quietLibraries.toRuntime [teaFact] teaChat known' :=
  chats_remembered ⟨fun _ => rfl, fun _ => rfl⟩ tornFiles_hold teaChat

theorem keySlug_nonempty (rt : Runtime) (message : String) : keySlug rt message ≠ "" := by
  unfold keySlug
  split
  · decide
  · rename_i h
    exact fun hempty => h (String.ofList_inj.mp hempty)

theorem keySlug_length (rt : Runtime) (message : String) : (keySlug rt message).length ≤ 48 := by
  unfold keySlug
  split
  · decide
  · rw [String.length_ofList, List.length_take]
    exact Nat.min_le_left _ _

theorem splitOnP_chars {p : Char → Bool} {text word : List Char} (h : word ∈ text.splitOnP p) :
    ∀ c ∈ word, p c = false := by
  induction text generalizing word with
  | nil =>
    obtain rfl : word = [] := by simpa using h
    simp
  | cons d rest ih =>
    rw [List.splitOnP_cons_eq_if_modifyHead] at h
    split at h
    · rcases List.mem_cons.mp h with rfl | h
      · simp
      · exact ih h
    · rename_i hd
      obtain ⟨first, others, hsplit⟩ := List.exists_cons_of_ne_nil (List.splitOnP_ne_nil p rest)
      rw [hsplit, List.modifyHead_cons] at h
      rw [hsplit] at ih
      rcases List.mem_cons.mp h with rfl | h
      · rw [List.forall_mem_cons]
        exact ⟨by simpa using hd, ih List.mem_cons_self⟩
      · exact ih (List.mem_cons_of_mem _ h)

theorem intercalate_chars {separator c : Char} {words : List (List Char)}
    (h : c ∈ [separator].intercalate words) : c = separator ∨ ∃ word ∈ words, c ∈ word := by
  induction words with
  | nil => simp at h
  | cons word rest ih =>
    cases rest with
    | nil => exact .inr ⟨word, List.mem_cons_self, by simpa using h⟩
    | cons next others =>
      rw [List.intercalate_cons_cons, List.mem_append, List.mem_append] at h
      rcases h with (hword | hseparator) | hrest
      · exact .inr ⟨word, List.mem_cons_self, hword⟩
      · exact .inl (List.mem_singleton.mp hseparator)
      · rcases ih hrest with rfl | ⟨other, hother, hc⟩
        · exact .inl rfl
        · exact .inr ⟨other, List.mem_cons_of_mem _ hother, hc⟩

theorem keySlug_chars (rt : Runtime) (message : String) :
    ∀ c ∈ (keySlug rt message).toList, isSlugChar c = true ∨ c = '-' := by
  unfold keySlug
  split
  · have hall : "user".toList.all isSlugChar = true := by decide
    exact fun c hc => .inl (List.all_eq_true.mp hall c hc)
  · rw [String.toList_ofList]
    intro c hc
    rcases intercalate_chars (List.mem_of_mem_take hc) with rfl | ⟨word, hword, hc⟩
    · exact .inr rfl
    · have hsplit := List.mem_of_mem_filter (List.mem_of_mem_take hword)
      exact .inl (by simpa using splitOnP_chars hsplit c hc)

open SchedulerJobs (SemanticFact JobState preferences)

def asFact (fact : StoredFact) : SemanticFact := ⟨fact.key, fact.value, fact.scope⟩

def isPreference (fact : StoredFact) : Bool :=
  decide (fact.scope = "global") && "preference:".toList.isPrefixOf fact.key.toList

theorem preferences_eq {s : JobState} {known : List StoredFact} (h : s.facts = known.map asFact) :
    preferences s = ((known.filter isPreference).take 5).map asFact := by
  rw [preferences, h, List.filter_map, List.map_take]
  rfl

def isPreferencePlace (place : String × String) : Bool :=
  decide (place.1 = "global") && "preference:".toList.isPrefixOf place.2.toList

section Briefing

variable {rt : Runtime} {known : List StoredFact} {xs : List Exchange}

theorem newKeys_preferences :
    ∀ place ∈ newKeys facts known (xs.filterMap (preferenceWrite rt)),
      isPreferencePlace place = true := by
  intro place hplace
  obtain ⟨w, hw, rfl⟩ := List.mem_map.mp (mem_newKeys hplace)
  obtain ⟨x, -, hwrite⟩ := List.mem_filterMap.mp hw
  by_cases hstates : x.states rt = true
  · rw [preferenceWrite_some hstates] at hwrite
    cases hwrite
    simp [isPreferencePlace, write_place, preferencePlace]
  · rw [preferenceWrite_none hstates] at hwrite
    cases hwrite

/-- The preferences after the run: the old ones, then those that were said first. -/
theorem preference_keys :
    ((amendAll facts known (xs.filterMap (preferenceWrite rt))).filter isPreference).map
        StoredFact.key =
      (known.filter isPreference).map StoredFact.key ++
        (newKeys facts known (xs.filterMap (preferenceWrite rt))).map Prod.snd := by
  have hkeys : ∀ all : List StoredFact, (all.filter isPreference).map StoredFact.key =
      ((all.map factPlace).filter isPreferencePlace).map Prod.snd := by
    intro all
    rw [List.filter_map, List.map_map]
    rfl
  have hplaces := keys_amendAll (A := facts) known (xs.filterMap (preferenceWrite rt))
  rw [hkeys, hkeys, ← List.map_append]
  change ((List.map facts.key _).filter isPreferencePlace).map Prod.snd = _
  rw [hplaces, List.filter_append, List.filter_eq_self.mpr newKeys_preferences]
  rfl

theorem preference_slug {fact : StoredFact} (h : isPreference fact = true) :
    ∃ slug, factPlace fact = preferencePlace slug := by
  rw [isPreference, Bool.and_eq_true, decide_eq_true_eq] at h
  have hfront : "preference:".toList <+: fact.key.toList := by simpa using h.2
  obtain ⟨rest, hrest⟩ := hfront
  refine ⟨String.ofList rest, Prod.ext h.1 ?_⟩
  refine String.toList_inj.mp ?_
  exact hrest.symm.trans (by simp [preferencePlace])

end Briefing

/-- What the briefing shows once the job has loaded the memory that a run of exchanges has
left: the preferences that were there and behind them the new ones, the first five of them,
each as it was said last. -/
structure Shows (rt : Runtime) (known : List StoredFact) (xs : List Exchange)
    (shown : List SemanticFact) : Prop where
  keys : shown.map SemanticFact.key =
    ((known.filter isPreference).map StoredFact.key ++
      (newKeys facts known (xs.filterMap (preferenceWrite rt))).map Prod.snd).take 5
  values : (known.map factPlace).Nodup → ∀ fact ∈ shown, ∃ slug,
    fact.key = "preference:" ++ slug ∧
      some fact.value = ((lastSaid rt xs slug).map fun x => strip x.message).or
        ((KeyedList.get factPlace known (preferencePlace slug)).map StoredFact.value)

theorem shown_preferences (rt : Runtime) (known : List StoredFact) (xs : List Exchange)
    {s : JobState}
    (hs : s.facts = (amendAll facts known (xs.filterMap (preferenceWrite rt))).map asFact) :
    Shows rt known xs (preferences s) := by
  rw [preferences_eq hs]
  refine ⟨?_, fun hnodup fact hfact => ?_⟩
  · rw [← preference_keys, List.map_map, List.map_take]
    rfl
  · obtain ⟨stored, hstored, rfl⟩ := List.mem_map.mp hfact
    have hmem := List.mem_of_mem_take hstored
    obtain ⟨slug, hslug⟩ := preference_slug (List.mem_filter.mp hmem).2
    have hafter := nodup_amendAll (A := facts) (xs.filterMap (preferenceWrite rt)) hnodup
    have hget := (KeyedList.get_self_iff hafter).mpr (List.mem_of_mem_filter hmem)
    have hsaid := (learnt rt known xs).said slug
    have hplace : facts.key stored = preferencePlace slug := hslug
    rw [hplace] at hget
    change (KeyedList.get facts.key _ _).map factContent = _ at hsaid
    rw [hget] at hsaid
    refine ⟨slug, congrArg Prod.snd hslug, ?_⟩
    have hvalue := congrArg (Option.map Prod.fst) hsaid
    rw [Option.map_or, Option.map_map, Option.map_map, Option.map_map] at hvalue
    exact hvalue

/-- The briefing after a run of exchanges shows the five oldest preferences, with the words
of the last message about each. -/
theorem briefing_shows_oldest {lib : Libraries} {floats : Floats} {files : MemoryFiles}
    {known loaded : List StoredFact} {episodes : List StoredEpisode} (hquiet : Quiet lib)
    (h : Holds (reading lib floats) files known episodes) (xs : List Exchange)
    (hloaded : loadFacts (reading lib floats) (filesAfter (reading lib floats) files xs).semantic =
      .ok loaded) {s : JobState} (hs : s.facts = loaded.map asFact) :
    Shows lib.toRuntime known xs (preferences s) := by
  have hfacts := (exchanges_hold hquiet h xs).facts
  rw [hloaded] at hfacts
  exact shown_preferences lib.toRuntime known xs (hs.trans (congrArg (List.map asFact)
    (Except.ok.inj hfacts)))

def teaFacts : List StoredFact :=
  amendAll facts [teaFact] (teaChat.filterMap (preferenceWrite quietLibraries.toRuntime))

def teaState : JobState :=
  ⟨freshWorld exampleSurroundings, [], teaFacts.map asFact, []⟩

theorem teaState_shows :
    Shows quietLibraries.toRuntime [teaFact] teaChat (preferences teaState) :=
  briefing_shows_oldest ⟨fun _ => rfl, fun _ => rfl⟩ tornFiles_hold teaChat
    (exchanges_hold ⟨fun _ => rfl, fun _ => rfl⟩ tornFiles_hold teaChat).facts rfl

end ChatMemory
