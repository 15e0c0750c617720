import Benjamin.JsonScan
import Benjamin.StoredRecords

/-!
# Appending after a torn line

The JSONL stores as bytes. An append writes one more line and the reader skips the lines
it cannot use, but a line that a crash has cut off has no end: the next record is written
behind it, on the same line.
-/
namespace TornTail

open PyBase JsonLines JsonScan ExecutionLedger CompactionRace StoredRecords

/-- A store of records as JSON lines. `skips` are the exceptions of `json.loads` for which
its reader goes on with the next line; a bound that is not positive keeps all records. -/
structure JsonlStore (ρ : Type) where
  layout : Layout
  dumped : ρ → Dict
  validate : Json → Option ρ
  skips : PyError → Bool
  bound : Int
  named : ∀ r, Named (dumpsWith layout (.obj (dumped r)))
  objects : ∀ payload r, validate payload = some r → ∃ d, payload = .obj d

namespace JsonlStore

variable {ρ : Type} (S : JsonlStore ρ) (lib : Libraries)

def text (r : ρ) : String := dumpsWith S.layout (.obj (S.dumped r))

/-- The record on a line, `none` where the reader skips it. -/
def readLine (line : String) : Except PyError (Option ρ) :=
  match jsonLoads lib line with
  | .error e => if S.skips e then .ok none else .error e
  | .ok none => .ok none
  | .ok (some payload) => .ok (S.validate payload)

def readLines : List String → Except PyError (List ρ)
  | [] => .ok []
  | line :: rest =>
    match S.readLine lib line with
    | .error e => .error e
    | .ok r => (readLines rest).map fun records => r.toList ++ records

/-- `_load_all` and `_read_all_records`; an absent file reads like an empty one. -/
def loadAll (content : ByteArray) : Except PyError (List ρ) :=
  match decode content with
  | none => .error Doctor.decodeError
  | some text => S.readLines lib (filled (lines text))

def trim (content : ByteArray) : Except PyError Unit × ByteArray :=
  if S.bound ≤ 0 then (.ok (), content)
  else
    match S.loadAll lib content with
    | .error e => (.error e, content)
    | .ok records =>
      if (records.length : Int) ≤ S.bound then (.ok (), content)
      else (.ok (), encode (linesText
        ((records.drop (records.length - S.bound.toNat)).map S.text)))

def appendLine (content : ByteArray) (r : ρ) : ByteArray := content ++ encode (S.text r ++ "\n")

def append (content : ByteArray) (r : ρ) : Except PyError Unit × ByteArray :=
  S.trim lib (S.appendLine content r)

end JsonlStore

theorem intercalate_head (separator part : String) (parts : List String) : ∃ tail,
    (separator.intercalate (part :: parts)).toList = part.toList ++ tail := by
  cases parts with
  | nil => exact ⟨[], by rw [String.intercalate_singleton, List.append_nil]⟩
  | cons next others =>
    rw [String.intercalate_cons_cons, String.toList_append, String.toList_append, List.append_assoc]
    exact ⟨_, rfl⟩

theorem named_dumps {l : Layout} (hl : l.sortKeys = false) {key : String} {c : Char}
    {cs : List Char}
    (hkey : key.toList = c :: cs) (hc : c.isAlpha = true)
    (hplain : escapeChar l.ensureAscii c = [c])
    (value : Json) (rest : Dict) : Named (dumpsWith l (.obj ((key, value) :: rest))) := by
  have hquote : (quote l.ensureAscii key).toList =
      '"' :: c :: (cs.flatMap (escapeChar l.ensureAscii) ++ ['"']) := by
    rw [quote, String.toList_ofList, hkey, List.flatMap_cons, hplain]
    rfl
  rw [dumpsWith, hl, dumpsFields, if_neg (by decide), List.map_cons]
  obtain ⟨tail, htail⟩ := intercalate_head l.itemSeparator
    (quote l.ensureAscii key ++ l.keySeparator ++ dumpsWith l value)
    ((dumpsFields l rest).map fun kv => quote l.ensureAscii kv.1 ++ l.keySeparator ++ kv.2)
  rw [Named, String.toList_append, String.toList_append, htail, String.toList_append,
    String.toList_append, hquote]
  exact ⟨c, _, hc, rfl⟩

def looseJson : Layout := ⟨", ", ": ", false, false⟩
def denseJson : Layout := ⟨",", ":", false, false⟩

def isValueError : PyError → Bool
  | .valueError _ => true
  | _ => false

def episodicStore : JsonlStore StoredEpisode where
  layout := looseJson
  dumped := dumpEpisode
  validate := validateEpisode
  skips := isValueError
  bound := 0
  named _ := named_dumps rfl rfl rfl rfl _ _
  objects payload r h := by
    cases payload with
    | obj d => exact ⟨d, rfl⟩
    | _ => cases h

/-- `max(1, max_records)`. -/
def taskStore (maxRecords : Int) : JsonlStore StoredTask where
  layout := looseJson
  dumped := dumpTask
  validate := validateTask
  skips := isValueError
  bound := max 1 maxRecords
  named _ := named_dumps rfl rfl rfl rfl _ _
  objects payload r h := by
    cases payload with
    | obj d => exact ⟨d, rfl⟩
    | _ => cases h

/-- The records are written by `model_dump_json`; every exception skips a line. -/
def ledgerStore (maxRecords : Int) : JsonlStore LedgerRecord where
  layout := denseJson
  dumped := dumpLedgerRecord
  validate := validateLedgerRecord
  skips _ := true
  bound := maxRecords
  named _ := named_dumps rfl rfl rfl rfl _ _
  objects payload r h := by
    cases payload with
    | obj d => exact ⟨d, rfl⟩
    | _ => cases h

section Ledger

variable (lib : Libraries) (maxRecords : Int) (content : ByteArray) (nowIso key : String)

def tryStart (kind : LedgerKind) (correlationId : Option String) (metadata : Dict) :
    Except PyError Bool × ByteArray :=
  match (ledgerStore maxRecords).loadAll lib content with
  | .error e => (.error e, content)
  | .ok records =>
    if refused (ledgerFile records) key then (.ok false, content)
    else
      let appended := (ledgerStore maxRecords).append lib content
        (startedRecord key kind nowIso correlationId metadata)
      (appended.1.map fun _ => true, appended.2)

def mark (status : LedgerStatus) (metaUpdate : Dict) : Except PyError Unit × ByteArray :=
  match (ledgerStore maxRecords).loadAll lib content with
  | .error e => (.error e, content)
  | .ok records =>
    (ledgerStore maxRecords).append lib content
      (markedRecord (ledgerFile records) nowIso key status metaUpdate)

end Ledger

namespace JsonlStore

variable {ρ : Type} (S : JsonlStore ρ) (lib : Libraries)

def Tame (line : String) : Prop := ∃ r, S.readLine lib line = .ok r

def recordOn (line : String) : Option ρ :=
  match S.readLine lib line with
  | .error _ => none
  | .ok r => r

theorem filterMap_head (f : String → Option ρ) (line : String) (rest : List String) :
    (line :: rest).filterMap f = (f line).toList ++ rest.filterMap f := by
  cases h : f line <;> simp [h]

theorem readLines_ok_iff {ls : List String} {records : List ρ} :
    S.readLines lib ls = .ok records ↔
      (∀ line ∈ ls, S.Tame lib line) ∧ records = ls.filterMap (S.recordOn lib) := by
  induction ls generalizing records with
  | nil =>
    constructor
    · intro h
      cases h
      exact ⟨nofun, rfl⟩
    · rintro ⟨-, rfl⟩
      rfl
  | cons line rest ih =>
    rw [readLines, List.forall_mem_cons, filterMap_head, recordOn, Tame]
    cases hline : S.readLine lib line with
    | error e => simp
    | ok r =>
      dsimp only
      cases hrest : S.readLines lib rest with
      | error e =>
        have hnone : ¬ ∀ other ∈ rest, S.Tame lib other := by
          intro hall
          have h := ih.mpr ⟨hall, rfl⟩
          rw [hrest] at h
          cases h
        simp [Except.map, hnone]
      | ok others =>
        obtain ⟨hall, hothers⟩ := ih.mp hrest
        rw [← hothers]
        constructor
        · intro h
          exact ⟨⟨⟨r, rfl⟩, hall⟩, (Except.ok.inj h).symm⟩
        · rintro ⟨-, rfl⟩
          rfl

def LastRead (content : ByteArray) (r : ρ) : Prop :=
  ∃ records, S.loadAll lib content = .ok records ∧ records.getLast? = some r

theorem lastRead_iff {content : ByteArray} {r : ρ} : S.LastRead lib content r ↔
    ∃ text, decode content = some text ∧ (∀ line ∈ filled (lines text), S.Tame lib line) ∧
      ((filled (lines text)).filterMap (S.recordOn lib)).getLast? = some r := by
  rw [LastRead, loadAll]
  cases decode content with
  | none => simp
  | some text =>
    simp only [readLines_ok_iff, Option.some.injEq, exists_eq_left']
    constructor
    · rintro ⟨records, ⟨htame, rfl⟩, hlast⟩
      exact ⟨htame, hlast⟩
    · rintro ⟨htame, hlast⟩
      exact ⟨_, ⟨htame, rfl⟩, hlast⟩

/-- The line written of a record is one line, and gives the record again. -/
def RoundTrips (r : ρ) : Prop :=
  Unbroken (S.text r) ∧ S.readLine lib (S.text r) = .ok (some r)

/-- A record that some line gives is written as a line that gives it again. -/
def ReadsAgain : Prop := ∀ line r, S.readLine lib line = .ok (some r) → S.RoundTrips lib r

end JsonlStore

/-- The texts of objects have the brackets and quotes of an object. -/
def ScansObjects (lib : Libraries) : Prop :=
  ∀ text d, strip text = text → lib.loads text = some (.obj d) → ObjectText text

namespace JsonlStore

variable {ρ : Type} {S : JsonlStore ρ} {lib : Libraries} {r : ρ}

theorem text_braces (S : JsonlStore ρ) (r : ρ) : ∃ middle : List Char,
    S.text r = String.ofList ('{' :: middle ++ ['}']) :=
  dumpsWith_braces S.layout (S.dumped r)

theorem text_ne_empty (S : JsonlStore ρ) (r : ρ) : S.text r ≠ "" := by
  obtain ⟨middle, htext⟩ := S.text_braces r
  rw [htext]
  intro h
  cases String.ofList_inj.mp h

theorem strip_text (S : JsonlStore ρ) (r : ρ) : strip (S.text r) = S.text r := by
  obtain ⟨middle, htext⟩ := S.text_braces r
  rw [htext]
  exact strip_between (by decide) (by decide) middle

theorem strip_joined (S : JsonlStore ρ) (r : ρ) (front : String) :
    strip (front ++ S.text r) = unindented front ++ S.text r := by
  obtain ⟨middle, htext⟩ := S.text_braces r
  rw [htext]
  exact strip_append (by decide) (by decide) front middle

/-- After a blank start of a line the record is alone on it. -/
theorem strip_after_blank (S : JsonlStore ρ) (r : ρ) {front : String} (hblank : strip front = "") :
    strip (front ++ S.text r) = S.text r := by
  rw [strip_joined, unindented_eq_empty.mpr hblank, String.empty_append]

theorem recordOn_eq_some {line : String} {q : ρ} :
    S.recordOn lib line = some q ↔ S.readLine lib line = .ok (some q) := by
  rw [recordOn]
  cases S.readLine lib line <;> simp

theorem payload_of_readLine {line : String} {q : ρ} (h : S.readLine lib line = .ok (some q)) :
    ∃ payload, lib.loads line = some payload ∧ S.validate payload = some q := by
  rw [readLine] at h
  split at h
  · split at h <;> cases h
  · cases h
  · rename_i payload hloads
    refine ⟨payload, ?_, Except.ok.inj h⟩
    rw [jsonLoads] at hloads
    split at hloads
    · cases hloads
    · exact Except.ok.inj hloads

theorem objectText_of_readLine (hscan : ScansObjects lib) {line : String} {q : ρ}
    (hline : strip line = line) (h : S.readLine lib line = .ok (some q)) : ObjectText line := by
  obtain ⟨payload, hloads, hvalid⟩ := payload_of_readLine h
  obtain ⟨d, rfl⟩ := S.objects payload q hvalid
  exact hscan line d hline hloads

/-- A line that has begun and goes on with a record gives none. -/
theorem recordOn_joined (hscan : ScansObjects lib) (hr : S.RoundTrips lib r) {front : String}
    (hfront : strip front ≠ "") : S.recordOn lib (strip (front ++ S.text r)) = none := by
  have hbegun : unindented front ≠ "" := mt unindented_eq_empty.mp hfront
  have hjoined : strip (unindented front ++ S.text r) = unindented front ++ S.text r := by
    rw [strip_joined, unindented_idem]
  have htext := objectText_of_readLine hscan (S.strip_text r) hr.2
  rw [strip_joined]
  cases hrecord : S.recordOn lib (unindented front ++ S.text r) with
  | none => rfl
  | some q =>
    have hwhole := objectText_of_readLine hscan hjoined (recordOn_eq_some.mp hrecord)
    exact absurd hwhole (not_objectText_append htext (S.named r) hbegun)

/-- The file holds text, its finished lines can be read, and its last line is blank so far;
or the line cannot become a record, and the same record ends the lines before it. -/
def Keeps (S : JsonlStore ρ) (lib : Libraries) (content : ByteArray) (r : ρ) : Prop :=
  ∃ text, decode content = some text ∧ (∀ line ∈ filled (finished text), S.Tame lib line) ∧
    (strip (unfinished text) = "" ∨
      S.Tame lib (strip (unfinished text ++ S.text r)) ∧
        ((filled (finished text)).filterMap (S.recordOn lib)).getLast? = some r)

theorem filled_written (S : JsonlStore ρ) (r : ρ) (hr : Unbroken (S.text r)) (text : String) :
    filled (lines (text ++ (S.text r ++ "\n"))) =
      filled (finished text) ++ [strip (unfinished text ++ S.text r)] := by
  have hne : strip (unfinished text ++ S.text r) ≠ "" := by
    rw [strip_joined]
    intro hempty
    exact S.text_ne_empty r (String.append_eq_empty_iff.mp hempty).2
  rw [← String.append_assoc, lines_append text hr (S.text_ne_empty r), filled_append, filled_cons,
    if_neg hne]
  rfl

theorem loadAll_appendLine (hr : Unbroken (S.text r)) {content : ByteArray} {text : String}
    (h : decode content = some text) : S.loadAll lib (S.appendLine content r) =
      S.readLines lib (filled (finished text) ++ [strip (unfinished text ++ S.text r)]) := by
  rw [loadAll, appendLine, decode_append, h]
  exact congrArg _ (filled_written S r hr text)

theorem lastRead_appendLine (hscan : ScansObjects lib) (hr : S.RoundTrips lib r)
    (content : ByteArray) :
    S.LastRead lib (S.appendLine content r) r ↔ S.Keeps lib content r := by
  rw [lastRead_iff, appendLine, decode_append, Keeps]
  cases hcontent : decode content with
  | none => simp
  | some text =>
    have hself : S.recordOn lib (S.text r) = some r := recordOn_eq_some.mpr hr.2
    simp only [Option.map_some, Option.some.injEq, exists_eq_left', filled_written S r hr.1,
      List.forall_mem_append, List.forall_mem_singleton, List.filterMap_append]
    by_cases hblank : strip (unfinished text) = ""
    · have htame : S.Tame lib (S.text r) := ⟨some r, hr.2⟩
      simp [strip_after_blank S r hblank, hself, hblank, htame]
    · simp [recordOn_joined hscan hr hblank, hblank, and_assoc]

theorem loadAll_written {records : List ρ} (hall : ∀ q ∈ records, S.RoundTrips lib q) :
    S.loadAll lib (encode (linesText (records.map S.text))) = .ok records := by
  have hunbroken : ∀ line ∈ records.map S.text, Unbroken line := by
    intro line hline
    obtain ⟨q, hq, rfl⟩ := List.mem_map.mp hline
    exact (hall q hq).1
  have hfilled : filled (records.map S.text ++ [""]) = records.map S.text := by
    rw [filled_append, filled_id]
    · simp [filled, strip]
    · intro line hline
      obtain ⟨q, -, rfl⟩ := List.mem_map.mp hline
      exact ⟨S.strip_text q, S.text_ne_empty q⟩
  rw [loadAll, decode_encode]
  dsimp only
  rw [lines_linesText hunbroken, hfilled, readLines_ok_iff]
  constructor
  · intro line hline
    obtain ⟨q, hq, rfl⟩ := List.mem_map.mp hline
    exact ⟨some q, (hall q hq).2⟩
  · rw [List.filterMap_map]
    symm
    calc records.filterMap (S.recordOn lib ∘ S.text) = records.filterMap some :=
          List.filterMap_congr fun q hq => recordOn_eq_some.mpr (hall q hq).2
      _ = records := List.filterMap_some

theorem roundTrips_of_loadAll (hagain : S.ReadsAgain lib) {content : ByteArray} {records : List ρ}
    (h : S.loadAll lib content = .ok records) : ∀ q ∈ records, S.RoundTrips lib q := by
  rw [loadAll] at h
  split at h
  · cases h
  · obtain ⟨-, rfl⟩ := (S.readLines_ok_iff lib).mp h
    intro q hq
    obtain ⟨line, -, hline⟩ := List.mem_filterMap.mp hq
    exact hagain line q (recordOn_eq_some.mp hline)

theorem trim_short {content : ByteArray} {records : List ρ}
    (h : S.loadAll lib content = .ok records) (hlength : (records.length : Int) ≤ S.bound) :
    S.trim lib content = (.ok (), content) := by
  simp [trim, h, hlength]

theorem trim_ok {content : ByteArray} {records : List ρ} (h : S.loadAll lib content = .ok records) :
    (S.trim lib content).1 = .ok () := by
  rw [trim]
  split
  · rfl
  · rw [h]
    dsimp only
    split <;> rfl

theorem lastRead_trim (hagain : S.ReadsAgain lib) (content : ByteArray) (r : ρ) :
    S.LastRead lib (S.trim lib content).2 r ↔ S.LastRead lib content r := by
  rw [trim]
  split
  · rfl
  · rename_i hbound
    cases hload : S.loadAll lib content with
    | error e => rfl
    | ok records =>
      dsimp only
      split
      · rfl
      · rename_i hlong
        have hkept : ∀ q ∈ records.drop (records.length - S.bound.toNat), S.RoundTrips lib q :=
          fun q hq => roundTrips_of_loadAll hagain hload q (List.mem_of_mem_drop hq)
        have hlast : (records.drop (records.length - S.bound.toNat)).getLast? =
            records.getLast? := by
          rw [List.getLast?_drop, if_neg (by omega)]
        have hwritten := loadAll_written hkept
        simp only [LastRead, hwritten, hload, Except.ok.injEq, exists_eq_left', hlast]

/-- The record appended is the last one that the next full read returns exactly when the
file keeps it. -/
theorem lastRead_append (hscan : ScansObjects lib) (hagain : S.ReadsAgain lib)
    (hr : S.RoundTrips lib r) (content : ByteArray) :
    S.LastRead lib (S.append lib content r).2 r ↔ S.Keeps lib content r := by
  rw [append, lastRead_trim hagain, lastRead_appendLine hscan hr]

end JsonlStore

section Ledger

variable {lib : Libraries} {maxRecords : Int} {content : ByteArray} {nowIso key : String}

theorem ledger_loads {text : String} (h : decode content = some text) :
    ∃ records, (ledgerStore maxRecords).loadAll lib content = .ok records := by
  rw [JsonlStore.loadAll, h]
  refine ⟨_, ((ledgerStore maxRecords).readLines_ok_iff lib).mpr ⟨?_, rfl⟩⟩
  intro line _
  rw [JsonlStore.Tame, JsonlStore.readLine]
  split
  · exact ⟨none, rfl⟩
  · exact ⟨none, rfl⟩
  · exact ⟨_, rfl⟩

theorem tryStart_result {records : List LedgerRecord}
    (h : (ledgerStore maxRecords).loadAll lib content = .ok records) (kind : LedgerKind)
    (correlationId : Option String) (metadata : Dict) :
    (tryStart lib maxRecords content nowIso key kind correlationId metadata).1 =
      .ok (!refused (ledgerFile records) key) := by
  have htext : ∃ text, decode content = some text := by
    rw [JsonlStore.loadAll] at h
    split at h
    · cases h
    · exact ⟨_, ‹_›⟩
  obtain ⟨text, htext⟩ := htext
  let started := startedRecord key kind nowIso correlationId metadata
  have happended : decode ((ledgerStore maxRecords).appendLine content started) =
      some (text ++ ((ledgerStore maxRecords).text started ++ "\n")) := by
    rw [JsonlStore.appendLine, decode_append, htext]
    rfl
  obtain ⟨after, hafter⟩ : ∃ after, (ledgerStore maxRecords).loadAll lib
      ((ledgerStore maxRecords).appendLine content started) = .ok after := ledger_loads happended
  rw [tryStart, h]
  dsimp only
  split
  · rename_i hrefused
    rw [hrefused]
    rfl
  · rename_i hadmitted
    rw [Bool.not_eq_true _ |>.mp hadmitted]
    exact congrArg (Except.map fun _ => true) (JsonlStore.trim_ok hafter)

theorem tryStart_true {kind : LedgerKind} {correlationId : Option String} {metadata : Dict}
    (h : (tryStart lib maxRecords content nowIso key kind correlationId metadata).1 = .ok true) :
    (tryStart lib maxRecords content nowIso key kind correlationId metadata).2 =
      ((ledgerStore maxRecords).append lib content
        (startedRecord key kind nowIso correlationId metadata)).2 := by
  rw [tryStart] at h ⊢
  split at h
  · cases h
  · split at h
    · cases h
    · rename_i hrefused
      simp only [if_neg hrefused]

/-- A key whose start is the last record is refused, and the file is left as it is. -/
theorem tryStart_after_start {kind : LedgerKind} {correlationId : Option String} {metadata : Dict}
    (h : (ledgerStore maxRecords).LastRead lib content
      (startedRecord key kind nowIso correlationId metadata)) (nowIso' : String)
    (kind' : LedgerKind)
    (correlationId' : Option String) (metadata' : Dict) :
    tryStart lib maxRecords content nowIso' key kind' correlationId' metadata' =
      (.ok false, content) := by
  obtain ⟨records, hload, hlast⟩ := h
  have hrefused : refused (ledgerFile records) key = true := by
    refine refused_iff.mpr ⟨startedRecord key kind nowIso correlationId metadata, ?_, Or.inl rfl⟩
    obtain ⟨front, rfl⟩ := List.getLast?_eq_some_iff.mp hlast
    rw [latestRecord, readAllRecords_ledgerFile]
    exact BoundedLog.latest_append_self front (startedRecord key kind nowIso correlationId metadata)
  simp [tryStart, hload, hrefused]

end Ledger

/-- An appended record is the last one that the next full read returns, and a key that
has been started is refused, exactly when the file keeps the record. -/
theorem appended_is_read_last_iff (lib : Libraries) (maxTasks maxRecords : Int)
    (hscan : ScansObjects lib) (hepisodes : episodicStore.ReadsAgain lib)
    (htasks : (taskStore maxTasks).ReadsAgain lib)
    (hledger : (ledgerStore maxRecords).ReadsAgain lib) :
    (∀ content e, episodicStore.RoundTrips lib e →
      (episodicStore.LastRead lib (episodicStore.append lib content e).2 e ↔
        episodicStore.Keeps lib content e)) ∧
    (∀ content t, (taskStore maxTasks).RoundTrips lib t →
      ((taskStore maxTasks).LastRead lib ((taskStore maxTasks).append lib content t).2 t ↔
        (taskStore maxTasks).Keeps lib content t)) ∧
    (∀ content nowIso key kind correlationId metadata,
      let started := startedRecord key kind nowIso correlationId metadata
      let first := tryStart lib maxRecords content nowIso key kind correlationId metadata
      (ledgerStore maxRecords).RoundTrips lib started → first.1 = .ok true →
        (((ledgerStore maxRecords).LastRead lib first.2 started ∧
          ∀ nowIso' kind' correlationId' metadata',
            tryStart lib maxRecords first.2 nowIso' key kind' correlationId' metadata' =
              (.ok false, first.2)) ↔
          (ledgerStore maxRecords).Keeps lib content started)) ∧
    (∀ content records nowIso key status metaUpdate,
      let marked := markedRecord (ledgerFile records) nowIso key status metaUpdate
      (ledgerStore maxRecords).loadAll lib content = .ok records →
        (ledgerStore maxRecords).RoundTrips lib marked →
        ((ledgerStore maxRecords).LastRead lib
            (mark lib maxRecords content nowIso key status metaUpdate).2 marked ↔
          (ledgerStore maxRecords).Keeps lib content marked)) := by
  refine ⟨?_, ?_, ?_, ?_⟩
  · intro content e he
    exact JsonlStore.lastRead_append hscan hepisodes he content
  · intro content t ht
    exact JsonlStore.lastRead_append hscan htasks ht content
  · intro content nowIso key kind correlationId metadata started first hstarted htrue
    have hlast := JsonlStore.lastRead_append hscan hledger hstarted content
    rw [← tryStart_true htrue] at hlast
    constructor
    · intro h
      exact hlast.mp h.1
    · intro hkeeps
      have hread := hlast.mpr hkeeps
      exact ⟨hread, tryStart_after_start hread⟩
  · intro content records nowIso key status metaUpdate marked hload hmarked
    have hmark : (mark lib maxRecords content nowIso key status metaUpdate).2 =
        ((ledgerStore maxRecords).append lib content marked).2 := by
      rw [mark, hload]
    rw [hmark]
    exact JsonlStore.lastRead_append hscan hledger hmarked content

def startedK : LedgerRecord := startedRecord "k" .jobRun "" none []

def succeededJ : LedgerRecord := { startedRecord "j" .jobRun "" none [] with status := .succeeded }

def ledgerLine (r : LedgerRecord) : String := (ledgerStore 5000).text r

/-- `json.loads` on the lines of the two records and on what is no JSON. -/
def twoRows : Libraries where
  toRuntime := { AssistantState.exampleRuntime (fun _ => .returned "") fun _ => none with
    loads := fun text => ([succeededJ, startedK].find? fun r => ledgerLine r = text).map fun r =>
      .obj (dumpLedgerRecord r) }
  loadsRaises _ := none
  zoneInfo _ := .notFound

theorem twoRows_loads {text : String} {j : Json} (h : twoRows.loads text = some j) :
    ∃ r, r ∈ [succeededJ, startedK] ∧ text = ledgerLine r ∧ j = .obj (dumpLedgerRecord r) := by
  obtain ⟨r, hfind, rfl⟩ := Option.map_eq_some_iff.mp h
  have htext : ledgerLine r = text := by simpa using List.find?_some hfind
  exact ⟨r, List.mem_of_find?_eq_some hfind, htext.symm, rfl⟩

theorem twoRows_scans : ScansObjects twoRows := by
  intro text d _ h
  have htext : text = ledgerLine succeededJ ∨ text = ledgerLine startedK := by
    obtain ⟨r, hr, htext, -⟩ := twoRows_loads h
    rcases List.mem_pair.mp hr with rfl | rfl
    · exact .inl htext
    · exact .inr htext
  rcases htext with htext | htext
  · rw [htext]
    decide
  · rw [htext]
    decide

theorem twoRows_readLine {ρ : Type} {S : JsonlStore ρ} {line : String} {q : ρ}
    (h : S.readLine twoRows line = .ok (some q)) : ∃ r, r ∈ [succeededJ, startedK] ∧
      line = ledgerLine r ∧ S.validate (.obj (dumpLedgerRecord r)) = some q := by
  obtain ⟨payload, hloads, hvalid⟩ := JsonlStore.payload_of_readLine h
  obtain ⟨r, hr, rfl, rfl⟩ := twoRows_loads hloads
  exact ⟨r, hr, rfl, hvalid⟩

theorem ledgerLine_reads {r : LedgerRecord} (hr : r ∈ [succeededJ, startedK]) :
    jsonLoads twoRows (ledgerLine r) = .ok (some (.obj (dumpLedgerRecord r))) := by
  rcases List.mem_pair.mp hr with rfl | rfl <;> rfl

theorem twoRows_roundTrips {r : LedgerRecord} (hr : r ∈ [succeededJ, startedK]) :
    (ledgerStore 5000).RoundTrips twoRows r := by
  refine ⟨?_, ?_⟩
  · have hplain : PlainFloats (.obj (dumpLedgerRecord r)) := by
      rcases List.mem_pair.mp hr with rfl | rfl <;>
        exact ⟨trivial, trivial, trivial, trivial, trivial, trivial, trivial⟩
    exact dumpsWith_unbroken ⟨by decide, by decide, rfl⟩ hplain
  · have hline := ledgerLine_reads hr
    rw [JsonlStore.readLine, ← ledgerLine, hline]
    exact congrArg Except.ok (validate_dumpLedgerRecord r)

theorem twoRows_ledger : (ledgerStore 5000).ReadsAgain twoRows := by
  intro line q h
  obtain ⟨r, hr, -, hvalid⟩ := twoRows_readLine h
  cases (validate_dumpLedgerRecord r).symm.trans hvalid
  exact twoRows_roundTrips hr

theorem twoRows_episodes : episodicStore.ReadsAgain twoRows := by
  intro line q h
  obtain ⟨r, hr, -, hvalid⟩ := twoRows_readLine h
  rcases List.mem_pair.mp hr with rfl | rfl <;> cases hvalid

theorem twoRows_tasks : (taskStore 500).ReadsAgain twoRows := by
  intro line q h
  obtain ⟨r, hr, -, hvalid⟩ := twoRows_readLine h
  rcases List.mem_pair.mp hr with rfl | rfl <;> cases hvalid

theorem twoRows_other {line : String} (hj : line ≠ ledgerLine succeededJ)
    (hk : line ≠ ledgerLine startedK) : (ledgerStore 5000).readLine twoRows line = .ok none := by
  have hnone : twoRows.loads line = none := by
    rw [Option.eq_none_iff_forall_ne_some]
    intro j hj'
    obtain ⟨r, hr, hline, -⟩ := twoRows_loads hj'
    rcases List.mem_pair.mp hr with rfl | rfl
    · exact hj hline
    · exact hk hline
  have hloads : jsonLoads twoRows line = .ok none := congrArg Except.ok hnone
  rw [JsonlStore.readLine, hloads]

def firstStart (content : ByteArray) : Except PyError Bool × ByteArray :=
  tryStart twoRows 5000 content "" "k" .jobRun none []

theorem firstStart_admitted {content : ByteArray} {records : List LedgerRecord}
    (h : (ledgerStore 5000).loadAll twoRows content = .ok records)
    (hadmitted : refused (ledgerFile records) "k" = false) : (firstStart content).1 = .ok true := by
  refine (tryStart_result h .jobRun none []).trans ?_
  rw [hadmitted]
  rfl

/-- A record that is complete, and a tail that is blank. -/
def blankTail : String := ledgerLine succeededJ ++ "\n  "

theorem lines_blankTail : lines blankTail = [ledgerLine succeededJ, "  "] := by decide

theorem filled_succeededJ : filled [ledgerLine succeededJ] = [ledgerLine succeededJ] := by
  rw [filled_cons, ledgerLine, JsonlStore.strip_text, if_neg (JsonlStore.text_ne_empty _ _)]
  rfl

theorem blankTail_loads :
    (ledgerStore 5000).loadAll twoRows (encode blankTail) = .ok [succeededJ] := by
  have hfilled : filled (lines blankTail) = [ledgerLine succeededJ] := by
    rw [lines_blankTail, ← List.singleton_append, filled_append, filled_succeededJ]
    rfl
  rw [JsonlStore.loadAll, decode_encode]
  dsimp only
  rw [hfilled, JsonlStore.readLines, JsonlStore.readLine, ledgerLine_reads List.mem_cons_self]
  rfl

/-- Behind a blank tail a key is started, and refused after that. -/
theorem start_behind_blank :
    (firstStart (encode blankTail)).1 = .ok true ∧
      tryStart twoRows 5000 (firstStart (encode blankTail)).2 "" "k" .jobRun none [] =
        (.ok false, (firstStart (encode blankTail)).2) := by
  have htrue : (firstStart (encode blankTail)).1 = .ok true :=
    firstStart_admitted blankTail_loads rfl
  have hkeeps : (ledgerStore 5000).Keeps twoRows (encode blankTail) startedK := by
    have hfinished : finished blankTail = [ledgerLine succeededJ] := by
      rw [finished, lines_blankTail]
      rfl
    have hunfinished : unfinished blankTail = "  " := by
      rw [unfinished, lines_blankTail]
      rfl
    refine ⟨blankTail, decode_encode blankTail, ?_, Or.inl (by rw [hunfinished]; decide)⟩
    rw [hfinished, filled_succeededJ, List.forall_mem_singleton]
    exact ⟨some succeededJ, (twoRows_roundTrips List.mem_cons_self).2⟩
  have h := (appended_is_read_last_iff twoRows 500 5000 twoRows_scans twoRows_episodes twoRows_tasks
    twoRows_ledger).2.2.1 (encode blankTail) "" "k" .jobRun none []
    (twoRows_roundTrips (List.mem_cons_of_mem _ List.mem_cons_self)) htrue
  exact ⟨htrue, (h.mpr hkeeps).2 "" .jobRun none []⟩

def tornText : String := r#"{"key":"k"#

/-- Behind a torn line a key is started, no record is read, and it is started again. -/
theorem started_twice :
    let once := firstStart (encode tornText)
    once.1 = .ok true ∧ (ledgerStore 5000).loadAll twoRows once.2 = .ok [] ∧
      (firstStart once.2).1 = .ok true := by
  intro once
  have htorn : (ledgerStore 5000).loadAll twoRows (encode tornText) = .ok [] := by
    have hfilled : filled (lines tornText) = [tornText] := by decide
    rw [JsonlStore.loadAll, decode_encode]
    dsimp only
    rw [hfilled, JsonlStore.readLines, twoRows_other (by decide) (by decide)]
    rfl
  have hafter : (ledgerStore 5000).loadAll twoRows
      ((ledgerStore 5000).appendLine (encode tornText) startedK) = .ok [] := by
    have hfinished : filled (finished tornText) = [] := by decide
    have hlength : (unindented (unfinished tornText)).length = 9 := by decide
    have hlonger : (ledgerLine succeededJ).length = (ledgerLine startedK).length + 2 := by decide
    have hjoined : (strip (unfinished tornText ++ ledgerLine startedK)).length =
        9 + (ledgerLine startedK).length := by
      rw [ledgerLine, JsonlStore.strip_joined, String.length_append, hlength]
    have hnone := @twoRows_other (strip (unfinished tornText ++ ledgerLine startedK))
      (fun h => by rw [h] at hjoined; omega) (fun h => by rw [h] at hjoined; omega)
    rw [JsonlStore.loadAll_appendLine
        (twoRows_roundTrips (List.mem_cons_of_mem _ List.mem_cons_self)).1
        (decode_encode tornText), hfinished,
      List.nil_append, JsonlStore.readLines, ← ledgerLine, hnone]
    rfl
  have honce : once.2 = (ledgerStore 5000).appendLine (encode tornText) startedK := by
    have happend := tryStart_true (firstStart_admitted htorn rfl)
    refine happend.trans ?_
    exact congrArg Prod.snd (JsonlStore.trim_short hafter (by decide))
  have hread : (ledgerStore 5000).loadAll twoRows once.2 = .ok [] := by
    rw [honce]
    exact hafter
  exact ⟨firstStart_admitted htorn rfl, hread, firstStart_admitted hread rfl⟩

end TornTail
