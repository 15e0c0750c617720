import Benjamin.Doctor

/-!
# What the doctor can read

A run without flags looks at every file once. It returns exactly when no file makes it
raise: each is UTF-8, no text in it makes `json.loads` raise anything but a
`JSONDecodeError`, and the dates of the valid records of a file can be compared.
-/
namespace DoctorReading

open PyBase PlanSchemas JsonLines Doctor Effect

def AllAlike (dates : List Datetime) : Prop := ∀ a ∈ dates, ∀ b ∈ dates, a.Comparable b

/-- The dates can be compared with each other and with the current one, if there is one. -/
def Alike (current : Option Datetime) (dates : List Datetime) : Prop :=
  match current with
  | none => AllAlike dates
  | some c => ∀ a ∈ dates, a.Comparable c

theorem alike_none_cons (d : Datetime) (rest : List Datetime) :
    Alike none (d :: rest) ↔ Alike (some d) rest := by
  constructor
  · intro h a ha
    exact h a (List.mem_cons_of_mem _ ha) d List.mem_cons_self
  · intro h
    have hall : ∀ a ∈ d :: rest, a.Comparable d := by
      intro a ha
      rcases List.mem_cons.mp ha with rfl | ha
      · exact comparable_refl _
      · exact h a ha
    intro a ha b hb
    exact comparable_trans (hall a ha) (comparable_symm (hall b hb))

theorem alike_congr {c d : Datetime} (h : c.Comparable d) (dates : List Datetime) :
    Alike (some c) dates ↔ Alike (some d) dates :=
  ⟨fun hc a ha => comparable_trans (hc a ha) h,
    fun hd a ha => comparable_trans (hd a ha) (comparable_symm h)⟩

theorem alike_some_cons (c d : Datetime) (rest : List Datetime) :
    Alike (some c) (d :: rest) ↔ d.Comparable c ∧ Alike (some c) rest :=
  List.forall_mem_cons

section MaxTs

variable (rt : Runtime)

theorem maxTs_alike (current candidate : Option String) (rest : List Datetime) :
    (∃ latest, maxTs rt current candidate = .ok latest ∧
        Alike (timestampOrNone rt latest) rest) ↔
      Alike (timestampOrNone rt current) ((timestampOrNone rt candidate).toList ++ rest) := by
  rw [maxTs]
  cases hcandidate : timestampOrNone rt candidate with
  | none => simp
  | some d =>
    cases hcurrent : timestampOrNone rt current with
    | none =>
      rw [Option.toList_some, List.singleton_append, alike_none_cons]
      simp [hcandidate]
    | some c =>
      rw [Option.toList_some, List.singleton_append, alike_some_cons]
      dsimp only
      by_cases hcomparable : d.Comparable c
      · rw [gt_of_comparable hcomparable]
        have hlater : ∀ later : Bool, Alike
            (timestampOrNone rt (if later then candidate else current)) rest ↔
              Alike (some c) rest := by
          intro later
          cases later with
          | true =>
            simp only [if_true, hcandidate]
            exact alike_congr hcomparable rest
          | false =>
            simp only [Bool.false_eq_true, if_false, hcurrent]
        simp only [Except.map, Except.ok.injEq, exists_eq_left', hlater, hcomparable, true_and]
      · rw [gt_of_not_comparable hcomparable]
        simp [Except.map, hcomparable]

end MaxTs

section Scanning

variable (lib : DoctorLibraries) (artifact : KnownArtifact)

def validRecord (raw : String) : Option Validated :=
  match lib.loads raw with
  | none => none
  | some payload =>
    match lib.validate artifact.name payload with
    | .error _ => none
    | .ok validated => some validated

def dateOf (validated : Validated) : Option Datetime :=
  timestampOrNone lib.toRuntime (some validated.timestamp)

def dates (raws : List String) : List Datetime :=
  (raws.filterMap (validRecord lib artifact)).filterMap (dateOf lib)

/-- Neither `json.loads` nor `model_dump` raises on the line. -/
def Tame (raw : String) : Prop :=
  lib.loadsRaises raw = none ∧
    ∀ validated, validRecord lib artifact raw = some validated → ∃ row, validated.dumped = .ok row

structure Counted (s s' : Scan) (lines : Nat) : Prop where
  records : s'.recordCount = s.recordCount + lines
  balanced : s'.validCount + s'.invalidCount = s.validCount + s.invalidCount + lines
  rows : s'.rows.length + s.validCount = s.rows.length + s'.validCount

theorem Counted.refl (s : Scan) : Counted s s 0 := ⟨rfl, rfl, rfl⟩

theorem Counted.trans {s s₁ s₂ : Scan} {m n : Nat} (h : Counted s s₁ m) (h' : Counted s₁ s₂ n) :
    Counted s s₂ (m + n) := by
  obtain ⟨hrecords, hbalanced, hrows⟩ := h
  obtain ⟨hrecords', hbalanced', hrows'⟩ := h'
  exact ⟨by omega, by omega, by omega⟩

theorem countRecord_counted {s s' : Scan} {lineNo : Nat} {raw : String}
    (h : countRecord lib artifact { s with recordCount := s.recordCount + 1 } lineNo raw = .ok s') :
    Counted s s' 1 := by
  rw [countRecord] at h
  split at h
  · cases h
  · cases h
    exact ⟨rfl, by simp only [Scan.invalid]; omega, rfl⟩
  · split at h
    · cases h
      exact ⟨rfl, by simp only [Scan.invalid]; omega, rfl⟩
    · rw [countValid] at h
      split at h
      · cases h
      · split at h
        · cases h
        · cases h
          refine ⟨rfl, ?_, ?_⟩
          · dsimp only
            omega
          · rw [List.length_append]
            dsimp only [List.length_singleton]
            omega

theorem filled_single (line : String) :
    (filled [line]).length = if strip line = "" then 0 else 1 := by
  by_cases h : strip line = "" <;> simp [filled, h]

theorem scanLine_counted {s s' : Scan} {lineNo : Nat} {line : String}
    (h : scanLine lib artifact s lineNo line = .ok s') :
    Counted s s' (filled [line]).length := by
  unfold scanLine at h
  rw [filled_single]
  dsimp only at h
  split at h
  · rename_i hblank
    cases h
    rw [if_pos hblank]
    exact Counted.refl s
  · rename_i hfilled
    rw [if_neg hfilled]
    exact countRecord_counted lib artifact h

theorem scanLines_counted {s s' : Scan} {lineNo : Nat} {ls : List String}
    (h : scanLines lib artifact s lineNo ls = .ok s') : Counted s s' (filled ls).length := by
  induction ls generalizing s lineNo with
  | nil =>
    cases h
    exact Counted.refl _
  | cons line rest ih =>
    rw [scanLines] at h
    split at h
    · cases h
    · rename_i s₁ hline
      have hcounted := (scanLine_counted lib artifact hline).trans (ih h)
      rwa [← List.length_append, ← filled_append] at hcounted

/-- A line is scanned without an error, and the dates after it can be compared with the
latest one, when the line is tame and its date can be compared too. -/
theorem countRecord_alike (s : Scan) (lineNo : Nat) (raw : String) (rest : List Datetime) :
    (∃ s', countRecord lib artifact s lineNo raw = .ok s' ∧
        Alike (timestampOrNone lib.toRuntime s'.lastTsIso) rest) ↔
      Tame lib artifact raw ∧
        Alike (timestampOrNone lib.toRuntime s.lastTsIso) (dates lib artifact [raw] ++ rest) := by
  rw [countRecord, jsonLoads, Tame, dates]
  cases hraises : lib.loadsRaises raw with
  | some e => simp
  | none =>
    cases hloads : lib.loads raw with
    | none =>
      have hnone : validRecord lib artifact raw = none := by
        rw [validRecord, hloads]
      simp [hnone, Scan.invalid]
    | some payload =>
      cases hvalidate : lib.validate artifact.name payload with
      | error loc =>
        have hnone : validRecord lib artifact raw = none := by
          simp only [validRecord, hloads, hvalidate]
        simp [hnone, hvalidate, Scan.invalid]
      | ok validated =>
        have hsome : validRecord lib artifact raw = some validated := by
          simp only [validRecord, hloads, hvalidate]
        have hdates : ([raw].filterMap (validRecord lib artifact)).filterMap (dateOf lib) =
            (dateOf lib validated).toList := by
          cases hdate : dateOf lib validated <;> simp [hsome, hdate]
        rw [hdates, dateOf, ← maxTs_alike]
        simp only [hvalidate, hsome, Option.some.injEq, forall_eq', true_and, countValid]
        cases hlatest : maxTs lib.toRuntime s.lastTsIso (some validated.timestamp) with
        | error e => simp
        | ok latest => cases hdumped : validated.dumped <;> simp

theorem dates_append (xs ys : List String) :
    dates lib artifact (xs ++ ys) = dates lib artifact xs ++ dates lib artifact ys := by
  simp [dates]

theorem scanLines_ok_iff (s : Scan) (lineNo : Nat) (ls : List String) :
    (∃ s', scanLines lib artifact s lineNo ls = .ok s') ↔
      (∀ raw ∈ filled ls, Tame lib artifact raw) ∧
        Alike (timestampOrNone lib.toRuntime s.lastTsIso) (dates lib artifact (filled ls)) := by
  induction ls generalizing s lineNo with
  | nil =>
    have hnil : Alike (timestampOrNone lib.toRuntime s.lastTsIso) [] := by
      cases timestampOrNone lib.toRuntime s.lastTsIso <;> exact nofun
    exact ⟨fun _ => ⟨nofun, hnil⟩, fun _ => ⟨s, rfl⟩⟩
  | cons line rest ih =>
    rw [filled_cons]
    rw [scanLines, scanLine]
    by_cases hblank : strip line = ""
    · simp only [hblank, if_true, List.nil_append]
      exact ih s (lineNo + 1)
    · simp only [hblank, if_false, List.singleton_append, List.forall_mem_cons]
      rw [← List.singleton_append, dates_append, and_assoc]
      have hstep := countRecord_alike lib artifact
        { s with recordCount := s.recordCount + 1 } lineNo (strip line)
        (dates lib artifact (filled rest))
      constructor
      · rintro ⟨s', h⟩
        split at h
        · cases h
        · rename_i s₁ hline
          obtain ⟨htame, halike⟩ := (ih s₁ (lineNo + 1)).mp ⟨s', h⟩
          obtain ⟨hfirst, hall⟩ := hstep.mp ⟨s₁, hline, halike⟩
          exact ⟨hfirst, htame, hall⟩
      · rintro ⟨hfirst, htame, hall⟩
        obtain ⟨s₁, hline, halike⟩ := hstep.mpr ⟨hfirst, hall⟩
        rw [hline]
        exact (ih s₁ (lineNo + 1)).mpr ⟨htame, halike⟩

end Scanning

section Reports

variable (lib : DoctorLibraries)

/-- Nothing in the file makes the doctor raise. -/
def Readable (artifact : KnownArtifact) (content : ByteArray) : Prop :=
  ∃ text, decode content = some text ∧ match artifact.format with
    | .json => lib.loadsRaises text = none
    | .jsonl => (∀ raw ∈ filled (lines text), Tame lib artifact raw) ∧
        AllAlike (dates lib artifact (filled (lines text)))

def lineCount (content : Option ByteArray) : Nat :=
  ((content.bind decode).map fun text => (filled (lines text)).length).getD 0

def CountsLines (content : Option ByteArray) (report : DoctorFileReport) : Prop :=
  ∃ records valid invalid, report.recordCount = some records ∧ report.validCount = some valid ∧
    report.invalidCount = some invalid ∧ records = valid + invalid ∧ records = lineCount content

theorem scanFile_ok_iff (artifact : KnownArtifact) (content : ByteArray) :
    (∃ s, scanFile lib artifact content = .ok s) ↔ ∃ text, decode content = some text ∧
      (∀ raw ∈ filled (lines text), Tame lib artifact raw) ∧
        AllAlike (dates lib artifact (filled (lines text))) := by
  rw [scanFile]
  cases hdecode : decode content with
  | none => simp
  | some text =>
    have hiff := scanLines_ok_iff lib artifact .empty 1 (lines text)
    simp only [Option.some.injEq, exists_eq_left']
    exact hiff

theorem scanFile_counted {artifact : KnownArtifact} {content : ByteArray} {s : Scan}
    (h : scanFile lib artifact content = .ok s) :
    s.recordCount = s.validCount + s.invalidCount ∧ s.recordCount = lineCount (some content) ∧
      s.rows.length = s.validCount := by
  rw [scanFile] at h
  split at h
  · cases h
  · rename_i text hdecode
    obtain ⟨hrecords, hbalanced, hrows⟩ := scanLines_counted lib artifact h
    have hcount : lineCount (some content) = (filled (lines text)).length := by
      simp [lineCount, hdecode]
    simp only [Scan.empty, List.length_nil] at hrecords hbalanced hrows
    exact ⟨by omega, by omega, by omega⟩

theorem readJson_ok_iff (artifact : KnownArtifact) (sizeBytes : Nat) (text : String) :
    (∃ report, readJson lib artifact sizeBytes text = .ok report) ↔
    lib.loadsRaises text = none := by
  rw [readJson, jsonLoads]
  cases lib.loadsRaises text with
  | some e => simp
  | none =>
    cases lib.loads text with
    | none => simp
    | some payload => cases hvalidate : lib.validate artifact.name payload <;> simp [hvalidate]

def reportOf (artifact : KnownArtifact) (content : Option ByteArray) :
    Except PyError DoctorFileReport :=
  match artifact.format with
  | .jsonl => (jsonlReport lib artifact content).map Prod.fst
  | .json => jsonReport lib artifact content

theorem reportOf_ok_iff (artifact : KnownArtifact) (content : Option ByteArray) :
    (∃ report, reportOf lib artifact content = .ok report) ↔
      ∀ c, content = some c → Readable lib artifact c := by
  unfold reportOf Readable
  cases content with
  | none => cases artifact.format <;> simp [jsonlReport, jsonReport, Except.map]
  | some content =>
    simp only [Option.some.injEq, forall_eq']
    cases artifact.format with
    | jsonl =>
      rw [← scanFile_ok_iff]
      cases hscan : scanFile lib artifact content <;> simp [jsonlReport, Except.map, hscan]
    | json =>
      dsimp only [jsonReport]
      cases decode content with
      | none => simp
      | some text => simpa using readJson_ok_iff lib artifact content.size text

theorem reportOf_counts {artifact : KnownArtifact} {content : Option ByteArray}
    {report : DoctorFileReport} (hformat : artifact.format = .jsonl)
    (h : reportOf lib artifact content = .ok report) : CountsLines content report := by
  rw [reportOf, hformat] at h
  cases content with
  | none =>
    cases h
    exact ⟨0, 0, 0, rfl, rfl, rfl, rfl, rfl⟩
  | some content =>
    cases hscan : scanFile lib artifact content with
    | error e => simp [jsonlReport, Except.map, hscan] at h
    | ok s =>
      obtain ⟨hbalanced, hcount, -⟩ := scanFile_counted lib hscan
      simp only [jsonlReport, Except.map, hscan, Except.ok.injEq] at h
      rw [← h]
      exact ⟨_, _, _, rfl, rfl, rfl, hbalanced, hcount⟩

def unflagged (call : DoctorCall) : DoctorCall := { call with repair := false, compact := false }

theorem checkFile_unflagged (call : DoctorCall) (artifact : KnownArtifact) (d : Disk) :
    checkFile lib (unflagged call) artifact d =
      (reportOf lib artifact (d.files artifact.fileName), d) := by
  rw [checkFile, reportOf]
  cases artifact.format with
  | json => rfl
  | jsonl =>
    dsimp only
    rw [checkJsonl, ask_bind]
    cases jsonlReport lib artifact (d.files artifact.fileName) with
    | error e => rfl
    | ok out =>
      simp [repairFile, compactFile, unflagged, Except.map]
      rfl

theorem unchanged_chains : Chains fun d d' : Disk => d' = d :=
  ⟨fun _ => rfl, fun h h' => h'.trans h⟩

/-- Without flags no file is written, whether the run returns or raises. -/
theorem runDoctor_unflagged_keeps (call : DoctorCall) :
    Keeps (fun d d' => d' = d) (runDoctor lib (unflagged call)) := by
  have hfiles : ∀ artifacts,
      Keeps (fun d d' => d' = d) (checkFiles lib (unflagged call) artifacts) := by
    intro artifacts
    induction artifacts with
    | nil => exact .pure unchanged_chains _
    | cons artifact rest ih =>
      refine .bind unchanged_chains ?_ fun report => .bind unchanged_chains ih fun reports =>
        .pure unchanged_chains _
      intro d
      rw [checkFile_unflagged]
  exact .bind unchanged_chains (hfiles _) fun reports => .pure unchanged_chains _

theorem checkFiles_unflagged (call : DoctorCall) (artifacts : List KnownArtifact) (d : Disk) :
    (∃ reports, checkFiles lib (unflagged call) artifacts d = (.ok reports, d) ∧
        List.Forall₂ (fun artifact report => artifact.format = .jsonl →
          CountsLines (d.files artifact.fileName) report) artifacts reports) ↔
      ∀ artifact ∈ artifacts, ∀ content, d.files artifact.fileName = some content →
        Readable lib artifact content := by
  induction artifacts with
  | nil => exact ⟨fun _ => nofun, fun _ => ⟨[], rfl, .nil⟩⟩
  | cons artifact rest ih =>
    rw [checkFiles]
    have hfirst := checkFile_unflagged lib call artifact d
    rw [List.forall_mem_cons, ← ih, ← reportOf_ok_iff]
    constructor
    · rintro ⟨reports, hrun, hcounts⟩
      cases hreport : reportOf lib artifact (d.files artifact.fileName) with
      | error e =>
        rw [hreport] at hfirst
        rw [bind_error hfirst] at hrun
        cases hrun
      | ok report =>
        rw [hreport] at hfirst
        rw [bind_ok hfirst] at hrun
        refine ⟨⟨report, rfl⟩, ?_⟩
        cases hrest : checkFiles lib (unflagged call) rest d with
        | mk r d' =>
          cases r with
          | error e =>
            rw [bind_error hrest] at hrun
            cases hrun
          | ok others =>
            rw [bind_ok hrest] at hrun
            cases hrun
            cases hcounts with
            | cons _ hothers => exact ⟨others, rfl, hothers⟩
    · rintro ⟨⟨report, hreport⟩, reports, hrest, hcounts⟩
      rw [hreport] at hfirst
      rw [bind_ok hfirst, bind_ok hrest]
      exact ⟨report :: reports, rfl, .cons (fun hformat => reportOf_counts lib hformat hreport)
        hcounts⟩

/-- The run returns a report, modifies no file, and has counted the lines of each JSONL
file. -/
def Survives (call : DoctorCall) (d : Disk) : Prop :=
  ∃ report d', runDoctor lib call d = (.ok report, d') ∧ d'.files = d.files ∧
    List.Forall₂ (fun artifact r => artifact.format = .jsonl →
      CountsLines (d.files artifact.fileName) r) knownArtifacts report.files

theorem Survives.readable {call : DoctorCall} {d : Disk} (h : Survives lib (unflagged call) d) :
    ∀ artifact ∈ knownArtifacts, ∀ content, d.files artifact.fileName = some content →
      Readable lib artifact content := by
  obtain ⟨report, d', hrun, -, hcounts⟩ := h
  have hkeeps : d' = d := by
    have := runDoctor_unflagged_keeps lib call d
    rwa [hrun] at this
  refine (checkFiles_unflagged lib call knownArtifacts d).mp ?_
  cases hfiles : checkFiles lib (unflagged call) knownArtifacts d with
  | mk r d'' =>
    rw [runDoctor] at hrun
    cases r with
    | error e =>
      rw [bind_error hfiles] at hrun
      cases hrun
    | ok reports =>
      rw [bind_ok hfiles] at hrun
      cases hrun
      exact ⟨reports, by rw [hkeeps], hcounts⟩

theorem doctor_survives_iff (call : DoctorCall) (d : Disk) :
    Survives lib (unflagged call) d ↔
      ∀ artifact ∈ knownArtifacts, ∀ content, d.files artifact.fileName = some content →
        Readable lib artifact content := by
  refine ⟨Survives.readable lib, fun hreadable => ?_⟩
  obtain ⟨reports, hfiles, hcounts⟩ :=
    (checkFiles_unflagged lib call knownArtifacts d).mpr hreadable
  refine ⟨assemble (unflagged call) reports, d, ?_, rfl, hcounts⟩
  rw [runDoctor, bind_ok hfiles]
  rfl

end Reports

def noteFields (date : String) : Dict :=
  [("id", .str "a"), ("kind", .str "note"), ("summary", .str "s"), ("ts_iso", .str date),
    ("meta", .obj [])]

def naiveDate : String := "2026-01-01T00:00:00"
def awareDate : String := "2026-01-01T00:00:00+00:00"

theorem noteFields_plain (date : String) : PlainFloats (.obj (noteFields date)) := by
  simp [noteFields, PlainFloats, PlainFields]

def noteRecord (date : String) : Validated :=
  ⟨.ok ⟨noteFields date, noteFields_plain date, none⟩, date⟩

def strayFields : Dict := [("id", .str "b")]

def knownRows : List Dict := [noteFields naiveDate, noteFields awareDate, strayFields]

/-- Libraries that know two notes, one with a naive and one with an aware date, and a
record that is no note. -/
def noteLibraries : DoctorLibraries where
  uuid4 n := toString n
  sha256 s := s
  loads s := (knownRows.find? fun row => compactJson row = s).map Json.obj
  str _ := ""
  casefold s := s
  fromisoformat s :=
    if s = naiveDate then some (.naive 1767225600000000)
    else if s = awareDate then some (.aware 1767225600000000) else none
  skillRun _ := .returned ""
  notifierSend _ := none
  loadsRaises _ := none
  zoneInfo _ := .notFound
  jsonError _ := "Expecting value"
  validate _ payload := match payload with
    | .obj fields => match Dict.lookup fields "ts_iso" with
      | .str date => .ok (noteRecord date)
      | _ => .error "('ts_iso',)"
    | _ => .error "()"

def plainCall : DoctorCall := ⟨"/state", false, false, fun _ => none, fun _ => 0, fun _ => 0, 0⟩

def episodicOnly (content : ByteArray) : Disk :=
  ⟨fun name => if name = "episodic.jsonl" then some content else none, []⟩

def mixedNotes : ByteArray := encode (rowsText [noteFields naiveDate, noteFields awareDate])

def episodicArtifact : KnownArtifact :=
  ⟨"episodic", .jsonl, some ("BENJAMIN_EPISODES_MAX", 5000), true⟩

theorem loads_known {row : Dict} (h : row ∈ knownRows) :
    noteLibraries.loads (compactJson row) = some (.obj row) := by
  have hlengths : (knownRows.map fun row => (compactJson row).toList.length).Nodup := by decide
  have hfound : (knownRows.find? fun other => compactJson other = compactJson row).isSome :=
    List.find?_isSome.mpr ⟨row, h, by simp⟩
  obtain ⟨other, hother⟩ := Option.isSome_iff_exists.mp hfound
  have hsame : compactJson other = compactJson row := by simpa using List.find?_some hother
  have heq : other = row := List.inj_on_of_nodup_map hlengths (List.mem_of_find?_eq_some hother) h
    (by rw [hsame])
  rw [heq] at hother
  simp [noteLibraries, hother]

theorem validRecord_note (date : String) (h : noteFields date ∈ knownRows) :
    validRecord noteLibraries episodicArtifact (compactJson (noteFields date)) =
      some (noteRecord date) := by
  rw [validRecord, loads_known h]
  rfl

theorem mixed_dates : dates noteLibraries episodicArtifact
    ([noteFields naiveDate, noteFields awareDate].map compactJson) =
      [.naive 1767225600000000, .aware 1767225600000000] := by
  have hnaive := validRecord_note naiveDate (by simp [knownRows])
  have haware := validRecord_note awareDate (by simp [knownRows])
  rw [dates, List.map_cons, List.map_cons, List.map_nil, List.filterMap_cons_some hnaive,
    List.filterMap_cons_some haware]
  rfl

theorem doctor_stops :
    ¬ Survives noteLibraries (unflagged plainCall) (episodicOnly ⟨#[255]⟩) ∧
      ¬ Survives noteLibraries (unflagged plainCall) (episodicOnly mixedNotes) := by
  have hepisodic : episodicArtifact ∈ knownArtifacts := by decide
  refine ⟨fun h => ?_, fun h => ?_⟩
  · obtain ⟨text, hdecode, -⟩ := h.readable noteLibraries _ hepisodic _ rfl
    cases hdecode
  · obtain ⟨text, hdecode, -, halike⟩ := h.readable noteLibraries _ hepisodic _ rfl
    have htext : rowsText [noteFields naiveDate, noteFields awareDate] = text :=
      Option.some.inj ((decode_encode _).symm.trans hdecode)
    subst htext
    have hplain : ∀ row ∈ [noteFields naiveDate, noteFields awareDate], PlainFloats (.obj row) := by
      simp [noteFields_plain]
    rw [filled_rowsText hplain, mixed_dates] at halike
    exact halike _ List.mem_cons_self _ (List.mem_cons_of_mem _ List.mem_cons_self)

end DoctorReading
