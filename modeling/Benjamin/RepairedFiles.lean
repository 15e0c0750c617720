import Benjamin.DoctorBackups
import Benjamin.RecordModels

/-!
# What a repair leaves to the stores

The loaders of the six stores beside the doctor's repair. The doctor writes what the same
models make of the valid lines, so a store loads the same records; a file keeps its
invalid lines where the doctor raises before it is repaired.
-/
namespace RepairedFiles

open PyBase JsonLines Doctor DoctorReading DoctorBackups RecordModels RuleStore Effect

/-- A store and its file. `catches` tells what the loader catches around a line, and `adapt`
what it makes of a validated record. -/
structure Store where
  artifact : KnownArtifact
  Record : Type
  model : RecordModel Record
  catches : PyError → Bool
  adapt : Record → Record

/-- `except (json.JSONDecodeError, ValueError)`. -/
def catchesValueErrors : PyError → Bool
  | .valueError _ => true
  | _ => false

def jsonlArtifact (name : String) (retention : Option (String × Int)) : KnownArtifact :=
  ⟨name, .jsonl, retention, true⟩

def stores (v : Validation) : List Store :=
  [⟨jsonlArtifact "semantic" none, _, semanticFact, catchesValueErrors, id⟩,
    ⟨jsonlArtifact "episodic" (some ("BENJAMIN_EPISODES_MAX", 5000)), _, episode,
      catchesValueErrors, id⟩,
    ⟨jsonlArtifact "approvals" none, _, pendingApproval v, catchesValueErrors, id⟩,
    ⟨jsonlArtifact "rules" none, _, rule v, catchesValueErrors, migrateRule⟩,
    ⟨jsonlArtifact "tasks" (some ("BENJAMIN_TASKS_MAX", 500)), _, taskRecord, catchesValueErrors,
      id⟩,
    ⟨jsonlArtifact "executions" (some ("BENJAMIN_LEDGER_MAX", 5000)), _, ledgerRecord,
      fun _ => true, id⟩]

theorem stores_artifacts (v : Validation) :
    (stores v).map Store.artifact = knownArtifacts.filter fun a => a.format = .jsonl := by
  simp only [stores, List.map_cons, List.map_nil]
  decide

section Loading

variable (lib : Libraries) (store : Store)

/-- The loop of `_load_all` over the lines that are not blank. -/
def loadLines : List String → Except PyError (List store.Record)
  | [] => .ok []
  | raw :: rest =>
    match jsonLoads lib raw with
    | .error e => if store.catches e then loadLines rest else .error e
    | .ok payload =>
      match payload.bind store.model.validate with
      | none => loadLines rest
      | some record => (loadLines rest).map (store.adapt record :: ·)

/-- `_load_all`. -/
def load : Option ByteArray → Except PyError (List store.Record)
  | none => .ok []
  | some content =>
    match decode content with
    | none => .error decodeError
    | some text => loadLines lib store (filled (lines text))

end Loading

def rawLines (content : Option ByteArray) : List String :=
  ((content.bind decode).map fun text => filled (lines text)).getD []

/-- The record that a line holds, where `json.loads` raises nothing on it. -/
def recordOn (lib : Libraries) {ρ : Type} (model : RecordModel ρ) (raw : String) : Option ρ :=
  if lib.loadsRaises raw = none then (lib.loads raw).bind model.validate else none

def AllValid (lib : Libraries) {ρ : Type} (model : RecordModel ρ) (content : Option ByteArray) :
    Prop :=
  ∀ raw ∈ rawLines content, (recordOn lib model raw).isSome

/-- The doctor validates with the model of the store, and writes what it dumps. -/
structure SharesModel (lib : DoctorLibraries) (store : Store) : Prop where
  rejects : ∀ payload, store.model.validate payload = none →
    ∃ loc, lib.validate store.artifact.name payload = .error loc
  accepts : ∃ image : store.Record → Validated,
    (∀ payload record, store.model.validate payload = some record →
      lib.validate store.artifact.name payload = .ok (image record)) ∧
    ∀ record row, (image record).dumped = .ok row → row.fields = store.model.dump record

def ReadsFloat (lib : Libraries) (repr : String) : Prop := lib.loads repr = some (.float repr)

/-- `json.loads` makes dicts of objects, and reads what `json.dumps` has written. -/
structure ReadsRows (lib : Libraries) : Prop where
  genuine : ∀ text payload, lib.loads text = some payload → Genuine (ReadsFloat lib) payload
  back : ∀ fields, Genuine (ReadsFloat lib) (.obj fields) →
    lib.loadsRaises (compactJson fields) = none →
      lib.loads (compactJson fields) = some (.obj fields)

/-- `run_doctor(repair=True)`. -/
def repairing (call : DoctorCall) : DoctorCall := { call with repair := true, compact := false }

def filesAfter (lib : DoctorLibraries) (call : DoctorCall) (files : String → Option ByteArray) :
    String → Option ByteArray :=
  (runDoctor lib (repairing call) ⟨files, []⟩).2.files

/-- The store loads what it loaded before the repair, the file has no invalid line, and a
second repair does not write it. -/
structure Preserved (lib : DoctorLibraries) (store : Store) (call again : DoctorCall)
    (files : String → Option ByteArray) : Prop where
  records : load lib.toLibraries store (filesAfter lib call files store.artifact.fileName) =
    load lib.toLibraries store (files store.artifact.fileName)
  valid : AllValid lib.toLibraries store.model (filesAfter lib call files store.artifact.fileName)
  settled : store.artifact.fileName ∉
    (runDoctor lib (repairing again) ⟨filesAfter lib call files, []⟩).2.written

/-- The doctor gets to the file, reads it, can encode its valid rows and reads them again. -/
def Repairable (lib : DoctorLibraries) (store : Store) (call : DoctorCall)
    (files : String → Option ByteArray) : Prop :=
  Reached lib (repairing call) files store.artifact ∧
    ∃ content s, files store.artifact.fileName = some content ∧
      scanFile lib store.artifact content = .ok s ∧ Writable s.rows ∧
        ∀ row ∈ s.rows, lib.loadsRaises (compactJson row.fields) = none

section Scans

variable {lib : DoctorLibraries} {store : Store}

theorem countRecord_records (h : SharesModel lib store) {s s' : Scan} {lineNo : Nat} {raw : String}
    (hcount : countRecord lib store.artifact s lineNo raw = .ok s') :
    lib.loadsRaises raw = none ∧
      s'.rows.map Row.fields = s.rows.map Row.fields ++
        ((recordOn lib.toLibraries store.model raw).map store.model.dump).toList ∧
      s'.invalidCount = s.invalidCount +
        if (recordOn lib.toLibraries store.model raw).isNone then 1 else 0 := by
  rw [countRecord, jsonLoads] at hcount
  rw [recordOn]
  cases hraises : lib.loadsRaises raw with
  | some e =>
    rw [hraises] at hcount
    cases hcount
  | none =>
    rw [hraises] at hcount
    cases hloads : lib.loads raw with
    | none =>
      rw [hloads] at hcount
      cases hcount
      exact ⟨rfl, (List.append_nil _).symm, rfl⟩
    | some payload =>
      rw [hloads] at hcount
      dsimp only at hcount
      cases hvalidate : store.model.validate payload with
      | none =>
        obtain ⟨loc, hloc⟩ := h.rejects payload hvalidate
        rw [hloc] at hcount
        cases hcount
        rw [if_pos rfl, Option.bind_some, hvalidate]
        exact ⟨rfl, (List.append_nil _).symm, rfl⟩
      | some record =>
        obtain ⟨image, himage, hfields⟩ := h.accepts
        rw [himage payload record hvalidate] at hcount
        dsimp only [countValid] at hcount
        split at hcount
        · cases hcount
        · split at hcount
          · cases hcount
          · rename_i row hdumped
            cases hcount
            rw [if_pos rfl, Option.bind_some, hvalidate]
            refine ⟨rfl, ?_, rfl⟩
            rw [List.map_append, List.map_singleton, hfields record row hdumped]
            rfl

theorem scanLines_records (h : SharesModel lib store) {s s' : Scan} {lineNo : Nat}
    {ls : List String} (hscan : scanLines lib store.artifact s lineNo ls = .ok s') :
    (∀ raw ∈ filled ls, lib.loadsRaises raw = none) ∧
      s'.rows.map Row.fields = s.rows.map Row.fields ++
        ((filled ls).filterMap (recordOn lib.toLibraries store.model)).map store.model.dump ∧
      s'.invalidCount = s.invalidCount +
        (filled ls).countP fun raw => (recordOn lib.toLibraries store.model raw).isNone := by
  induction ls generalizing s lineNo with
  | nil =>
    cases hscan
    exact ⟨nofun, (List.append_nil _).symm, rfl⟩
  | cons line rest ih =>
    rw [scanLines, scanLine] at hscan
    rw [filled_cons]
    by_cases hblank : strip line = ""
    · simp only [hblank, if_true] at hscan ⊢
      exact ih hscan
    · simp only [hblank, if_false] at hscan ⊢
      split at hscan
      · cases hscan
      · rename_i s₁ hline
        obtain ⟨hraises, hrows, hinvalid⟩ := countRecord_records h hline
        obtain ⟨hraises', hrows', hinvalid'⟩ := ih hscan
        rw [List.singleton_append, List.forall_mem_cons, List.countP_cons]
        refine ⟨⟨hraises, hraises'⟩, ?_, ?_⟩
        · rw [hrows', hrows, List.filterMap_cons]
          cases recordOn lib.toLibraries store.model (strip line) <;> simp
        · rw [hinvalid', hinvalid]
          dsimp only
          omega

theorem scanFile_records (h : SharesModel lib store) {content : ByteArray} {s : Scan}
    (hscan : scanFile lib store.artifact content = .ok s) :
    (∀ raw ∈ rawLines (some content), lib.loadsRaises raw = none) ∧
      s.rows.map Row.fields = ((rawLines (some content)).filterMap
        (recordOn lib.toLibraries store.model)).map store.model.dump ∧
      (s.invalidCount = 0 ↔ AllValid lib.toLibraries store.model (some content)) := by
  rw [scanFile] at hscan
  cases hdecode : decode content with
  | none =>
    rw [hdecode] at hscan
    cases hscan
  | some text =>
    rw [hdecode] at hscan
    have hlines : rawLines (some content) = filled (lines text) := by
      simp [rawLines, hdecode]
    obtain ⟨hraises, hrows, hinvalid⟩ := scanLines_records h hscan
    have hempty : Scan.empty.invalidCount = 0 := rfl
    rw [AllValid, hlines]
    refine ⟨hraises, hrows, ?_⟩
    rw [hinvalid, hempty, Nat.zero_add, List.countP_eq_zero]
    simp only [Option.isNone_iff_eq_none, ← Option.isSome_iff_ne_none]

end Scans

section Loads

variable {lib : Libraries} {store : Store}

theorem loadLines_quiet {raws : List String} (h : ∀ raw ∈ raws, lib.loadsRaises raw = none) :
    loadLines lib store raws =
      .ok ((raws.filterMap (recordOn lib store.model)).map store.adapt) := by
  induction raws with
  | nil => rfl
  | cons raw rest ih =>
    rw [List.forall_mem_cons] at h
    have hrest := ih h.2
    rw [loadLines, jsonLoads, h.1]
    dsimp only
    rw [List.filterMap_cons, recordOn, if_pos h.1]
    cases (lib.loads raw).bind store.model.validate with
    | none => exact hrest
    | some record =>
      dsimp only
      rw [hrest]
      rfl

theorem load_quiet {content : ByteArray} {text : String} (hdecode : decode content = some text)
    (h : ∀ raw ∈ rawLines (some content), lib.loadsRaises raw = none) :
    load lib store (some content) = .ok
      (((rawLines (some content)).filterMap (recordOn lib store.model)).map store.adapt) := by
  have hlines : rawLines (some content) = filled (lines text) := by
    simp [rawLines, hdecode]
  rw [hlines] at h ⊢
  simp only [load, hdecode]
  exact loadLines_quiet h

theorem recordOn_dump (h : ReadsRows lib) {raw : String} {record : store.Record}
    (hrecord : recordOn lib store.model raw = some record)
    (hraises : lib.loadsRaises (compactJson (store.model.dump record)) = none) :
    recordOn lib store.model (compactJson (store.model.dump record)) = some record := by
  rw [recordOn] at hrecord ⊢
  split at hrecord
  · obtain ⟨payload, hpayload, hvalidate⟩ := Option.bind_eq_some_iff.mp hrecord
    have hgenuine := store.model.genuine (h.genuine raw payload hpayload) hvalidate
    rw [if_pos hraises, h.back _ hgenuine hraises, Option.bind_some]
    exact store.model.stable hvalidate
  · cases hrecord

end Loads

def repairedContent (s : Scan) : ByteArray := encode (rowsText (s.rows.map Row.fields))

section Repaired

variable {lib : DoctorLibraries} {store : Store} {content : ByteArray} {s : Scan}

theorem rawLines_repaired (s : Scan) :
    rawLines (some (repairedContent s)) = s.rows.map fun row => compactJson row.fields := by
  have hplain : ∀ fields ∈ s.rows.map Row.fields, PlainFloats (.obj fields) := by
    intro fields hfields
    obtain ⟨row, -, rfl⟩ := List.mem_map.mp hfields
    exact row.plain
  simp [rawLines, repairedContent, decode_encode, filled_rowsText hplain]

theorem rawLines_records (h : SharesModel lib store)
    (hscan : scanFile lib store.artifact content = .ok s) :
    rawLines (some (repairedContent s)) =
      ((rawLines (some content)).filterMap (recordOn lib.toLibraries store.model)).map
        fun record => compactJson (store.model.dump record) := by
  have hrows := congrArg (List.map compactJson) (scanFile_records h hscan).2.1
  rw [List.map_map, List.map_map] at hrows
  rw [rawLines_repaired]
  exact hrows

theorem recordOn_repaired (h : SharesModel lib store) (hjson : ReadsRows lib.toLibraries)
    (hscan : scanFile lib store.artifact content = .ok s)
    (hagain : ∀ row ∈ s.rows, lib.loadsRaises (compactJson row.fields) = none) :
    ∀ record ∈ (rawLines (some content)).filterMap (recordOn lib.toLibraries store.model),
      recordOn lib.toLibraries store.model (compactJson (store.model.dump record)) =
        some record := by
  intro record hrecord
  obtain ⟨raw, hraw, hon⟩ := List.mem_filterMap.mp hrecord
  have hmem : compactJson (store.model.dump record) ∈ rawLines (some (repairedContent s)) := by
    rw [rawLines_records h hscan]
    exact List.mem_map_of_mem hrecord
  rw [rawLines_repaired] at hmem
  obtain ⟨row, hrow, hsame⟩ := List.mem_map.mp hmem
  exact recordOn_dump hjson hon (hsame ▸ hagain row hrow)

/-- The store loads the same records, in the same order, from valid lines alone. -/
theorem repaired_preserves (h : SharesModel lib store) (hjson : ReadsRows lib.toLibraries)
    (hscan : scanFile lib store.artifact content = .ok s)
    (hagain : ∀ row ∈ s.rows, lib.loadsRaises (compactJson row.fields) = none) :
    load lib.toLibraries store (some (repairedContent s)) =
        load lib.toLibraries store (some content) ∧
      AllValid lib.toLibraries store.model (some (repairedContent s)) := by
  have hrecords := recordOn_repaired h hjson hscan hagain
  have hlines := rawLines_records h hscan
  have hquiet : ∀ raw ∈ rawLines (some (repairedContent s)), lib.loadsRaises raw = none := by
    rw [rawLines_repaired]
    intro raw hraw
    obtain ⟨row, hrow, rfl⟩ := List.mem_map.mp hraw
    exact hagain row hrow
  obtain ⟨text, hdecode⟩ : ∃ text, decode content = some text := by
    rw [scanFile] at hscan
    split at hscan
    · cases hscan
    · exact ⟨_, ‹_›⟩
  constructor
  · have hdecode' : decode (repairedContent s) = some _ := decode_encode _
    have hsame := (List.filterMap_congr hrecords).trans List.filterMap_some
    rw [load_quiet hdecode' hquiet, load_quiet hdecode (scanFile_records h hscan).1, hlines,
      List.filterMap_map]
    exact congrArg (fun records => Except.ok (records.map store.adapt)) hsame
  · rw [AllValid, hlines]
    intro raw hraw
    obtain ⟨record, hrecord, rfl⟩ := List.mem_map.mp hraw
    rw [hrecords record hrecord]
    rfl

/-- A row that `json.loads` does not read again is an invalid line of the repaired file. -/
theorem repaired_invalid
    (hagain : ¬ ∀ row ∈ s.rows, lib.loadsRaises (compactJson row.fields) = none) :
    ¬ AllValid lib.toLibraries store.model (some (repairedContent s)) := by
  intro hvalid
  refine hagain fun row hrow => ?_
  have hmem : compactJson row.fields ∈ rawLines (some (repairedContent s)) := by
    rw [rawLines_repaired]
    exact List.mem_map_of_mem hrow
  have hsome := hvalid _ hmem
  rw [recordOn] at hsome
  by_contra hraises
  rw [if_neg hraises] at hsome
  cases hsome

end Repaired

section Running

variable {lib : DoctorLibraries} {store : Store}

theorem repairing_compacts {call : DoctorCall} {a : KnownArtifact} {s : Scan} :
    ¬ Compacts lib (repairing call) a s := fun h => Bool.false_ne_true h.1

variable {call : DoctorCall} {d : Disk} {content : ByteArray} {s : Scan}

theorem checkJsonl_repairs (hfile : d.files store.artifact.fileName = some content)
    (hscan : scanFile lib store.artifact content = .ok s) (hinvalid : 0 < s.invalidCount)
    (hrows : Writable s.rows) :
    (checkJsonl lib (repairing call) store.artifact d).2.files store.artifact.fileName =
      some (repairedContent s) := by
  have hreport : jsonlReport lib store.artifact (d.files store.artifact.fileName) =
      .ok (s.report store.artifact content.size, s.rows) := by
    rw [hfile, jsonlReport, hscan]
    rfl
  have hrepair : Repairs (repairing call) s := ⟨rfl, hinvalid⟩
  have hrepaired := repairFile_apply content.size hfile hrepair
  rw [bind_ok (applyBackupAndReplace_writable _ hfile hrows)] at hrepaired
  rw [checkJsonl_disk hreport, bind_ok hrepaired, compactFile_idle repairing_compacts]
  exact BackedRewrites.rewrite_file

theorem checkJsonl_keeps (h : ∀ content s, d.files store.artifact.fileName = some content →
      scanFile lib store.artifact content = .ok s → s.invalidCount = 0 ∨ ¬ Writable s.rows) :
    (checkJsonl lib (repairing call) store.artifact d).2.files store.artifact.fileName =
      d.files store.artifact.fileName := by
  cases hfile : d.files store.artifact.fileName with
  | none => rw [checkJsonl_missing hfile, hfile]
  | some content =>
    cases hscan : scanFile lib store.artifact content with
    | error e => rw [checkJsonl_unread hfile hscan, hfile]
    | ok s =>
      have hreport : jsonlReport lib store.artifact (d.files store.artifact.fileName) =
          .ok (s.report store.artifact content.size, s.rows) := by
        rw [hfile, jsonlReport, hscan]
        rfl
      rw [checkJsonl_disk hreport]
      by_cases hrepair : Repairs (repairing call) s
      · have hrows : ¬ Writable s.rows := (h content s hfile hscan).resolve_left hrepair.2.ne'
        obtain ⟨e, hwrite⟩ := applyBackupAndReplace_unwritable
          ((repairing call).repairTime store.artifact.name) hfile hrows
        have hrepaired := repairFile_apply content.size hfile hrepair
        rw [bind_error hwrite] at hrepaired
        rw [bind_error hrepaired]
        exact (Function.update_of_ne (backupPath_ne _ _).symm _ _).trans hfile
      · rw [bind_ok (repairFile_idle _ hrepair), compactFile_idle repairing_compacts]
        exact hfile

theorem checkJsonl_idle (h : ∀ content s, d.files store.artifact.fileName = some content →
      scanFile lib store.artifact content = .ok s → s.invalidCount = 0) :
    (checkJsonl lib (repairing call) store.artifact d).2 = d := by
  cases hfile : d.files store.artifact.fileName with
  | none => exact checkJsonl_missing hfile
  | some content =>
    cases hscan : scanFile lib store.artifact content with
    | error e => exact checkJsonl_unread hfile hscan
    | ok s =>
      have hreport : jsonlReport lib store.artifact (d.files store.artifact.fileName) =
          .ok (s.report store.artifact content.size, s.rows) := by
        rw [hfile, jsonlReport, hscan]
        rfl
      have hrepair : ¬ Repairs (repairing call) s := fun hrepair =>
        hrepair.2.ne' (h content s hfile hscan)
      rw [checkJsonl_disk hreport, bind_ok (repairFile_idle _ hrepair),
        compactFile_idle repairing_compacts]

variable {files : String → Option ByteArray} {v : Validation}

theorem store_known (hstore : store ∈ stores v) :
    store.artifact ∈ knownArtifacts ∧ store.artifact.format = .jsonl := by
  have hmem : store.artifact ∈ (stores v).map Store.artifact := List.mem_map_of_mem hstore
  rw [stores_artifacts] at hmem
  simpa using List.mem_filter.mp hmem

theorem checkFile_store (hstore : store ∈ stores v) :
    checkFile lib (repairing call) store.artifact =
      checkJsonl lib (repairing call) store.artifact := by
  rw [checkFile, (store_known hstore).2]

/-- What holds of the file after its check holds of it after the run. -/
theorem filesAfter_cases (hstore : store ∈ stores v) (files : String → Option ByteArray) :
    (Reached lib (repairing call) files store.artifact ∧
        ∃ d, d.files store.artifact.fileName = files store.artifact.fileName ∧
          filesAfter lib call files store.artifact.fileName =
            (checkJsonl lib (repairing call) store.artifact d).2.files store.artifact.fileName) ∨
      (¬ Reached lib (repairing call) files store.artifact ∧
        filesAfter lib call files store.artifact.fileName = files store.artifact.fileName) := by
  have howned := not_not.mpr (owns_file store.artifact)
  rcases run_names lib (repairing call) files (store_known hstore).1 with
    ⟨hreached, d, hbefore, hafter⟩ | ⟨hunreached, hrun⟩
  · refine .inl ⟨hreached, d, hbefore.files _ howned, ?_⟩
    rw [checkFile_store hstore] at hafter
    exact hafter.files _ howned
  · exact .inr ⟨hunreached, hrun.files _ howned⟩

theorem scanned_valid (h : SharesModel lib store)
    (hvalid : AllValid lib.toLibraries store.model (files store.artifact.fileName))
    (hfile : d.files store.artifact.fileName = files store.artifact.fileName)
    (hcontent : d.files store.artifact.fileName = some content)
    (hscan : scanFile lib store.artifact content = .ok s) : s.invalidCount = 0 := by
  rw [(scanFile_records h hscan).2.2, ← hcontent, hfile]
  exact hvalid

theorem valid_spared (hstore : store ∈ stores v) (h : SharesModel lib store) (call : DoctorCall)
    (hvalid : AllValid lib.toLibraries store.model (files store.artifact.fileName)) :
    filesAfter lib call files store.artifact.fileName = files store.artifact.fileName ∧
      store.artifact.fileName ∉ (runDoctor lib (repairing call) ⟨files, []⟩).2.written := by
  have howned := not_not.mpr (owns_file store.artifact)
  rcases run_names lib (repairing call) files (store_known hstore).1 with
    ⟨-, d, hbefore, hafter⟩ | ⟨-, hrun⟩
  · have hfile := hbefore.files _ howned
    rw [checkFile_store hstore, checkJsonl_idle fun content s hcontent hscan =>
      scanned_valid h hvalid hfile hcontent hscan] at hafter
    refine ⟨(hafter.files _ howned).trans hfile, ?_⟩
    rw [hafter.written _ howned, hbefore.written _ howned]
    exact List.not_mem_nil
  · refine ⟨hrun.files _ howned, ?_⟩
    rw [hrun.written _ howned]
    exact List.not_mem_nil

theorem repairable_rewritten (hstore : store ∈ stores v) (h : SharesModel lib store)
    (hinvalid : ¬ AllValid lib.toLibraries store.model (files store.artifact.fileName))
    (hreached : Reached lib (repairing call) files store.artifact)
    (hcontent : files store.artifact.fileName = some content)
    (hscan : scanFile lib store.artifact content = .ok s) (hrows : Writable s.rows) :
    filesAfter lib call files store.artifact.fileName = some (repairedContent s) := by
  rcases filesAfter_cases hstore files with ⟨-, d, hfile, hafter⟩ | ⟨hunreached, -⟩
  · have hsome : 0 < s.invalidCount := by
      rw [hcontent, ← (scanFile_records h hscan).2.2] at hinvalid
      exact Nat.pos_of_ne_zero hinvalid
    rw [hafter]
    exact checkJsonl_repairs (hfile.trans hcontent) hscan hsome hrows
  · exact absurd hreached hunreached

theorem unrepaired_invalid (hstore : store ∈ stores v) (h : SharesModel lib store)
    (hinvalid : ¬ AllValid lib.toLibraries store.model (files store.artifact.fileName))
    (hunrepairable : ¬ Repairable lib store call files) :
    ¬ AllValid lib.toLibraries store.model
      (filesAfter lib call files store.artifact.fileName) := by
  rcases filesAfter_cases hstore files with ⟨hreached, d, hfile, hafter⟩ | ⟨-, hafter⟩
  · by_cases hwritten : ∃ content s, files store.artifact.fileName = some content ∧
        scanFile lib store.artifact content = .ok s ∧ Writable s.rows
    · obtain ⟨content, s, hcontent, hscan, hrows⟩ := hwritten
      rw [repairable_rewritten hstore h hinvalid hreached hcontent hscan hrows]
      exact repaired_invalid fun hagain =>
        hunrepairable ⟨hreached, content, s, hcontent, hscan, hrows, hagain⟩
    · rw [hafter, checkJsonl_keeps, hfile]
      · exact hinvalid
      · intro content s hcontent hscan
        exact .inr fun hrows => hwritten ⟨content, s, hfile.symm.trans hcontent, hscan, hrows⟩
  · rw [hafter]
    exact hinvalid

/-- A repair preserves what the store sees iff the file has no invalid line or the doctor gets
through with it. -/
theorem preserved_iff (hstore : store ∈ stores v) (h : SharesModel lib store)
    (hjson : ReadsRows lib.toLibraries) (call again : DoctorCall)
    (files : String → Option ByteArray) :
    Preserved lib store call again files ↔
      AllValid lib.toLibraries store.model (files store.artifact.fileName) ∨
        Repairable lib store call files := by
  by_cases hvalid : AllValid lib.toLibraries store.model (files store.artifact.fileName)
  · refine iff_of_true ?_ (.inl hvalid)
    have hsame := (valid_spared hstore h call hvalid).1
    have hvalid' : AllValid lib.toLibraries store.model
        (filesAfter lib call files store.artifact.fileName) := by
      rw [hsame]
      exact hvalid
    exact ⟨by rw [hsame], hvalid', (valid_spared hstore h again hvalid').2⟩
  · rw [or_iff_right hvalid]
    constructor
    · intro hpreserved
      by_contra hunrepairable
      exact unrepaired_invalid hstore h hvalid hunrepairable hpreserved.valid
    · rintro ⟨hreached, content, s, hcontent, hscan, hrows, hagain⟩
      have hafter := repairable_rewritten hstore h hvalid hreached hcontent hscan hrows
      obtain ⟨hload, hvalid'⟩ := repaired_preserves h hjson hscan hagain
      rw [← hafter] at hvalid' hload
      exact ⟨by rw [hload, hcontent], hvalid', (valid_spared hstore h again hvalid').2⟩

end Running

theorem repair_preserves_iff {lib : DoctorLibraries} {v : Validation}
    (hmodels : ∀ store ∈ stores v, SharesModel lib store) (hjson : ReadsRows lib.toLibraries)
    (call again : DoctorCall) (files : String → Option ByteArray) :
    (∀ store ∈ stores v, Preserved lib store call again files) ↔
      ∀ store ∈ stores v, AllValid lib.toLibraries store.model (files store.artifact.fileName) ∨
        Repairable lib store call files :=
  forall₂_congr fun store hstore =>
    preserved_iff hstore (hmodels store hstore) hjson call again files

def strictValidation : Validation where
  asInt | .int n => some n | _ => none
  asBool | .bool b => some b | _ => none
  newId _ := "a"
  nowIso _ := "1970-01-01T00:00:00+00:00"
  asInt_int _ := rfl
  asBool_bool _ := rfl

open Classical in
noncomputable def image {ρ : Type} (model : RecordModel ρ) (record : ρ) : Validated where
  dumped :=
    if h : PlainFloats (.obj (model.dump record)) then .ok ⟨model.dump record, h, none⟩
    else .error (.valueError "Out of range float values are not JSON compliant")
  timestamp := model.timestamp record

noncomputable def validateAs (name : String) (payload : Json) : Except String Validated :=
  match (stores strictValidation).find? fun store => store.artifact.name = name with
  | none => .error "()"
  | some store =>
    match store.model.validate payload with
    | none => .error "()"
    | some record => .ok (image store.model record)

theorem found_store {store : Store} (hstore : store ∈ stores strictValidation) :
    (stores strictValidation).find? (fun other => other.artifact.name = store.artifact.name) =
      some store := by
  simp only [stores, List.mem_cons, List.not_mem_nil, or_false] at hstore
  rcases hstore with rfl | rfl | rfl | rfl | rfl | rfl <;> rfl

theorem validateAs_store {store : Store} (hstore : store ∈ stores strictValidation)
    (payload : Json) : validateAs store.artifact.name payload =
      match store.model.validate payload with
      | none => .error "()"
      | some record => .ok (image store.model record) := by
  rw [validateAs, found_store hstore]

theorem sharesModel_validateAs {lib : DoctorLibraries} (hlib : lib.validate = validateAs)
    {store : Store} (hstore : store ∈ stores strictValidation) : SharesModel lib store := by
  refine ⟨fun payload hnone => ⟨"()", ?_⟩, image store.model, fun payload record hsome => ?_, ?_⟩
  · rw [hlib, validateAs_store hstore, hnone]
  · rw [hlib, validateAs_store hstore, hsome]
  · intro record row hdumped
    rw [image] at hdumped
    dsimp only at hdumped
    split at hdumped
    · cases hdumped
      rfl
    · cases hdumped

noncomputable def noteModels : DoctorLibraries := { noteLibraries with validate := validateAs }

def mixedAndStray : ByteArray :=
  encode (rowsText [noteFields naiveDate, noteFields awareDate, strayFields])

def episodicStore : Store := ⟨episodicArtifact, _, episode, catchesValueErrors, id⟩

theorem episodicStore_mem : episodicStore ∈ stores strictValidation := by
  simp [stores, episodicStore, episodicArtifact, jsonlArtifact]

theorem note_dated {date : String} (h : noteFields date ∈ knownRows) :
    ∃ validated, validRecord noteModels episodicArtifact (compactJson (noteFields date)) =
      some validated ∧ validated.timestamp = date := by
  have hloads : noteModels.loads (compactJson (noteFields date)) = some (.obj (noteFields date)) :=
    loads_known h
  have hrecord : episodicStore.model.validate (.obj (noteFields date)) =
      some ⟨⟨"note", "s", []⟩, "a", date⟩ := rfl
  have hvalidate := validateAs_store episodicStore_mem (.obj (noteFields date))
  rw [hrecord] at hvalidate
  have hname : noteModels.validate episodicArtifact.name (.obj (noteFields date)) =
      .ok (image episode ⟨⟨"note", "s", []⟩, "a", date⟩) := hvalidate
  refine ⟨image episode ⟨⟨"note", "s", []⟩, "a", date⟩, ?_, rfl⟩
  rw [validRecord, hloads]
  dsimp only
  rw [hname]

theorem mixedAndStray_lines : rawLines (some mixedAndStray) =
    [noteFields naiveDate, noteFields awareDate, strayFields].map compactJson := by
  have hplain : ∀ row ∈ [noteFields naiveDate, noteFields awareDate, strayFields],
      PlainFloats (.obj row) :=
    List.forall_mem_cons.mpr ⟨noteFields_plain _, List.forall_mem_cons.mpr ⟨noteFields_plain _,
      List.forall_mem_singleton.mpr ⟨trivial, trivial⟩⟩⟩
  rw [rawLines, mixedAndStray, Option.bind_some, decode_encode, Option.map_some, Option.getD_some,
    filled_rowsText hplain]

theorem mixedAndStray_unread (s : Scan) :
    scanFile noteModels episodicArtifact mixedAndStray ≠ .ok s := by
  intro hscan
  obtain ⟨text, hdecode, -, halike⟩ :=
    (scanFile_ok_iff noteModels episodicArtifact mixedAndStray).mp ⟨s, hscan⟩
  have hlines : filled (lines text) =
      [noteFields naiveDate, noteFields awareDate, strayFields].map compactJson := by
    rw [← mixedAndStray_lines, rawLines, Option.bind_some, hdecode]
    rfl
  have hdate : ∀ date, noteFields date ∈ knownRows →
      compactJson (noteFields date) ∈ filled (lines text) → ∀ time,
        timestampOrNone noteModels.toRuntime (some date) = some time →
          time ∈ dates noteModels episodicArtifact (filled (lines text)) := by
    intro date hknown hmem time htime
    obtain ⟨validated, hvalidated, htimestamp⟩ := note_dated hknown
    refine List.mem_filterMap.mpr ⟨validated, List.mem_filterMap.mpr ⟨_, hmem, hvalidated⟩, ?_⟩
    rw [dateOf, htimestamp]
    exact htime
  rw [hlines] at hdate halike
  have hnaive := hdate naiveDate (by simp [knownRows]) (List.mem_map_of_mem List.mem_cons_self)
    (.naive 1767225600000000) rfl
  have haware := hdate awareDate (by simp [knownRows])
    (List.mem_map_of_mem (List.mem_cons_of_mem _ List.mem_cons_self)) (.aware 1767225600000000) rfl
  exact halike _ hnaive _ haware

/-- Two episodes with dates that cannot be compared keep the file from being repaired. -/
theorem mixed_dates_unrepaired :
    ¬ Preserved noteModels episodicStore plainCall plainCall
      (episodicOnly mixedAndStray).files := by
  have hfile : (episodicOnly mixedAndStray).files episodicStore.artifact.fileName =
      some mixedAndStray := rfl
  intro hpreserved
  have hvalid := hpreserved.valid
  have hsame : filesAfter noteModels plainCall (episodicOnly mixedAndStray).files
      episodicStore.artifact.fileName = some mixedAndStray := by
    rcases @filesAfter_cases noteModels episodicStore plainCall strictValidation episodicStore_mem
        (episodicOnly mixedAndStray).files with
      ⟨-, d, hbefore, hafter⟩ | ⟨-, hafter⟩
    · rw [hafter, checkJsonl_keeps, hbefore, hfile]
      intro content s hcontent hscan
      have hmixed : content = mixedAndStray :=
        Option.some.inj (hcontent.symm.trans (hbefore.trans hfile))
      rw [hmixed] at hscan
      exact absurd hscan (mixedAndStray_unread s)
    · rw [hafter, hfile]
  rw [hsame] at hvalid
  have hstray := hvalid (compactJson strayFields) (by rw [mixedAndStray_lines]; simp)
  have hraises : noteModels.loadsRaises (compactJson strayFields) = none := rfl
  have hloads : noteModels.loads (compactJson strayFields) = some (.obj strayFields) :=
    loads_known (by simp [knownRows])
  rw [recordOn, if_pos hraises, hloads] at hstray
  cases hstray

end RepairedFiles
