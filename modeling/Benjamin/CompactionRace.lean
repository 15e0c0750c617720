import Benjamin.AssistantState
import Benjamin.Doctor
import Benjamin.SerialRun

/-!
# Compaction beside other writers

A compaction by the doctor, file by file, while episodes, tasks and ledger records are
appended. Between its reading of a file and its replacement of it others append; they
take their own steps whole. Lines that do not parse are left out: no step reads them.
-/
namespace CompactionRace

open PyBase ExecutionLedger AssistantState Doctor

structure StoredEpisode extends Episode where
  id : String
  tsIso : String

/-- The bounds of the writers and of the doctor, and the row that `model_dump` makes of
a record. -/
structure Setting where
  rt : Runtime
  limits : String → Option Int
  tasksMax : Int
  maxRecords : Int
  episodeRow : StoredEpisode → Row
  taskRow : TaskRecord → Row
  executionRow : LedgerRecord → Row

def episodicArtifact : KnownArtifact :=
  ⟨"episodic", .jsonl, some ("BENJAMIN_EPISODES_MAX", 5000), true⟩

def tasksArtifact : KnownArtifact := ⟨"tasks", .jsonl, some ("BENJAMIN_TASKS_MAX", 500), true⟩

def executionsArtifact : KnownArtifact :=
  ⟨"executions", .jsonl, some ("BENJAMIN_LEDGER_MAX", 5000), true⟩

theorem compactRows_other (rt : Runtime) (limits : String → Option Int) {artifact : KnownArtifact}
    (h : artifact ∈ knownArtifacts)
    (hother : artifact ∉ [episodicArtifact, tasksArtifact, executionsArtifact])
    (rows : List Row) : compactRows rt limits artifact rows = rows := by
  simp only [knownArtifacts, List.mem_cons, List.not_mem_nil, or_false] at h
  rcases h with rfl | rfl | rfl | rfl | rfl | rfl | rfl | rfl
  all_goals first
    | rfl
    | exact absurd (by decide) hother

section Compacting

variable {ρ : Type} (rt : Runtime) (row : ρ → Row)

/-- `dedupe` of the records whose rows these are. -/
def dedupeRecords (seen : List String) : List ρ → List ρ
  | [] => []
  | r :: rest =>
    if rowId rt (row r) = "" then r :: dedupeRecords seen rest
    else if rowId rt (row r) ∈ seen then dedupeRecords seen rest
    else r :: dedupeRecords (rowId rt (row r) :: seen) rest

def lastRecords (bound : Int) (records : List ρ) : List ρ :=
  if bound < records.length then records.drop (records.length - bound.toNat) else records

def compactRecords (limits : String → Option Int) (artifact : KnownArtifact)
    (records : List ρ) : List ρ :=
  let compacted :=
    if artifact.name ∈ ["episodic", "tasks"] then (dedupeRecords rt row [] records.reverse).reverse
    else records
  match retentionMax limits artifact with
  | none => compacted
  | some bound => lastRecords bound compacted

theorem dedupe_map (seen : List String) (records : List ρ) :
    dedupe rt seen (records.map row) = (dedupeRecords rt row seen records).map row := by
  induction records generalizing seen with
  | nil => rfl
  | cons r rest ih =>
    rw [List.map_cons, dedupe, dedupeRecords, ih, ih]
    split
    · rfl
    · split <;> rfl

theorem lastRows_map (bound : Int) (records : List ρ) :
    lastRows bound (records.map row) = (lastRecords bound records).map row := by
  rw [lastRows, lastRecords, List.length_map]
  split
  · rw [List.map_drop]
  · rfl

theorem compactRows_map (limits : String → Option Int) (artifact : KnownArtifact)
    (records : List ρ) :
    compactRows rt limits artifact (records.map row) =
      (compactRecords rt row limits artifact records).map row := by
  have hdeduped : (if artifact.name ∈ ["episodic", "tasks"] then
      (dedupe rt [] (records.map row).reverse).reverse else records.map row) =
      (if artifact.name ∈ ["episodic", "tasks"] then
        (dedupeRecords rt row [] records.reverse).reverse else records).map row := by
    split
    · rw [← List.map_reverse, dedupe_map, List.map_reverse]
    · rfl
  simp only [compactRows, compactRecords, hdeduped]
  cases retentionMax limits artifact with
  | none => rfl
  | some bound => exact lastRows_map row bound _

end Compacting

/-- A file, with the records appended since the doctor read it, in their order. The
latter, `none` before the reading, is not in the source. -/
structure Watched (ρ : Type) where
  records : List ρ
  since : Option (List ρ)

section Watching

variable {ρ : Type}

def Watched.read (f : Watched ρ) : Watched ρ := { f with since := some [] }

def Watched.replaced (f : Watched ρ) (records : List ρ) : Watched ρ := { f with records }

/-- Append a record, then keep the newest `bound` of them, all if it is not positive. -/
def Watched.appended (bound : Int) (r : ρ) (f : Watched ρ) : Watched ρ :=
  ⟨BoundedLog.retain bound (f.records ++ [r]), f.since.map (· ++ [r])⟩

end Watching

/-- Where the doctor stands: which file it reads next, or the records it has read of the
file that it may replace next. -/
inductive DoctorPc where
  | readEpisodes
  | replaceEpisodes (records : List StoredEpisode)
  | readTasks
  | replaceTasks (records : List TaskRecord)
  | readExecutions
  | replaceExecutions (records : List LedgerRecord)
  | done

structure State where
  episodes : Watched StoredEpisode
  tasks : Watched TaskRecord
  executions : Watched LedgerRecord
  doctor : DoctorPc

inductive Op where
  | doctor
  | appendEpisode (episode : StoredEpisode)
  | appendTask (record : TaskRecord)
  | tryStart (nowIso key : String) (kind : LedgerKind) (correlationId : Option String)
      (metadata : Dict)
  | mark (nowIso key : String) (status : LedgerStatus) (metaUpdate : Dict)

section Steps

variable (S : Setting)

def compactEpisodes (records : List StoredEpisode) : List StoredEpisode :=
  compactRecords S.rt S.episodeRow S.limits episodicArtifact records

def compactTasks (records : List TaskRecord) : List TaskRecord :=
  compactRecords S.rt S.taskRow S.limits tasksArtifact records

def compactExecutions (records : List LedgerRecord) : List LedgerRecord :=
  compactRecords S.rt S.executionRow S.limits executionsArtifact records

/-- The file is replaced only when the compaction leaves fewer records than were read. -/
def replaceIfFewer {ρ : Type} (read compacted : List ρ) (f : Watched ρ) : Watched ρ :=
  if compacted.length = read.length then f else f.replaced compacted

def advanceDoctor (s : State) : State :=
  match s.doctor with
  | .readEpisodes =>
    { s with episodes := s.episodes.read, doctor := .replaceEpisodes s.episodes.records }
  | .replaceEpisodes read =>
    { s with
      episodes := replaceIfFewer read (compactEpisodes S read) s.episodes
      doctor := .readTasks }
  | .readTasks => { s with tasks := s.tasks.read, doctor := .replaceTasks s.tasks.records }
  | .replaceTasks read =>
    { s with
      tasks := replaceIfFewer read (compactTasks S read) s.tasks
      doctor := .readExecutions }
  | .readExecutions =>
    { s with
      executions := s.executions.read
      doctor := .replaceExecutions s.executions.records }
  | .replaceExecutions read =>
    { s with
      executions := replaceIfFewer read (compactExecutions S read) s.executions
      doctor := .done }
  | .done => s

def ledgerFile (records : List LedgerRecord) : LedgerFile := records.map .record

def apply (s : State) : Op → State
  | .doctor => advanceDoctor S s
  | .appendEpisode episode => { s with episodes := s.episodes.appended 0 episode }
  | .appendTask record => { s with tasks := s.tasks.appended (max 1 S.tasksMax) record }
  | .tryStart nowIso key kind correlationId metadata =>
    if refused (ledgerFile s.executions.records) key then s
    else
      { s with
        executions := s.executions.appended S.maxRecords
          (startedRecord key kind nowIso correlationId metadata) }
  | .mark nowIso key status metaUpdate =>
    { s with
      executions := s.executions.appended S.maxRecords
        (markedRecord (ledgerFile s.executions.records) nowIso key status metaUpdate) }

end Steps

theorem readAllRecords_ledgerFile (records : List LedgerRecord) :
    readAllRecords (ledgerFile records) = records := readAllRecords_map records

theorem latestRecord_ledgerFile (f : LedgerFile) (key : String) :
    latestRecord (ledgerFile (readAllRecords f)) key = latestRecord f key := by
  rw [latestRecord, readAllRecords_ledgerFile, latestRecord]

theorem tryStart_step (S : Setting) (s : State) {f : LedgerFile}
    (hf : readAllRecords f = s.executions.records) (nowIso key : String) (kind : LedgerKind)
    (correlationId : Option String) (metadata : Dict) :
    readAllRecords (tryStart S.maxRecords nowIso f key kind correlationId metadata).2 =
      (apply S s (.tryStart nowIso key kind correlationId metadata)).executions.records := by
  have hrefused : refused (ledgerFile s.executions.records) key = refused f key := by
    rw [← hf, refused, latestRecord_ledgerFile, refused]
  simp only [apply, hrefused]
  cases h : refused f key with
  | true =>
    rw [tryStart_refused h, if_pos rfl]
    exact hf
  | false =>
    rw [tryStart_admitted h, readAllRecords_trim, readAllRecords_append, hf]
    rfl

theorem mark_step (S : Setting) (s : State) {f : LedgerFile}
    (hf : readAllRecords f = s.executions.records) (nowIso key : String) (status : LedgerStatus)
    (metaUpdate : Dict) :
    readAllRecords (mark S.maxRecords nowIso f key status metaUpdate) =
      (apply S s (.mark nowIso key status metaUpdate)).executions.records := by
  have hmarked : markedRecord (ledgerFile s.executions.records) nowIso key status metaUpdate =
      markedRecord f nowIso key status metaUpdate := by
    rw [← hf, markedRecord, latestRecord_ledgerFile, markedRecord]
  rw [readAllRecords_mark, hf]
  simp only [apply, hmarked]
  rfl

/-- A file that nobody else touches is left with the compaction of its records. -/
theorem compacted_alone {ρ : Type} (rt : Runtime) (row : ρ → Row) (limits : String → Option Int)
    (artifact : KnownArtifact) (f : Watched ρ) :
    ((replaceIfFewer f.records (compactRecords rt row limits artifact f.records) f.read).records.map
        row) = if (compactRows rt limits artifact (f.records.map row)).length =
          (f.records.map row).length then f.records.map row
        else compactRows rt limits artifact (f.records.map row) := by
  rw [compactRows_map, List.length_map, List.length_map, replaceIfFewer]
  split <;> rfl

/-- Every record appended since the reading is in the file, unless `bound` newer ones
have been appended. -/
def Kept {ρ : Type} (bound : Int) (f : Watched ρ) : Prop :=
  ∀ appended earlier r later, f.since = some appended → appended = earlier ++ r :: later →
    (bound ≤ 0 ∨ (later.length : Int) < bound) → r ∈ f.records

/-- What the bound retains of the records appended since the reading ends the file. -/
def EndsFile {ρ : Type} (bound : Int) (f : Watched ρ) : Prop :=
  ∀ appended, f.since = some appended → BoundedLog.retain bound appended <:+ f.records

section Keeping

variable {ρ : Type} {bound : Int} {f : Watched ρ}

theorem EndsFile.kept (h : EndsFile bound f) : Kept bound f := by
  intro appended earlier r later hsince hsplit hrecent
  subst hsplit
  exact (h _ hsince).subset (BoundedLog.mem_retain hrecent)

theorem EndsFile.appended (h : EndsFile bound f) (r : ρ) : EndsFile bound (f.appended bound r) := by
  intro appended hsince
  cases hbefore : f.since with
  | none => simp [Watched.appended, hbefore] at hsince
  | some before =>
    have happended : before ++ [r] = appended := by
      simpa [Watched.appended, hbefore] using hsince
    subst happended
    exact BoundedLog.retain_suffix_append (h before hbefore) r

theorem endsFile_of_unwatched (h : ∀ appended, f.since = some appended → appended = []) :
    EndsFile bound f := by
  intro appended hsince
  rw [h appended hsince, show BoundedLog.retain bound ([] : List ρ) = [] by
    simp [BoundedLog.retain]]
  exact List.nil_suffix

/-- The newest record appended between the reading and the replacement is lost, unless
the compaction has the same record. -/
theorem replaced_loses {earlier compacted : List ρ} {r : ρ}
    (hsince : f.since = some (earlier ++ [r])) (hnew : r ∉ compacted) :
    ¬ Kept bound (f.replaced compacted) := by
  intro h
  refine hnew (h _ earlier r [] hsince rfl ?_)
  rw [List.length_nil]
  omega

end Keeping

def Undisturbed (S : Setting) (s : State) : Prop :=
  match s.doctor with
  | .replaceEpisodes read =>
    (compactEpisodes S read).length ≠ read.length → s.episodes.since = some []
  | .replaceTasks read => (compactTasks S read).length ≠ read.length → s.tasks.since = some []
  | .replaceExecutions read =>
    (compactExecutions S read).length ≠ read.length → s.executions.since = some []
  | _ => True

/-- The three files keep what was appended to them since the doctor read them. -/
structure AllKept (S : Setting) (s : State) : Prop where
  episodes : Kept 0 s.episodes
  tasks : Kept (max 1 S.tasksMax) s.tasks
  executions : Kept S.maxRecords s.executions

structure AllEnd (S : Setting) (s : State) : Prop where
  episodes : EndsFile 0 s.episodes
  tasks : EndsFile (max 1 S.tasksMax) s.tasks
  executions : EndsFile S.maxRecords s.executions

theorem AllEnd.allKept {S : Setting} {s : State} (h : AllEnd S s) : AllKept S s :=
  ⟨h.episodes.kept, h.tasks.kept, h.executions.kept⟩

section Runs

variable {S : Setting} {s : State}

theorem replaceIfFewer_endsFile {ρ : Type} {bound : Int} {f : Watched ρ} {read compacted : List ρ}
    (hquiet : compacted.length ≠ read.length → f.since = some []) (h : EndsFile bound f) :
    EndsFile bound (replaceIfFewer read compacted f) := by
  rw [replaceIfFewer]
  by_cases hsame : compacted.length = read.length
  · rw [if_pos hsame]
    exact h
  · rw [if_neg hsame]
    refine endsFile_of_unwatched ?_
    intro appended hsince
    have hnone : f.since = some appended := hsince
    rw [hquiet hsame] at hnone
    exact (Option.some.inj hnone).symm

theorem read_endsFile {ρ : Type} {bound : Int} (f : Watched ρ) : EndsFile bound f.read := by
  refine endsFile_of_unwatched ?_
  intro appended hsince
  exact (Option.some.inj hsince).symm

theorem advanceDoctor_keeps (hquiet : Undisturbed S s) (h : AllEnd S s) :
    AllEnd S (advanceDoctor S s) := by
  have ⟨hepisodes, htasks, hexecutions⟩ := h
  cases hdoctor : s.doctor with
  | readEpisodes =>
    simp only [advanceDoctor, hdoctor]
    exact ⟨read_endsFile s.episodes, htasks, hexecutions⟩
  | readTasks =>
    simp only [advanceDoctor, hdoctor]
    exact ⟨hepisodes, read_endsFile s.tasks, hexecutions⟩
  | readExecutions =>
    simp only [advanceDoctor, hdoctor]
    exact ⟨hepisodes, htasks, read_endsFile s.executions⟩
  | replaceEpisodes read =>
    simp only [Undisturbed, hdoctor] at hquiet
    simp only [advanceDoctor, hdoctor]
    exact ⟨replaceIfFewer_endsFile hquiet hepisodes, htasks, hexecutions⟩
  | replaceTasks read =>
    simp only [Undisturbed, hdoctor] at hquiet
    simp only [advanceDoctor, hdoctor]
    exact ⟨hepisodes, replaceIfFewer_endsFile hquiet htasks, hexecutions⟩
  | replaceExecutions read =>
    simp only [Undisturbed, hdoctor] at hquiet
    simp only [advanceDoctor, hdoctor]
    exact ⟨hepisodes, htasks, replaceIfFewer_endsFile hquiet hexecutions⟩
  | done =>
    simp only [advanceDoctor, hdoctor]
    exact h

theorem apply_keeps (op : Op) (hquiet : op = .doctor → Undisturbed S s) (h : AllEnd S s) :
    AllEnd S (apply S s op) := by
  have ⟨hepisodes, htasks, hexecutions⟩ := h
  cases op with
  | doctor => exact advanceDoctor_keeps (hquiet rfl) h
  | appendEpisode episode => exact ⟨hepisodes.appended episode, htasks, hexecutions⟩
  | appendTask record => exact ⟨hepisodes, htasks.appended record, hexecutions⟩
  | mark nowIso key status metaUpdate => exact ⟨hepisodes, htasks, hexecutions.appended _⟩
  | tryStart nowIso key kind correlationId metadata =>
    simp only [apply]
    split
    · exact h
    · exact ⟨hepisodes, htasks, hexecutions.appended _⟩

structure Starting (s : State) : Prop where
  doctor : s.doctor = .readEpisodes
  episodes : s.episodes.since = none
  tasks : s.tasks.since = none
  executions : s.executions.since = none

theorem Starting.allEnd (h : Starting s) : AllEnd S s := by
  refine ⟨?_, ?_, ?_⟩
  · refine endsFile_of_unwatched fun appended hsince => ?_
    cases h.episodes.symm.trans hsince
  · refine endsFile_of_unwatched fun appended hsince => ?_
    cases h.tasks.symm.trans hsince
  · refine endsFile_of_unwatched fun appended hsince => ?_
    cases h.executions.symm.trans hsince

end Runs

/-- While nothing is appended between the doctor's reading of a file and its replacement
of it, the files keep what is appended to them. -/
theorem compaction_keeps_appended (S : Setting) {s : State} (hs : Starting s) {ops : List Op}
    (hquiet : ∀ t ∈ SerialRun.transitions (apply S) s ops, t.op = .doctor →
      Undisturbed S t.before) :
    (∀ t ∈ SerialRun.transitions (apply S) s ops, AllKept S t.after) ∧
      AllKept S (SerialRun.final (apply S) s ops) := by
  have ⟨hall, hfinal⟩ := SerialRun.invariant_along (I := AllEnd S)
    (C := fun t : SerialRun.Transition State Op => t.op = .doctor → Undisturbed S t.before)
    (fun _ op hstep hbefore => apply_keeps op hstep hbefore) hquiet hs.allEnd
  exact ⟨fun t ht => (hall t ht).2.allKept, hfinal.allKept⟩

def succeededKey (key : String) : LedgerRecord := ⟨key, .jobRun, .succeeded, "", none, []⟩

def oneRecord : Setting where
  rt := exampleRuntime (fun _ => .returned "") fun _ => none
  limits _ := some 1
  tasksMax := 500
  maxRecords := 5000
  episodeRow episode := ⟨[("id", .str episode.id)], ⟨trivial, trivial⟩, none⟩
  taskRow _ := ⟨[], trivial, none⟩
  executionRow _ := ⟨[], trivial, none⟩

def twoSucceeded : State where
  episodes := ⟨[], none⟩
  tasks := ⟨[], none⟩
  executions := ⟨[succeededKey "a", succeededKey "b"], none⟩
  doctor := .readEpisodes

theorem twoSucceeded_starting : Starting twoSucceeded := ⟨rfl, rfl, rfl, rfl⟩

def startC : Op := .tryStart "" "c" .jobRun none []

/-- A key started after the replacement is kept. -/
theorem later_start_kept : AllKept oneRecord (SerialRun.final (apply oneRecord) twoSucceeded
    [.doctor, .doctor, .doctor, .doctor, .doctor, .doctor, startC]) := by
  refine (compaction_keeps_appended oneRecord twoSucceeded_starting ?_).2
  intro t ht hdoctor
  simp only [SerialRun.transitions, List.mem_cons, List.not_mem_nil, or_false] at ht
  rcases ht with rfl | rfl | rfl | rfl | rfl | rfl | rfl
  · trivial
  · exact fun _ => rfl
  · trivial
  · exact fun _ => rfl
  · trivial
  · exact fun _ => rfl
  · cases hdoctor

/-- A key started between the reading and the replacement is lost, and may start again. -/
theorem start_lost :
    let final := SerialRun.final (apply oneRecord) twoSucceeded
      [.doctor, .doctor, .doctor, .doctor, .doctor, startC, .doctor]
    Starting twoSucceeded ∧ final.doctor = .done ∧ ¬ AllKept oneRecord final ∧
      refused (ledgerFile final.executions.records) "c" = false := by
  intro final
  have hrecords : final.executions.records = [succeededKey "b"] := rfl
  have hsince : final.executions.since = some ([] ++ [startedRecord "c" .jobRun "" none []]) := rfl
  refine ⟨twoSucceeded_starting, rfl, ?_, ?_⟩
  · intro h
    have hmem := h.executions _ [] _ [] hsince rfl (Or.inr (by decide))
    rw [hrecords, List.mem_singleton] at hmem
    exact absurd (congrArg LedgerRecord.key hmem) (by decide)
  · rw [hrecords]
    decide

end CompactionRace
