import Benjamin.Effect
import Benjamin.JsonLines
import Benjamin.PlanSchemas
import Benjamin.PyJson

/-!
# The doctor

`run_doctor`: a report for each known file of the state directory, and with its flags a
repair or a compaction of the JSONL files, each rewrite after a backup. A file is
decoded as a whole before its lines are looked at; temporary files are left out.
-/
namespace Doctor

open PyBase PlanSchemas JsonLines Effect

inductive Format where
  | json | jsonl
  deriving DecidableEq, Repr

/-- `retention` is the variable with the bound of a compaction and its default. -/
structure KnownArtifact where
  name : String
  format : Format
  retention : Option (String × Int)
  critical : Bool
  deriving DecidableEq, Repr

def knownArtifacts : List KnownArtifact :=
  [⟨"semantic", .jsonl, none, true⟩,
    ⟨"episodic", .jsonl, some ("BENJAMIN_EPISODES_MAX", 5000), true⟩,
    ⟨"approvals", .jsonl, none, true⟩,
    ⟨"rules", .jsonl, none, true⟩,
    ⟨"tasks", .jsonl, some ("BENJAMIN_TASKS_MAX", 500), true⟩,
    ⟨"executions", .jsonl, some ("BENJAMIN_LEDGER_MAX", 5000), true⟩,
    ⟨"breakers", .json, none, false⟩,
    ⟨"policy_overrides", .json, none, false⟩]

/-- `_artifact_path`, within the state directory. -/
def KnownArtifact.fileName (a : KnownArtifact) : String :=
  match a.format with
  | .json => a.name ++ ".json"
  | .jsonl => a.name ++ ".jsonl"

/-- The dict of a record. A string that UTF-8 cannot encode, which is no Lean string, is
kept as what writing the row raises. -/
structure Row where
  fields : Dict
  plain : PlainFloats (.obj fields)
  encodeError : Option PyError

/-- A validated record: what `model_dump` makes of it (it raises on a value nested too
deep), and the date that the timestamp getter reads. -/
structure Validated where
  dumped : Except PyError Row
  timestamp : String

/-- `jsonError` is the message of a `JSONDecodeError`. `validate` is the model of an
artifact; a `ValidationError` is the location of its first error. -/
structure DoctorLibraries extends Libraries where
  jsonError : String → String
  validate : String → Json → Except String Validated

/-- `isPresent` is the field `exists`; `path` is relative to the state directory. -/
structure DoctorFileReport where
  name : String
  path : String
  isPresent : Bool
  sizeBytes : Nat
  format : Format
  recordCount : Option Nat
  validCount : Option Nat
  invalidCount : Option Nat
  lastTsIso : Option String
  notes : List String

structure DoctorSummary where
  totalFiles : Nat
  missing : Nat
  invalidLines : Nat
  totalBytes : Nat

structure DoctorReport where
  ok : Bool
  stateDir : String
  tsIso : String
  files : List DoctorFileReport
  summary : DoctorSummary

/-- `candidate[:-1] + "+00:00"` of a candidate that ends in `Z`. -/
def withoutZulu (candidate : String) : String :=
  match candidate.toList.getLast? with
  | some 'Z' => String.ofList candidate.toList.dropLast ++ "+00:00"
  | _ => candidate

def timestampOrNone (rt : Runtime) (value : Option String) : Option Datetime :=
  match truthy value with
  | none => none
  | some value =>
    let candidate := strip value
    if candidate = "" then none else rt.fromisoformat (withoutZulu candidate)

def maxTs (rt : Runtime) (current candidate : Option String) : Except PyError (Option String) :=
  match timestampOrNone rt current, timestampOrNone rt candidate with
  | _, none => .ok current
  | none, some _ => .ok candidate
  | some c1, some c2 => (c2.gt c1).map fun later => if later then candidate else current

/-- What the loop over the lines of a JSONL file has gathered. -/
structure Scan where
  recordCount : Nat
  validCount : Nat
  invalidCount : Nat
  lastTsIso : Option String
  notes : List String
  rows : List Row

def Scan.empty : Scan := ⟨0, 0, 0, none, [], []⟩

def Scan.invalid (s : Scan) (note : String) : Scan :=
  { s with
    invalidCount := s.invalidCount + 1
    notes := if s.notes.length < 3 then s.notes ++ [note] else s.notes }

section Reading

variable (lib : DoctorLibraries) (artifact : KnownArtifact)

def countValid (s : Scan) (validated : Validated) : Except PyError Scan :=
  match maxTs lib.toRuntime s.lastTsIso (some validated.timestamp) with
  | .error e => .error e
  | .ok lastTsIso =>
    match validated.dumped with
    | .error e => .error e
    | .ok row =>
      .ok { s with validCount := s.validCount + 1, lastTsIso, rows := s.rows ++ [row] }

def countRecord (s : Scan) (lineNo : Nat) (raw : String) : Except PyError Scan :=
  match jsonLoads lib.toLibraries raw with
  | .error e => .error e
  | .ok none =>
    .ok (s.invalid ("line " ++ toString lineNo ++ ": JSONDecodeError " ++ lib.jsonError raw))
  | .ok (some payload) =>
    match lib.validate artifact.name payload with
    | .error loc => .ok (s.invalid ("line " ++ toString lineNo ++ ": ValidationError " ++ loc))
    | .ok validated => countValid lib s validated

def scanLine (s : Scan) (lineNo : Nat) (line : String) : Except PyError Scan :=
  let raw := strip line
  if raw = "" then .ok s
  else countRecord lib artifact { s with recordCount := s.recordCount + 1 } lineNo raw

def scanLines (s : Scan) (lineNo : Nat) : List String → Except PyError Scan
  | [] => .ok s
  | line :: rest =>
    match scanLine lib artifact s lineNo line with
    | .error e => .error e
    | .ok s' => scanLines s' (lineNo + 1) rest

def decodeError : PyError := .valueError "'utf-8' codec can't decode byte"

def scanFile (content : ByteArray) : Except PyError Scan :=
  match decode content with
  | none => .error decodeError
  | some text => scanLines lib artifact .empty 1 (lines text)

def Scan.report (s : Scan) (sizeBytes : Nat) : DoctorFileReport :=
  ⟨artifact.name, artifact.fileName, true, sizeBytes, .jsonl, some s.recordCount, some s.validCount,
    some s.invalidCount, s.lastTsIso, s.notes⟩

def missingReport (count : Option Nat) : DoctorFileReport :=
  ⟨artifact.name, artifact.fileName, false, 0, artifact.format, count, count, count, none,
    ["file missing"]⟩

/-- `_jsonl_report`. -/
def jsonlReport (content : Option ByteArray) : Except PyError (DoctorFileReport × List Row) :=
  match content with
  | none => .ok (missingReport artifact (some 0), [])
  | some content =>
    (scanFile lib artifact content).map fun s => (s.report artifact content.size, s.rows)

def readReport (sizeBytes : Nat) (validCount invalidCount : Option Nat) (notes : List String) :
    DoctorFileReport :=
  ⟨artifact.name, artifact.fileName, true, sizeBytes, .json, none, validCount, invalidCount, none,
    notes⟩

/-- `_json_report` of the text of a file. -/
def readJson (sizeBytes : Nat) (text : String) : Except PyError DoctorFileReport :=
  match jsonLoads lib.toLibraries text with
  | .error e => .error e
  | .ok none =>
    .ok (readReport artifact sizeBytes none (some 1) ["invalid JSON: " ++ lib.jsonError text])
  | .ok (some payload) =>
    match lib.validate artifact.name payload with
    | .error loc => .ok (readReport artifact sizeBytes none (some 1) ["ValidationError: " ++ loc])
    | .ok _ => .ok (readReport artifact sizeBytes (some 1) none [])

def jsonReport (content : Option ByteArray) : Except PyError DoctorFileReport :=
  match content with
  | none => .ok (missingReport artifact none)
  | some content =>
    match decode content with
    | none => .error decodeError
    | some text => readJson lib artifact content.size text

end Reading

/-- The files of the state directory. `written` lists the names that the call has
written; it is not in the source. -/
structure Disk where
  files : String → Option ByteArray
  written : List String

abbrev Doctoring := Prog PyError Disk

def writeFile (name : String) (content : ByteArray) : Doctoring Unit :=
  Prog.update fun d =>
    { files := Function.update d.files name (some content), written := d.written ++ [name] }

/-- `shutil.copy2`. -/
def copyFile (source target : String) : Doctoring Unit := do
  let content ← Prog.ask fun d : Disk => match d.files source with
    | some content => .ok content
    | none => .error (.other ("No such file or directory: '" ++ source ++ "'"))
  writeFile target content

/-- `_write_jsonl_atomic`: the file is replaced after every row has been written. -/
def writeJsonlAtomic (name : String) (rows : List Row) : Doctoring Unit :=
  match rows.findSome? Row.encodeError with
  | some e => Prog.raise e
  | none => writeFile name (encode (rowsText (rows.map Row.fields)))

/-- `strftime("%Y%m%dT%H%M%SZ")`. -/
def stamp (t : Int) : String :=
  let date := civilFromDays (t / microsPerDay)
  let seconds := t % microsPerDay / 1000000
  padded 4 date.1 ++ padded 2 date.2.1 ++ padded 2 date.2.2 ++ "T" ++ padded 2 (seconds / 3600) ++
    padded 2 (seconds / 60 % 60) ++ padded 2 (seconds % 60) ++ "Z"

def backupPath (name : String) (now : Int) : String := name ++ ".bak." ++ stamp now

def applyBackupAndReplace (now : Int) (name : String) (rows : List Row) : Doctoring Unit := do
  copyFile name (backupPath name now)
  writeJsonlAtomic name rows

/-- `limits` is what `int` makes of a variable that is set, its default otherwise; `none`
where it raises. -/
def retentionMax (limits : String → Option Int) (artifact : KnownArtifact) : Option Int :=
  match artifact.retention with
  | none => none
  | some (envName, default) =>
    match limits envName with
    | none => some default
    | some value => if 0 < value then some value else none

/-- `str(row.get("id") or row.get("task_id") or "")`. -/
def rowId (rt : Runtime) (row : Row) : String :=
  let id := Dict.lookup row.fields "id"
  pyStr rt (if id.isTruthy then id else (Dict.lookup row.fields "task_id").orEmpty)

/-- The loop over the reversed rows: the first row with an identifier is kept. -/
def dedupe (rt : Runtime) (seen : List String) : List Row → List Row
  | [] => []
  | row :: rest =>
    if rowId rt row = "" then row :: dedupe rt seen rest
    else if rowId rt row ∈ seen then dedupe rt seen rest
    else row :: dedupe rt (rowId rt row :: seen) rest

def lastRows (bound : Int) (rows : List Row) : List Row :=
  if bound < rows.length then rows.drop (rows.length - bound.toNat) else rows

def compactRows (rt : Runtime) (limits : String → Option Int) (artifact : KnownArtifact)
    (rows : List Row) : List Row :=
  let compacted :=
    if artifact.name ∈ ["episodic", "tasks"] then (dedupe rt [] rows.reverse).reverse else rows
  match retentionMax limits artifact with
  | none => compacted
  | some bound => lastRows bound compacted

/-- `repairTime` and `compactTime` are the readings of the clock for the backup of an
artifact before its repair and before its compaction. -/
structure DoctorCall where
  stateDir : String
  repair : Bool
  compact : Bool
  limits : String → Option Int
  repairTime : String → Int
  compactTime : String → Int
  now : Int

section Running

variable (lib : DoctorLibraries) (call : DoctorCall)

def repairFile (artifact : KnownArtifact) (report : DoctorFileReport) (rows : List Row) :
    Doctoring Bool := do
  let isPresent ← Prog.read fun d : Disk => (d.files artifact.fileName).isSome
  if call.repair ∧ 0 < report.invalidCount.getD 0 ∧ isPresent then do
    applyBackupAndReplace (call.repairTime artifact.name) artifact.fileName rows
    pure true
  else pure false

def compactFile (artifact : KnownArtifact) (rows : List Row) : Doctoring Bool := do
  let isPresent ← Prog.read fun d : Disk => (d.files artifact.fileName).isSome
  let compacted := compactRows lib.toRuntime call.limits artifact rows
  if call.compact ∧ isPresent ∧ compacted.length ≠ rows.length then do
    applyBackupAndReplace (call.compactTime artifact.name) artifact.fileName compacted
    pure true
  else pure false

def checkJsonl (artifact : KnownArtifact) : Doctoring DoctorFileReport := do
  let (report, rows) ← Prog.ask fun d : Disk =>
    jsonlReport lib artifact (d.files artifact.fileName)
  let repaired ← repairFile call artifact report rows
  let compacted ← compactFile lib call artifact rows
  if repaired || compacted then do
    let (again, _) ← Prog.ask fun d : Disk => jsonlReport lib artifact (d.files artifact.fileName)
    pure { again with notes := again.notes ++ ["file rewritten by doctor"] }
  else pure report

def checkFile (artifact : KnownArtifact) : Doctoring DoctorFileReport :=
  match artifact.format with
  | .jsonl => checkJsonl lib call artifact
  | .json => Prog.ask fun d => jsonReport lib artifact (d.files artifact.fileName)

def checkFiles : List KnownArtifact → Doctoring (List DoctorFileReport)
  | [] => pure []
  | artifact :: rest => do
    let report ← checkFile lib call artifact
    let reports ← checkFiles rest
    pure (report :: reports)

def invalidLines (report : DoctorFileReport) : Nat := report.invalidCount.getD 0

def total (count : DoctorFileReport → Nat) (reports : List DoctorFileReport) : Nat :=
  reports.foldl (fun n report => n + count report) 0

def assemble (reports : List DoctorFileReport) : DoctorReport :=
  { ok := ((knownArtifacts.zip reports).filter fun p => p.1.critical).all fun p =>
      decide (invalidLines p.2 = 0)
    stateDir := call.stateDir
    tsIso := isoformat call.now
    files := reports
    summary :=
      { totalFiles := reports.length
        missing := reports.countP fun r => !r.isPresent
        invalidLines := total invalidLines reports
        totalBytes := total DoctorFileReport.sizeBytes reports } }

def runDoctor : Doctoring DoctorReport := do
  let reports ← checkFiles lib call knownArtifacts
  pure (assemble call reports)

end Running

end Doctor
