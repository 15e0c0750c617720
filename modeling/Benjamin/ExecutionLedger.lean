import Benjamin.BoundedLog
import Benjamin.PyBase

/-!
# The execution ledger

`executions.jsonl` as a list of newline-terminated lines, each a valid record or
text that `json.loads` or the record model rejects. The lock around `tryStart` and
`mark` is left to the interleaving model; here both are atomic.
-/
namespace ExecutionLedger

open PyBase

inductive LedgerKind where
  | approvalExec | jobRun | ruleAction
  deriving DecidableEq, Repr

inductive LedgerStatus where
  | started | succeeded | skipped | failed
  deriving DecidableEq, Repr

/-- The field `metadata` is the source's `meta`. -/
structure LedgerRecord where
  key : String
  kind : LedgerKind
  status : LedgerStatus
  tsIso : String
  correlationId : Option String
  metadata : Dict

/-- A malformed line is text that the reader skips; a file whose bytes are no text is left out. -/
inductive Line where
  | record (r : LedgerRecord)
  | malformed (text : String)

def Line.record? : Line → Option LedgerRecord
  | .record r => some r
  | .malformed _ => none

abbrev LedgerFile := List Line

/-- `_read_all_records`: malformed lines are skipped. -/
def readAllRecords (f : LedgerFile) : List LedgerRecord := f.filterMap Line.record?

/-- `_latest_record_by_key().get(key)`. -/
def latestRecord (f : LedgerFile) (key : String) : Option LedgerRecord :=
  BoundedLog.latest LedgerRecord.key (readAllRecords f) key

def hasSucceeded (f : LedgerFile) (key : String) : Bool :=
  match latestRecord f key with
  | some latest => decide (latest.status = .succeeded)
  | none => false

/-- `_append`. -/
def appendRecord (f : LedgerFile) (r : LedgerRecord) : LedgerFile := f ++ [.record r]

/-- A file that is not too long is left as it is, malformed lines included. -/
def trim (maxRecords : Int) (f : LedgerFile) : LedgerFile :=
  if maxRecords ≤ 0 then f
  else
    let records := readAllRecords f
    if (records.length : Int) ≤ maxRecords then f
    else (records.drop (records.length - maxRecords.toNat)).map .record

/-- The admission test of `try_start`. -/
def refused (f : LedgerFile) (key : String) : Bool :=
  match latestRecord f key with
  | some latest => decide (latest.status = .succeeded ∨ latest.status = .started)
  | none => false

def startedRecord (key : String) (kind : LedgerKind) (nowIso : String)
    (correlationId : Option String) (metadata : Dict) : LedgerRecord :=
  ⟨key, kind, .started, nowIso, correlationId, metadata⟩

def tryStart (maxRecords : Int) (nowIso : String) (f : LedgerFile) (key : String)
    (kind : LedgerKind) (correlationId : Option String) (metadata : Dict) : Bool × LedgerFile :=
  if refused f key then (false, f)
  else (true, trim maxRecords
    (appendRecord f (startedRecord key kind nowIso correlationId metadata)))

/-- The record `mark` appends: what it knows of the key comes from the latest record. -/
def markedRecord (f : LedgerFile) (nowIso key : String) (status : LedgerStatus)
    (metaUpdate : Dict) : LedgerRecord :=
  match latestRecord f key with
  | some latest =>
    ⟨key, latest.kind, status, nowIso, latest.correlationId, Dict.update latest.metadata metaUpdate⟩
  | none => ⟨key, .jobRun, status, nowIso, none, Dict.update [] metaUpdate⟩

def mark (maxRecords : Int) (nowIso : String) (f : LedgerFile) (key : String)
    (status : LedgerStatus) (metaUpdate : Dict) : LedgerFile :=
  trim maxRecords (appendRecord f (markedRecord f nowIso key status metaUpdate))

@[simp] theorem readAllRecords_append (f : LedgerFile) (r : LedgerRecord) :
    readAllRecords (appendRecord f r) = readAllRecords f ++ [r] := by
  simp [readAllRecords, appendRecord, Line.record?]

theorem readAllRecords_map (rs : List LedgerRecord) :
    readAllRecords (rs.map .record) = rs := by
  simp [readAllRecords, List.filterMap_map, Function.comp_def, Line.record?]

@[simp] theorem readAllRecords_trim (maxRecords : Int) (f : LedgerFile) :
    readAllRecords (trim maxRecords f) = BoundedLog.retain maxRecords (readAllRecords f) := by
  rw [trim, BoundedLog.retain]
  split
  · rfl
  · dsimp only
    split
    · have hzero : (readAllRecords f).length - maxRecords.toNat = 0 := by omega
      rw [hzero, List.drop_zero]
    · exact readAllRecords_map _

@[simp] theorem markedRecord_key (f : LedgerFile) (nowIso key : String) (status : LedgerStatus)
    (metaUpdate : Dict) : (markedRecord f nowIso key status metaUpdate).key = key := by
  unfold markedRecord; split <;> rfl

@[simp] theorem markedRecord_status (f : LedgerFile) (nowIso key : String)
    (status : LedgerStatus) (metaUpdate : Dict) :
    (markedRecord f nowIso key status metaUpdate).status = status := by
  unfold markedRecord; split <;> rfl

theorem readAllRecords_mark (maxRecords : Int) (nowIso : String) (f : LedgerFile) (key : String)
    (status : LedgerStatus) (metaUpdate : Dict) :
    readAllRecords (mark maxRecords nowIso f key status metaUpdate) =
      BoundedLog.retain maxRecords
        (readAllRecords f ++ [markedRecord f nowIso key status metaUpdate]) := by
  simp [mark]

theorem latest_retain_self (maxRecords : Int) (records : List LedgerRecord) (r : LedgerRecord) :
    BoundedLog.latest LedgerRecord.key (BoundedLog.retain maxRecords (records ++ [r])) r.key =
      some r := by
  rw [BoundedLog.retain]
  split
  · simp
  · rw [List.drop_append_of_le_length (by simp; omega)]
    simp

theorem latestRecord_mark_self (maxRecords : Int) (nowIso : String) (f : LedgerFile)
    (key : String) (status : LedgerStatus) (metaUpdate : Dict) :
    latestRecord (mark maxRecords nowIso f key status metaUpdate) key =
      some (markedRecord f nowIso key status metaUpdate) := by
  have := latest_retain_self maxRecords (readAllRecords f)
    (markedRecord f nowIso key status metaUpdate)
  rw [markedRecord_key] at this
  rw [latestRecord, readAllRecords_mark, this]

theorem mem_trim {maxRecords : Int} {f : LedgerFile} {r : LedgerRecord}
    (h : r ∈ readAllRecords (trim maxRecords f)) : r ∈ readAllRecords f := by
  rw [readAllRecords_trim] at h
  exact (BoundedLog.retain_suffix maxRecords _).subset h

theorem mem_mark {maxRecords : Int} {nowIso : String} {f : LedgerFile} {key : String}
    {status : LedgerStatus} {metaUpdate : Dict} {r : LedgerRecord}
    (h : r ∈ readAllRecords (mark maxRecords nowIso f key status metaUpdate)) :
    r ∈ readAllRecords f ∨ r = markedRecord f nowIso key status metaUpdate := by
  have := mem_trim h
  simpa using this

theorem mem_tryStart {maxRecords : Int} {nowIso : String} {f : LedgerFile} {key : String}
    {kind : LedgerKind} {correlationId : Option String} {metadata : Dict} {r : LedgerRecord}
    (h : r ∈ readAllRecords (tryStart maxRecords nowIso f key kind correlationId metadata).2) :
    r ∈ readAllRecords f ∨ r = startedRecord key kind nowIso correlationId metadata := by
  rw [tryStart] at h
  split at h
  · exact Or.inl h
  · have := mem_trim h
    simpa using this

theorem hasSucceeded_mem {f : LedgerFile} {key : String} (h : hasSucceeded f key = true) :
    ∃ r ∈ readAllRecords f, r.key = key ∧ r.status = .succeeded := by
  rw [hasSucceeded] at h
  split at h
  · rename_i r hr
    exact ⟨r, BoundedLog.latest_mem hr, BoundedLog.latest_key hr, by simpa using h⟩
  · cases h

theorem refused_iff {f : LedgerFile} {key : String} :
    refused f key = true ↔
      ∃ r, latestRecord f key = some r ∧ (r.status = .started ∨ r.status = .succeeded) := by
  rw [refused]
  cases latestRecord f key with
  | none => simp
  | some r => simp [or_comm]

theorem admitted_iff {f : LedgerFile} {key : String} :
    refused f key = false ↔
      ∀ r, latestRecord f key = some r → r.status = .failed ∨ r.status = .skipped := by
  rw [refused]
  cases latestRecord f key with
  | none => simp
  | some r => cases hr : r.status <;> simp [hr]

section Operations

variable {maxRecords : Int} {nowIso key : String} {f : LedgerFile} {kind : LedgerKind}
  {correlationId : Option String} {metadata : Dict}

theorem tryStart_refused (h : refused f key = true) :
    tryStart maxRecords nowIso f key kind correlationId metadata = (false, f) := by
  simp [tryStart, h]

theorem tryStart_admitted (h : refused f key = false) :
    tryStart maxRecords nowIso f key kind correlationId metadata =
      (true, trim maxRecords
        (appendRecord f (startedRecord key kind nowIso correlationId metadata))) := by
  simp [tryStart, h]

theorem tryStart_result :
    (tryStart maxRecords nowIso f key kind correlationId metadata).1 = !refused f key := by
  cases h : refused f key <;> simp [tryStart, h]

/-- An admitted key is started: the next call on it is refused. -/
theorem latestRecord_tryStart_self (h : refused f key = false) :
    latestRecord (tryStart maxRecords nowIso f key kind correlationId metadata).2 key =
      some (startedRecord key kind nowIso correlationId metadata) := by
  rw [tryStart_admitted h, latestRecord, readAllRecords_trim, readAllRecords_append]
  exact latest_retain_self maxRecords (readAllRecords f)
    (startedRecord key kind nowIso correlationId metadata)

end Operations

end ExecutionLedger
