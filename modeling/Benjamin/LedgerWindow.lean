import Benjamin.ExecutionLedger
import Benjamin.SerialRun

/-!
# The at-most-once window of the ledger

Serial sequences of `tryStart` and `mark` on any keys, with an overlay that keeps
every valid record ever in the file. The trimmed file answers for a key as the
full history does while fewer than `maxRecords` records follow the key's latest. A malformed
line is one that the reader skips, so bytes that are no text do not occur.
-/
namespace LedgerWindow

open PyBase ExecutionLedger

inductive LedgerCall where
  | tryStart (nowIso key : String) (kind : LedgerKind) (correlationId : Option String)
      (metadata : Dict)
  | mark (nowIso key : String) (status : LedgerStatus) (metaUpdate : Dict)

/-- The call marks the key failed or skipped. -/
def LedgerCall.Releases (c : LedgerCall) (key : String) : Prop :=
  match c with
  | .tryStart .. => False
  | .mark _ k status _ => k = key ∧ (status = .failed ∨ status = .skipped)

/-- The file, and all its valid records from the start, trimmed ones included. -/
structure Audited where
  file : LedgerFile
  history : List LedgerRecord

def initial (f : LedgerFile) : Audited := ⟨f, readAllRecords f⟩

def apply (maxRecords : Int) (s : Audited) : LedgerCall → Audited
  | .tryStart nowIso key kind correlationId metadata =>
    ⟨(tryStart maxRecords nowIso s.file key kind correlationId metadata).2,
      if refused s.file key then s.history
      else s.history ++ [startedRecord key kind nowIso correlationId metadata]⟩
  | .mark nowIso key status metaUpdate =>
    ⟨mark maxRecords nowIso s.file key status metaUpdate,
      s.history ++ [markedRecord s.file nowIso key status metaUpdate]⟩

def Appends (c : LedgerCall) (f : LedgerFile) (r : LedgerRecord) : Prop :=
  match c with
  | .tryStart nowIso key kind correlationId metadata =>
    refused f key = false ∧ r = startedRecord key kind nowIso correlationId metadata
  | .mark nowIso key status metaUpdate => r = markedRecord f nowIso key status metaUpdate

/-- A call is a refused `tryStart` and changes nothing, or it appends one record and trims. -/
theorem apply_cases (maxRecords : Int) (s : Audited) (c : LedgerCall) :
    apply maxRecords s c = s ∨
      ∃ r, Appends c s.file r ∧
        apply maxRecords s c = ⟨trim maxRecords (appendRecord s.file r), s.history ++ [r]⟩ := by
  cases c with
  | tryStart nowIso key kind correlationId metadata =>
    cases h : refused s.file key with
    | true => left; simp [apply, tryStart_refused h, h]
    | false => right; exact ⟨_, ⟨h, rfl⟩, by simp [apply, tryStart_admitted h, h]⟩
  | mark nowIso key status metaUpdate => right; exact ⟨_, rfl, rfl⟩

theorem appends_status {c : LedgerCall} {f : LedgerFile} {r : LedgerRecord}
    (h : Appends c f r) (hc : ¬ c.Releases r.key) :
    r.status = .started ∨ r.status = .succeeded := by
  cases c with
  | tryStart nowIso key kind correlationId metadata =>
    obtain ⟨_, rfl⟩ := h
    exact Or.inl rfl
  | mark nowIso key status metaUpdate =>
    cases h
    simp only [LedgerCall.Releases, markedRecord_key, true_and, not_or] at hc
    rw [markedRecord_status]
    cases status <;> simp at hc ⊢

def Faithful (maxRecords : Int) (s : Audited) : Prop :=
  BoundedLog.Retains maxRecords (readAllRecords s.file) s.history

theorem faithful_step (maxRecords : Int) (s : Audited) (c : LedgerCall)
    (hs : Faithful maxRecords s) : Faithful maxRecords (apply maxRecords s c) := by
  rcases apply_cases maxRecords s c with heq | ⟨r, _, heq⟩
  · rw [heq]; exact hs
  · rw [heq, Faithful, readAllRecords_trim, readAllRecords_append]
    exact hs.append r

theorem faithful_run (maxRecords : Int) (f : LedgerFile) (calls : List LedgerCall) :
    Faithful maxRecords (SerialRun.final (apply maxRecords) (initial f) calls) := by
  have hinit : Faithful maxRecords (initial f) := BoundedLog.Retains.refl maxRecords _
  exact SerialRun.invariant_final (faithful_step maxRecords) hinit calls

/-- In the history, the key's latest record is open: `started` or `succeeded`. -/
def Open (key : String) (s : Audited) : Prop :=
  ∃ r, BoundedLog.latest LedgerRecord.key s.history key = some r ∧
    (r.status = .started ∨ r.status = .succeeded)

theorem open_step (maxRecords : Int) (key : String) (s : Audited) (c : LedgerCall)
    (hc : ¬ c.Releases key) (hs : Open key s) : Open key (apply maxRecords s c) := by
  rcases apply_cases maxRecords s c with heq | ⟨r, happ, heq⟩
  · rw [heq]; exact hs
  · rw [heq]
    by_cases hk : r.key = key
    · subst hk
      exact ⟨r, BoundedLog.latest_append_self s.history r, appends_status happ hc⟩
    · obtain ⟨o, ho, hstatus⟩ := hs
      exact ⟨o, (BoundedLog.latest_append_ne hk s.history).trans ho, hstatus⟩

theorem open_run (maxRecords : Int) (key : String) {f : LedgerFile} {calls : List LedgerCall}
    (hcalls : ∀ c ∈ calls, ¬ c.Releases key) (hf : refused f key = true) :
    Open key (SerialRun.final (apply maxRecords) (initial f) calls) := by
  have hstep : ∀ s c, ¬ c.Releases key → Open key s → Open key (apply maxRecords s c) :=
    open_step maxRecords key
  have hinit : Open key (initial f) := refused_iff.mp hf
  exact (SerialRun.invariant_along (C := fun t => ¬ t.op.Releases key) (I := Open key) hstep
    (fun t ht => hcalls t.op (SerialRun.op_mem ht)) hinit).2

/-- Fewer than `maxRecords` valid records follow the key's latest one, or none is ever trimmed. -/
def Within (maxRecords : Int) (key : String) (s : Audited) : Prop :=
  maxRecords ≤ 0 ∨ (BoundedLog.after LedgerRecord.key key s.history : Int) < maxRecords

/-- Inside the window the file's latest record of the key is the history's. -/
theorem latestRecord_within {maxRecords : Int} {key : String} {s : Audited} {r : LedgerRecord}
    (hs : Faithful maxRecords s) (hw : Within maxRecords key s)
    (hr : BoundedLog.latest LedgerRecord.key s.history key = some r) :
    latestRecord s.file key = some r := by
  rw [latestRecord, hs.latest_eq hw (by simp [hr]), hr]

/-- Past the window of a trimmed file the key is forgotten and admitted again. -/
theorem admitted_beyond {maxRecords : Int} {key : String} {s : Audited}
    (hs : Faithful maxRecords s) (hlen : ((readAllRecords s.file).length : Int) ≤ maxRecords)
    (hw : maxRecords ≤ (BoundedLog.after LedgerRecord.key key s.history : Int)) :
    refused s.file key = false := by
  have hnone : latestRecord s.file key = none :=
    BoundedLog.latest_suffix_none hs.newest (by omega)
  exact admitted_iff.mpr fun r hr => by simp [hnone] at hr

theorem try_start_window (maxRecords : Int) (f : LedgerFile) (calls : List LedgerCall) :
    let s := SerialRun.final (apply maxRecords) (initial f) calls
    (∀ nowIso key kind correlationId metadata,
      let attempt := tryStart maxRecords nowIso s.file key kind correlationId metadata
      (attempt.1 = true ↔
        ∀ r, latestRecord s.file key = some r → r.status = .failed ∨ r.status = .skipped) ∧
      (attempt.1 = true → readAllRecords attempt.2 = BoundedLog.retain maxRecords
        (readAllRecords s.file ++ [startedRecord key kind nowIso correlationId metadata])) ∧
      (attempt.1 = false → attempt.2 = s.file)) ∧
    (∀ key, (∃ r, latestRecord f key = some r ∧ (r.status = .started ∨ r.status = .succeeded)) →
      (∀ c ∈ calls, ¬ c.Releases key) → Within maxRecords key s →
      ∀ nowIso kind correlationId metadata,
        (tryStart maxRecords nowIso s.file key kind correlationId metadata).1 = false) ∧
    (∀ nowIso key status metaUpdate r,
      BoundedLog.latest LedgerRecord.key s.history key = some r → Within maxRecords key s →
      latestRecord (mark maxRecords nowIso s.file key status metaUpdate) key =
        some ⟨key, r.kind, status, nowIso, r.correlationId, r.metadata.update metaUpdate⟩) := by
  intro s
  have hs : Faithful maxRecords s := faithful_run maxRecords f calls
  refine ⟨?_, ?_, ?_⟩
  · intro nowIso key kind correlationId metadata attempt
    have hresult : attempt.1 = !refused s.file key := tryStart_result
    refine ⟨?_, ?_, ?_⟩
    · rw [hresult, Bool.not_eq_true', admitted_iff]
    · intro h
      have hadm : refused s.file key = false := by simpa [hresult] using h
      simp only [attempt, tryStart_admitted hadm, readAllRecords_trim, readAllRecords_append]
    · intro h
      have href : refused s.file key = true := by simpa [hresult] using h
      simp only [attempt, tryStart_refused href]
  · intro key hkey hcalls hw nowIso kind correlationId metadata
    obtain ⟨r, hr, hstatus⟩ := open_run maxRecords key hcalls (refused_iff.mpr hkey)
    have href : refused s.file key = true :=
      refused_iff.mpr ⟨r, latestRecord_within hs hw hr, hstatus⟩
    rw [tryStart_refused href]
  · intro nowIso key status metaUpdate r hr hw
    rw [latestRecord_mark_self, markedRecord, latestRecord_within hs hw hr]

/-- With room for two records, one record of another key leaves `k` refused. -/
theorem try_start_window_two :
    (tryStart 2 "t2" (SerialRun.final (apply 2)
      (initial [.malformed "oops", .record ⟨"k", .jobRun, .started, "t0", none, []⟩])
      [.tryStart "t1" "j" .jobRun none []]).file "k" .jobRun none []).1 = false :=
  (try_start_window 2 _ _).2.1 "k" ⟨_, rfl, Or.inl rfl⟩
    (by simp [LedgerCall.Releases]) (Or.inr (by decide)) "t2" .jobRun none []

/-- A second one evicts it. -/
example : refused (SerialRun.final (apply 2)
    (initial [.record ⟨"k", .jobRun, .started, "t0", none, []⟩])
    [.tryStart "t1" "j" .jobRun none [], .mark "t2" "j" .succeeded []]).file "k" = false := by
  decide

end LedgerWindow
