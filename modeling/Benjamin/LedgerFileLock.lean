import Benjamin.ExecutionLedger
import Benjamin.SerialRun

/-!
# Admission through the ledger's lock file

Processes that call `try_start` on one key, in lock mode `file`. A waiter that
reaches its deadline goes on without the lock, and every call removes the lock
file on its way out, whoever created it. Reading, appending and trimming are
atomic steps. The first call to leave has recorded the key, so that only
calls that gave up waiting can be admitted besides the first lock holder.
-/
namespace LedgerFileLock

open PyBase ExecutionLedger

inductive Pc where
  | start
  | waiting (deadline : Nat)
  | reading
  | appending
  | trimming
  | leaving (result : Bool)
  | unlinking (result : Bool)
  | done (result : Bool)
  deriving DecidableEq

/-- One call of `try_start`; `gaveUp` records that it broke out of the wait at its deadline. -/
structure Caller where
  kind : LedgerKind
  correlationId : Option String
  metadata : Dict
  gaveUp : Bool
  pc : Pc

structure Shared where
  lockExists : Bool
  file : LedgerFile

/-- What the clocks read during a step: `time.monotonic()` in microseconds, and `_now_iso()`. -/
structure Clocks where
  monotonic : Nat
  nowIso : String

def lockTimeout : Nat := 2000000

def advance (maxRecords : Int) (key : String) (x : Clocks) (s : Shared) (l : Caller) :
    Shared × Caller :=
  match l.pc with
  | .start => (s, { l with pc := .waiting (x.monotonic + lockTimeout) })
  | .waiting deadline =>
    if s.lockExists then
      if deadline ≤ x.monotonic then (s, { l with gaveUp := true, pc := .reading }) else (s, l)
    else ({ s with lockExists := true }, { l with pc := .reading })
  | .reading =>
    if refused s.file key then (s, { l with pc := .leaving false })
    else (s, { l with pc := .appending })
  | .appending =>
    let record := startedRecord key l.kind x.nowIso l.correlationId l.metadata
    ({ s with file := appendRecord s.file record }, { l with pc := .trimming })
  | .trimming => ({ s with file := trim maxRecords s.file }, { l with pc := .leaving true })
  | .leaving result =>
    if s.lockExists then (s, { l with pc := .unlinking result })
    else (s, { l with pc := .done result })
  | .unlinking result => ({ s with lockExists := false }, { l with pc := .done result })
  | .done _ => (s, l)

def newCaller (kind : LedgerKind) (correlationId : Option String) (metadata : Dict) : Caller :=
  ⟨kind, correlationId, metadata, false, .start⟩

/-- A call alone with a free lock does what `tryStart` does, and frees the lock again. -/
theorem solo_run {ι : Type*} [DecidableEq ι] (maxRecords : Int) (key : String) (x : Clocks)
    (i : ι) (c : Interleaving.Config ι Shared Caller) (hlock : c.shared.lockExists = false)
    {kind : LedgerKind} {correlationId : Option String} {metadata : Dict}
    (hi : c.proc i = newCaller kind correlationId metadata) :
    let attempt := tryStart maxRecords x.nowIso c.shared.file key kind correlationId metadata
    let c' := Interleaving.run (advance maxRecords key) c (List.replicate 7 (i, x))
    c'.shared = ⟨false, attempt.2⟩ ∧ (c'.proc i).pc = .done attempt.1 := by
  obtain ⟨⟨lock, file⟩, proc⟩ := c
  simp only at hlock hi
  subst hlock
  cases h : refused file key with
  | true =>
    simp [tryStart_refused h, Interleaving.run, List.replicate, Interleaving.step, advance,
      hi, newCaller, h]
  | false =>
    simp [tryStart_admitted h, Interleaving.run, List.replicate, Interleaving.step, advance,
      hi, newCaller, h]

/-- The newest valid record is a `started` one of the key. -/
def Opened (key : String) (f : LedgerFile) : Prop :=
  ∃ older r, readAllRecords f = older ++ [r] ∧ r.key = key ∧ r.status = .started

theorem opened_refused {key : String} {f : LedgerFile} (h : Opened key f) :
    refused f key = true := by
  obtain ⟨older, r, hf, rfl, hstatus⟩ := h
  refine refused_iff.mpr ⟨r, ?_, Or.inl hstatus⟩
  rw [latestRecord, hf, BoundedLog.latest_append_self]

theorem opened_append {key : String} (f : LedgerFile) (kind : LedgerKind) (nowIso : String)
    (correlationId : Option String) (metadata : Dict) :
    Opened key (appendRecord f (startedRecord key kind nowIso correlationId metadata)) :=
  ⟨readAllRecords f, _, readAllRecords_append f _, rfl, rfl⟩

theorem opened_trim {key : String} {f : LedgerFile} (maxRecords : Int) (h : Opened key f) :
    Opened key (trim maxRecords f) := by
  obtain ⟨older, r, hf, hkey, hstatus⟩ := h
  rw [Opened, readAllRecords_trim, hf, BoundedLog.retain]
  split
  · exact ⟨older, r, rfl, hkey, hstatus⟩
  · rw [List.drop_append_of_le_length (by simp; omega)]
    exact ⟨_, r, rfl, hkey, hstatus⟩

def Caller.Acquired (l : Caller) : Prop :=
  l.gaveUp = false ∧ l.pc ≠ .start ∧ ∀ deadline, l.pc ≠ .waiting deadline

def Caller.Settled (l : Caller) : Prop :=
  match l.pc with
  | .trimming | .leaving _ | .unlinking _ | .done _ => True
  | _ => False

/-- The call has been admitted: it returns or will return `True`. -/
def Caller.Admitted (l : Caller) : Prop :=
  match l.pc with
  | .appending | .trimming => True
  | .leaving result | .unlinking result | .done result => result = true
  | _ => False

/-- Until the key is recorded at most one call has acquired the lock, which is then still there. -/
def exclusion (key : String) : Interleaving.Assertion Shared Caller where
  shared s := Opened key s.file ∨ latestRecord s.file key = none
  local_ s l := (l.Settled → Opened key s.file) ∧
    (l.Acquired → Opened key s.file ∨ s.lockExists = true)
  pair s l m := (l.Acquired → m.Acquired → Opened key s.file) ∧
    (l.Acquired → m.Acquired → l.Admitted → ¬ m.Admitted)

structure Effect (key : String) (s s' : Shared) (l l' : Caller) : Prop where
  file : s'.file = s.file ∨ Opened key s'.file
  lock : s.lockExists = true → s'.lockExists = true ∨ Opened key s'.file
  settled : l'.Settled → Opened key s'.file
  acquired : l'.Acquired →
    l.Acquired ∨ s.lockExists = false ∧ s'.lockExists = true ∧ ¬ l'.Admitted
  admitted : l'.Admitted → l.Admitted ∨ refused s.file key = false

theorem advance_effect (maxRecords : Int) (key : String) (x : Clocks) (s : Shared) (l : Caller)
    (hs : (exclusion key).shared s) (hl : l.Settled → Opened key s.file) :
    Effect key s (advance maxRecords key x s l).1 l (advance maxRecords key x s l).2 := by
  obtain ⟨kind, correlationId, metadata, gaveUp, pc⟩ := l
  cases pc with
  | start => constructor <;> simp +contextual [advance, Caller.Settled, Caller.Acquired,
      Caller.Admitted]
  | waiting deadline =>
    by_cases hlock : s.lockExists = true
    · by_cases hx : deadline ≤ x.monotonic <;>
        constructor <;>
        simp +contextual [advance, hlock, hx, Caller.Settled, Caller.Acquired, Caller.Admitted]
    · constructor <;> simp +contextual [advance, hlock, Caller.Settled, Caller.Acquired,
        Caller.Admitted]
  | reading =>
    cases h : refused s.file key with
    | true =>
      -- A refused key has a record, so the newest record is the key's.
      have hopen : Opened key s.file := by
        rcases hs with hs | hs
        · exact hs
        · simp [refused, hs] at h
      constructor <;>
        simp +contextual [advance, h, hopen, Caller.Settled, Caller.Acquired, Caller.Admitted]
    | false =>
      constructor <;> simp +contextual [advance, h, Caller.Settled, Caller.Acquired,
        Caller.Admitted]
  | appending =>
    have hopen : Opened key _ := opened_append s.file kind x.nowIso correlationId metadata
    constructor <;> simp +contextual [advance, hopen, Caller.Settled, Caller.Acquired,
      Caller.Admitted]
  | trimming =>
    have hopen := opened_trim maxRecords (hl trivial)
    constructor <;> simp +contextual [advance, hopen, Caller.Settled, Caller.Acquired,
      Caller.Admitted]
  | leaving result =>
    have hopen := hl trivial
    by_cases hlock : s.lockExists = true <;>
      constructor <;>
      simp +contextual [advance, hlock, hopen, Caller.Settled, Caller.Acquired, Caller.Admitted]
  | unlinking result =>
    have hopen := hl trivial
    constructor <;> simp +contextual [advance, hopen, Caller.Settled, Caller.Acquired,
      Caller.Admitted]
  | done result =>
    have hopen := hl trivial
    constructor <;> simp +contextual [advance, hopen, Caller.Settled, Caller.Acquired,
      Caller.Admitted]

theorem Effect.opened {key : String} {s s' : Shared} {l l' : Caller} (e : Effect key s s' l l')
    (h : Opened key s.file) : Opened key s'.file := by
  rcases e.file with heq | hopen
  · rw [heq]; exact h
  · exact hopen

theorem Effect.guarded {key : String} {s s' : Shared} {l l' : Caller}
    (e : Effect key s s' l l') (h : Opened key s.file ∨ s.lockExists = true) :
    Opened key s'.file ∨ s'.lockExists = true := by
  rcases h with h | h
  · exact Or.inl (e.opened h)
  · exact (e.lock h).symm

theorem exclusion_pair_symm {key : String} {s : Shared} {l m : Caller}
    (h : (exclusion key).pair s l m) : (exclusion key).pair s m l :=
  ⟨fun hm hl => h.1 hl hm, fun hm hl hadm hadl => h.2 hl hm hadl hadm⟩

theorem exclusion_pair_step {key : String} {s s' : Shared} {l l' m : Caller}
    (e : Effect key s s' l l') (hm : (exclusion key).local_ s m)
    (hp : (exclusion key).pair s l m) : (exclusion key).pair s' l' m := by
  refine ⟨?_, ?_⟩
  · intro hl' hmacq
    rcases e.acquired hl' with hl | ⟨hfree, _⟩
    · exact e.opened (hp.1 hl hmacq)
    · rcases hm.2 hmacq with hopen | hlock
      · exact e.opened hopen
      · simp [hfree] at hlock
  · intro hl' hmacq hadm
    rcases e.acquired hl' with hl | ⟨_, _, hnot⟩
    · rcases e.admitted hadm with hadm | hfree
      · exact hp.2 hl hmacq hadm
      · have := opened_refused (hp.1 hl hmacq)
        simp [hfree] at this
    · exact absurd hadm hnot

theorem exclusion_interference_free (maxRecords : Int) (key : String) :
    Interleaving.InterferenceFree (advance maxRecords key) (fun _ _ _ => True)
      (exclusion key) := by
  constructor
  · intro x s l _ hs hl
    have e := advance_effect maxRecords key x s l hs hl.1
    refine ⟨?_, e.settled, ?_⟩
    · rcases e.file with heq | hopen
      · simpa only [exclusion, heq] using hs
      · exact Or.inl hopen
    · intro hacq
      rcases e.acquired hacq with hacq | ⟨_, hlock, _⟩
      · exact e.guarded (hl.2 hacq)
      · exact Or.inr hlock
  · intro x s l m _ hs hl hm hlm _
    have e := advance_effect maxRecords key x s l hs hl.1
    have hpair := exclusion_pair_step e hm hlm
    exact ⟨⟨fun h => e.opened (hm.1 h), fun h => e.guarded (hm.2 h)⟩, hpair,
      exclusion_pair_symm hpair⟩
  · intro x s l m k _ hs hl _ _ _ _ _ _ hmk
    have e := advance_effect maxRecords key x s l hs hl.1
    exact ⟨fun hm hk => e.opened (hmk.1 hm hk), hmk.2⟩

structure Fresh {ι : Type*} (key : String) (c : Interleaving.Config ι Shared Caller) : Prop where
  unlocked : c.shared.lockExists = false
  unrecorded : latestRecord c.shared.file key = none
  calls : ∀ i, ∃ kind correlationId metadata, c.proc i = newCaller kind correlationId metadata

theorem exclusion_initial {ι : Type*} {key : String} {c : Interleaving.Config ι Shared Caller}
    (hc : Fresh key c) : (exclusion key).Holds c := by
  have hnew : ∀ i, ¬ (c.proc i).Settled ∧ ¬ (c.proc i).Acquired := by
    intro i
    obtain ⟨kind, correlationId, metadata, hi⟩ := hc.calls i
    rw [hi]
    exact ⟨id, fun h => h.2.1 rfl⟩
  refine ⟨Or.inr hc.unrecorded, fun i => ?_, fun i j _ => ?_⟩
  · exact ⟨fun h => absurd h (hnew i).1, fun h => absurd h (hnew i).2⟩
  · exact ⟨fun h => absurd h (hnew i).2, fun h => absurd h (hnew i).2⟩

theorem single_admission {ι : Type*} [DecidableEq ι] (maxRecords : Int) (key : String)
    (c : Interleaving.Config ι Shared Caller) (hc : Fresh key c)
    (schedule : List (ι × Clocks)) {i j : ι} (hij : i ≠ j) :
    let c' := Interleaving.run (advance maxRecords key) c schedule
    (c'.proc i).pc = .done true → (c'.proc j).pc = .done true →
      (c'.proc i).gaveUp = true ∨ (c'.proc j).gaveUp = true := by
  intro c' hi hj
  have hholds : (exclusion key).Holds c' :=
    (exclusion_interference_free maxRecords key).run (fun _ _ => trivial) (exclusion_initial hc)
  by_contra hgave
  simp only [not_or, Bool.not_eq_true] at hgave
  have hacqi : (c'.proc i).Acquired := ⟨hgave.1, by simp [hi], by simp [hi]⟩
  have hacqj : (c'.proc j).Acquired := ⟨hgave.2, by simp [hj], by simp [hj]⟩
  exact (hholds.2.2 i j hij).2 hacqi hacqj (by simp [Caller.Admitted, hi])
    (by simp [Caller.Admitted, hj])

def twoCalls : Interleaving.Config (Fin 2) Shared Caller :=
  ⟨⟨false, []⟩, fun _ => newCaller .jobRun none []⟩

theorem twoCalls_fresh (key : String) : Fresh key twoCalls :=
  ⟨rfl, rfl, fun _ => ⟨_, _, _, rfl⟩⟩

/-- Call 0 holds the lock for more than two seconds between reading and appending. -/
def slowHolder : List (Fin 2 × Clocks) :=
  [(0, ⟨0, "t0"⟩), (0, ⟨1, "t0"⟩), (0, ⟨2, "t0"⟩), (1, ⟨3, "t0"⟩), (1, ⟨2000003, "t2"⟩),
    (1, ⟨2000004, "t2"⟩), (1, ⟨2000005, "t2"⟩), (1, ⟨2000006, "t2"⟩), (1, ⟨2000007, "t2"⟩),
    (1, ⟨2000008, "t2"⟩), (0, ⟨2000009, "t2"⟩), (0, ⟨2000010, "t2"⟩), (0, ⟨2000011, "t2"⟩)]

theorem two_admissions :
    let c := Interleaving.run (advance 5000 "k") twoCalls slowHolder
    Fresh "k" twoCalls ∧ (c.proc 0).pc = .done true ∧ (c.proc 1).pc = .done true :=
  ⟨twoCalls_fresh "k", by decide, by decide⟩

theorem single_admission_slowHolder :
    let c := Interleaving.run (advance 5000 "k") twoCalls slowHolder
    (c.proc 0).gaveUp = true ∨ (c.proc 1).gaveUp = true :=
  single_admission 5000 "k" twoCalls (twoCalls_fresh "k") slowHolder (by decide)
    (by decide) (by decide)

end LedgerFileLock
