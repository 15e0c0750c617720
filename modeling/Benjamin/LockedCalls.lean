import Benjamin.LedgerFileLock

/-!
# Ledger calls that hold the lock

Processes that make `try_start` and `mark` calls one after another, on any keys, interleaved at
their reads, appends and trims, in either lock mode. While the mode is `file` and nobody gives
up waiting, each call takes effect at once: the answers are those of atomic calls in some
order, and so is the file, but for a trim that is still to be made.
-/
namespace LockedCalls

open PyBase ExecutionLedger
open LedgerFileLock (Shared Clocks lockTimeout)

inductive Call where
  | tryStart (key : String) (kind : LedgerKind) (correlationId : Option String) (metadata : Dict)
  | mark (key : String) (status : LedgerStatus) (metaUpdate : Dict)

def Call.key : Call → String
  | .tryStart key _ _ _ => key
  | .mark key _ _ => key

/-- `latest` is what the call has read of its key. -/
def Call.refuses (latest : Option LedgerRecord) : Call → Bool
  | .tryStart .. =>
    match latest with
    | some r => decide (r.status = .succeeded ∨ r.status = .started)
    | none => false
  | .mark .. => false

def Call.record (latest : Option LedgerRecord) (nowIso : String) : Call → LedgerRecord
  | .tryStart key kind correlationId metadata =>
    startedRecord key kind nowIso correlationId metadata
  | .mark key status metaUpdate =>
    match latest with
    | some r => ⟨key, r.kind, status, nowIso, r.correlationId, Dict.update r.metadata metaUpdate⟩
    | none => ⟨key, .jobRun, status, nowIso, none, Dict.update [] metaUpdate⟩

/-- What is returned once the record is written; `mark` returns nothing. -/
def Call.answer : Call → Option Bool
  | .tryStart .. => some true
  | .mark .. => none

def Call.atOnce (maxRecords : Int) (nowIso : String) (f : LedgerFile) :
    Call → Option Bool × LedgerFile
  | .tryStart key kind correlationId metadata =>
    let attempt := ExecutionLedger.tryStart maxRecords nowIso f key kind correlationId metadata
    (some attempt.1, attempt.2)
  | .mark key status metaUpdate =>
    (none, ExecutionLedger.mark maxRecords nowIso f key status metaUpdate)

theorem atOnce_refused {call : Call} {f : LedgerFile}
    (h : call.refuses (latestRecord f call.key) = true) (maxRecords : Int) (nowIso : String) :
    call.atOnce maxRecords nowIso f = (some false, f) := by
  cases call with
  | tryStart key kind correlationId metadata =>
    have hrefused : refused f key = true := h
    rw [Call.atOnce, tryStart_refused hrefused]
  | mark key status metaUpdate => cases h

theorem atOnce_written {call : Call} {f : LedgerFile}
    (h : call.refuses (latestRecord f call.key) = false) (maxRecords : Int) (nowIso : String) :
    call.atOnce maxRecords nowIso f = (call.answer,
      trim maxRecords (appendRecord f (call.record (latestRecord f call.key) nowIso))) := by
  cases call with
  | tryStart key kind correlationId metadata =>
    have hadmitted : refused f key = false := h
    rw [Call.atOnce, tryStart_admitted hadmitted]
    rfl
  | mark key status metaUpdate => rfl

inductive Pc where
  | idle
  | waiting (call : Call) (deadline : Nat)
  | reading (call : Call)
  | writing (call : Call) (latest : Option LedgerRecord)
  | trimming (answer : Option Bool)
  | leaving (answer : Option Bool)
  | unlinking (answer : Option Bool)

/-- `program` gives the next call from the answers so far, if there is to be one. -/
structure Caller where
  program : List (Option Bool) → Option Call
  answers : List (Option Bool)
  pc : Pc

def Caller.to (l : Caller) (pc : Pc) : Caller := { l with pc := pc }

def Caller.returned (l : Caller) (answer : Option Bool) : Caller :=
  { l with answers := l.answers ++ [answer], pc := .idle }

def advance (fileMode : Bool) (maxRecords : Int) (x : Clocks) (s : Shared) (l : Caller) :
    Shared × Caller :=
  match l.pc with
  | .idle =>
    match l.program l.answers with
    | none => (s, l)
    | some call =>
      if fileMode then (s, l.to (.waiting call (x.monotonic + lockTimeout)))
      else (s, l.to (.reading call))
  | .waiting call deadline =>
    if s.lockExists then
      if deadline ≤ x.monotonic then (s, l.to (.reading call)) else (s, l)
    else ({ s with lockExists := true }, l.to (.reading call))
  | .reading call =>
    let latest := latestRecord s.file call.key
    if call.refuses latest then (s, l.to (.leaving (some false)))
    else (s, l.to (.writing call latest))
  | .writing call latest =>
    ({ s with file := appendRecord s.file (call.record latest x.nowIso) },
      l.to (.trimming call.answer))
  | .trimming answer => ({ s with file := trim maxRecords s.file }, l.to (.leaving answer))
  | .leaving answer =>
    if fileMode && s.lockExists then (s, l.to (.unlinking answer)) else (s, l.returned answer)
  | .unlinking answer => ({ s with lockExists := false }, l.returned answer)

def onlyCall (call : Call) (answers : List (Option Bool)) : Option Call :=
  if answers.isEmpty then some call else none

/-- The caller makes the one `try_start` of a caller of the lock file. -/
def Plays (key : String) (l : LedgerFileLock.Caller) (m : Caller) : Prop :=
  let call := Call.tryStart key l.kind l.correlationId l.metadata
  m.program = onlyCall call ∧
    match l.pc with
    | .start => m.pc = .idle ∧ m.answers = []
    | .waiting deadline => m.pc = .waiting call deadline ∧ m.answers = []
    | .reading => m.pc = .reading call ∧ m.answers = []
    | .appending => (∃ latest, m.pc = .writing call latest) ∧ m.answers = []
    | .trimming => m.pc = .trimming (some true) ∧ m.answers = []
    | .leaving result => m.pc = .leaving (some result) ∧ m.answers = []
    | .unlinking result => m.pc = .unlinking (some result) ∧ m.answers = []
    | .done result => m.pc = .idle ∧ m.answers = [some result]

theorem advance_plays (maxRecords : Int) (key : String) (x : Clocks) (s : Shared)
    {l : LedgerFileLock.Caller} {m : Caller} (h : Plays key l m) :
    (advance true maxRecords x s m).1 = (LedgerFileLock.advance maxRecords key x s l).1 ∧
      Plays key (LedgerFileLock.advance maxRecords key x s l).2
        (advance true maxRecords x s m).2 := by
  obtain ⟨kind, correlationId, metadata, gaveUp, pc⟩ := l
  obtain ⟨program, answers, mpc⟩ := m
  obtain ⟨rfl, hpc⟩ := h
  cases pc with
  | start =>
    obtain ⟨rfl, rfl⟩ := hpc
    exact ⟨rfl, rfl, rfl, rfl⟩
  | waiting deadline =>
    obtain ⟨rfl, rfl⟩ := hpc
    cases hlock : s.lockExists with
    | true =>
      by_cases htime : deadline ≤ x.monotonic
      · simp only [advance, LedgerFileLock.advance, hlock, if_pos htime, if_true]
        exact ⟨trivial, rfl, rfl, rfl⟩
      · simp only [advance, LedgerFileLock.advance, hlock, if_neg htime, if_true]
        exact ⟨trivial, rfl, rfl, rfl⟩
    | false =>
      simp only [advance, LedgerFileLock.advance, hlock, Bool.false_eq_true, if_false]
      exact ⟨trivial, rfl, rfl, rfl⟩
  | reading =>
    obtain ⟨rfl, rfl⟩ := hpc
    have hsame : (Call.tryStart key kind correlationId metadata).refuses
        (latestRecord s.file key) = refused s.file key := rfl
    simp only [advance, LedgerFileLock.advance, Call.key, hsame]
    cases refused s.file key with
    | true => exact ⟨rfl, rfl, rfl, rfl⟩
    | false => exact ⟨rfl, rfl, ⟨_, rfl⟩, rfl⟩
  | appending =>
    obtain ⟨⟨latest, rfl⟩, rfl⟩ := hpc
    exact ⟨rfl, rfl, rfl, rfl⟩
  | trimming =>
    obtain ⟨rfl, rfl⟩ := hpc
    exact ⟨rfl, rfl, rfl, rfl⟩
  | leaving result =>
    obtain ⟨rfl, rfl⟩ := hpc
    simp only [advance, LedgerFileLock.advance, Bool.true_and]
    cases s.lockExists with
    | true => exact ⟨rfl, rfl, rfl, rfl⟩
    | false => exact ⟨rfl, rfl, rfl, rfl⟩
  | unlinking result =>
    obtain ⟨rfl, rfl⟩ := hpc
    exact ⟨rfl, rfl, rfl, rfl⟩
  | done result =>
    obtain ⟨rfl, rfl⟩ := hpc
    exact ⟨rfl, rfl, rfl, rfl⟩

/-- The lock mode is `file`, and a call that waits does not give up. -/
def Patient (fileMode : Bool) (x : Clocks) (s : Shared) (l : Caller) : Prop :=
  fileMode = true ∧ ∀ call deadline, l.pc = .waiting call deadline → s.lockExists = true →
    x.monotonic < deadline

def Pc.Holds : Pc → Prop
  | .idle | .waiting _ _ => False
  | _ => True

/-- The call whose record is still to be written. -/
def Pc.call? : Pc → Option Call
  | .waiting call _ | .reading call | .writing call _ => some call
  | _ => none

/-- The caller is at work on the call of its program, and what it has read is still so. -/
structure Sound (s : Shared) (l : Caller) : Prop where
  locked : l.pc.Holds → s.lockExists = true
  asked : ∀ call, l.pc.call? = some call → l.program l.answers = some call
  read : ∀ call latest, l.pc = .writing call latest →
    latest = latestRecord s.file call.key ∧ call.refuses latest = false

theorem Sound.past {s : Shared} {l : Caller} (hlocked : l.pc.Holds → s.lockExists = true)
    (hpast : l.pc.call? = none) : Sound s l := by
  refine ⟨hlocked, fun call h => ?_, fun call latest h => ?_⟩
  · rw [hpast] at h
    cases h
  · rw [h] at hpast
    cases hpast

/-- At most one caller holds the lock. -/
def exclusion : Interleaving.Assertion Shared Caller where
  shared _ := True
  local_ := Sound
  pair _ l m := l.pc.Holds → ¬ m.pc.Holds

/-- Only the holder of the lock changes the file or frees the lock. -/
structure Effect (s s' : Shared) (l l' : Caller) : Prop where
  kept : l.pc.Holds ∨ s'.file = s.file ∧ (s.lockExists = true → s'.lockExists = true)
  acquired : l'.pc.Holds → l.pc.Holds ∨ s.lockExists = false
  sound : Sound s' l'

theorem advance_effect (maxRecords : Int) {fileMode : Bool} {x : Clocks} {s : Shared} {l : Caller}
    (hpatient : Patient fileMode x s l) (hsound : Sound s l) :
    Effect s (advance fileMode maxRecords x s l).1 l (advance fileMode maxRecords x s l).2 := by
  obtain ⟨program, answers, pc⟩ := l
  obtain ⟨rfl, hpatient⟩ := hpatient
  obtain ⟨hlocked, hasked, hread⟩ := hsound
  unfold advance
  cases pc with
  | idle =>
    dsimp only
    cases hnext : program answers with
    | none => exact ⟨.inr ⟨rfl, id⟩, .inl, hlocked, hasked, hread⟩
    | some call =>
      refine ⟨.inr ⟨rfl, id⟩, False.elim, False.elim, ?_, fun _ _ h => ?_⟩
      · rintro _ ⟨⟩
        exact hnext
      · cases h
  | waiting call deadline =>
    dsimp only
    cases hlock : s.lockExists with
    | true =>
      have hwaits := hpatient call deadline rfl hlock
      rw [if_pos rfl, if_neg (by omega)]
      exact ⟨.inr ⟨rfl, id⟩, .inl, hlocked, hasked, hread⟩
    | false =>
      refine ⟨.inr ⟨rfl, fun _ => rfl⟩, fun _ => .inr hlock, fun _ => rfl, hasked, fun _ _ h => ?_⟩
      cases h
  | reading call =>
    dsimp only
    cases hrefuses : call.refuses (latestRecord s.file call.key) with
    | true => exact ⟨.inl trivial, fun _ => .inl trivial, .past hlocked rfl⟩
    | false =>
      refine ⟨.inl trivial, fun _ => .inl trivial, hlocked, hasked, ?_⟩
      rintro _ _ ⟨⟩
      exact ⟨rfl, hrefuses⟩
  | writing call latest => exact ⟨.inl trivial, fun _ => .inl trivial, .past hlocked rfl⟩
  | trimming answer => exact ⟨.inl trivial, fun _ => .inl trivial, .past hlocked rfl⟩
  | leaving answer =>
    have hlock : s.lockExists = true := hlocked trivial
    dsimp only
    rw [hlock]
    exact ⟨.inl trivial, fun _ => .inl trivial, .past hlocked rfl⟩
  | unlinking answer => exact ⟨.inl trivial, False.elim, .past False.elim rfl⟩

theorem exclusion_interference_free (fileMode : Bool) (maxRecords : Int) :
    Interleaving.InterferenceFree (advance fileMode maxRecords) (Patient fileMode) exclusion := by
  constructor
  · intro x s l hpatient _ hl
    exact ⟨trivial, (advance_effect maxRecords hpatient hl).sound⟩
  · intro x s l m hpatient _ hl hm hlm hml
    have e := advance_effect maxRecords hpatient hl
    have hm' : Sound (advance fileMode maxRecords x s l).1 m := by
      rcases e.kept with hholds | ⟨hfile, hlock⟩
      · have hout := hlm hholds
        exact ⟨fun h => absurd h hout, hm.asked, fun call latest h => absurd (h ▸ trivial) hout⟩
      · exact ⟨fun h => hlock (hm.locked h), hm.asked, hfile ▸ hm.read⟩
    have hpair : (advance fileMode maxRecords x s l).2.pc.Holds → ¬ m.pc.Holds := by
      intro hholds hmholds
      rcases e.acquired hholds with hheld | hfree
      · exact hlm hheld hmholds
      · rw [hm.locked hmholds] at hfree
        cases hfree
    exact ⟨hm', hpair, fun h h' => hpair h' h⟩
  · intro x s l m k _ _ _ _ _ _ _ _ _ hmk
    exact hmk

/-- A process that makes the same calls at once. -/
structure Turns where
  program : List (Option Bool) → Option Call
  answers : List (Option Bool)

def makeCall (maxRecords : Int) (nowIso : String) (f : LedgerFile) (t : Turns) :
    LedgerFile × Turns :=
  match t.program t.answers with
  | none => (f, t)
  | some call =>
    let made := call.atOnce maxRecords nowIso f
    (made.2, { t with answers := t.answers ++ [made.1] })

/-- What the caller has been answered. A call is answered when its record is written. -/
def Caller.turns (l : Caller) : Turns :=
  match l.pc with
  | .trimming answer | .leaving answer | .unlinking answer => ⟨l.program, l.answers ++ [answer]⟩
  | _ => ⟨l.program, l.answers⟩

/-- The file as the caller will leave it, once its trim is made. -/
def Caller.view (maxRecords : Int) (f : LedgerFile) (l : Caller) : LedgerFile :=
  match l.pc with
  | .trimming _ => trim maxRecords f
  | _ => f

def Pc.Trims (pc : Pc) : Prop := ∃ answer, pc = .trimming answer

theorem view_of_not_trims {l : Caller} (h : ¬ l.pc.Trims) (maxRecords : Int) (f : LedgerFile) :
    l.view maxRecords f = f := by
  unfold Caller.view
  split
  · exact absurd ⟨_, ‹_›⟩ h
  · rfl

theorem Pc.Trims.holds {pc : Pc} (h : pc.Trims) : pc.Holds := by
  obtain ⟨answer, rfl⟩ := h
  trivial

theorem advance_outside (fileMode : Bool) (maxRecords : Int) (x : Clocks) (s : Shared) {l : Caller}
    (h : ¬ l.pc.Holds) :
    (advance fileMode maxRecords x s l).1.file = s.file ∧
      (advance fileMode maxRecords x s l).2.turns = l.turns ∧
      ¬ (advance fileMode maxRecords x s l).2.pc.Trims := by
  obtain ⟨program, answers, pc⟩ := l
  unfold advance
  cases pc with
  | idle =>
    dsimp only
    cases program answers with
    | none => exact ⟨rfl, rfl, fun htrims => h htrims.holds⟩
    | some call =>
      cases fileMode with
      | true => exact ⟨rfl, rfl, fun htrims => htrims.holds⟩
      | false =>
        refine ⟨rfl, rfl, ?_⟩
        rintro ⟨_, ⟨⟩⟩
  | waiting call deadline =>
    dsimp only
    split
    · split
      · refine ⟨rfl, rfl, ?_⟩
        rintro ⟨_, ⟨⟩⟩
      · exact ⟨rfl, rfl, fun htrims => htrims.holds⟩
    · refine ⟨rfl, rfl, ?_⟩
      rintro ⟨_, ⟨⟩⟩
  | _ => exact absurd trivial h

theorem makeCall_asked {l : Caller} {call : Call} (h : l.program l.answers = some call)
    (maxRecords : Int) (nowIso : String) (f : LedgerFile) :
    makeCall maxRecords nowIso f ⟨l.program, l.answers⟩ =
      ((call.atOnce maxRecords nowIso f).2,
        ⟨l.program, l.answers ++ [(call.atOnce maxRecords nowIso f).1]⟩) := by
  simp only [makeCall, h]

/-- A step of the holder shows nothing, or the call that it makes. -/
theorem advance_holder (fileMode : Bool) (maxRecords : Int) (x : Clocks) {s : Shared} {l : Caller}
    (hsound : Sound s l) (h : l.pc.Holds) :
    let moved := advance fileMode maxRecords x s l
    let seen := (moved.2.view maxRecords moved.1.file, moved.2.turns)
    seen = (l.view maxRecords s.file, l.turns) ∨
      seen = makeCall maxRecords x.nowIso (l.view maxRecords s.file) l.turns := by
  obtain ⟨program, answers, pc⟩ := l
  unfold advance
  cases pc with
  | idle => exact h.elim
  | waiting call deadline => exact h.elim
  | reading call =>
    have hnext := makeCall_asked (hsound.asked call rfl) maxRecords x.nowIso s.file
    dsimp only
    cases hrefuses : call.refuses (latestRecord s.file call.key) with
    | true =>
      rw [atOnce_refused hrefuses] at hnext
      exact .inr hnext.symm
    | false => exact .inl rfl
  | writing call latest =>
    obtain ⟨rfl, hrefuses⟩ := hsound.read call latest rfl
    have hnext := makeCall_asked (hsound.asked call rfl) maxRecords x.nowIso s.file
    rw [atOnce_written hrefuses] at hnext
    exact .inr hnext.symm
  | trimming answer => exact .inl rfl
  | leaving answer =>
    dsimp only
    split
    · exact .inl rfl
    · exact .inl rfl
  | unlinking answer => exact .inl rfl

section Matching

variable {ι : Type*} [DecidableEq ι] {maxRecords : Int}

/-- The answers are those of the calls that are made at once, and the file is theirs, but for the
trim that one caller has still to make. -/
structure Matches (maxRecords : Int) (c : Interleaving.Config ι Shared Caller)
    (c' : Interleaving.Config ι LedgerFile Turns) : Prop where
  turns : ∀ i, c'.proc i = (c.proc i).turns
  file : ∀ i, (∀ j, j ≠ i → ¬ (c.proc j).pc.Trims) →
    c'.shared = (c.proc i).view maxRecords c.shared.file

variable {c : Interleaving.Config ι Shared Caller} {c' : Interleaving.Config ι LedgerFile Turns}
  {i : ι} {fileMode : Bool} {x : Clocks}

theorem Matches.outside (h : Matches maxRecords c c') (hout : ¬ (c.proc i).pc.Holds) :
    Matches maxRecords (Interleaving.step (advance fileMode maxRecords) c (i, x)) c' := by
  obtain ⟨hfile, hturns, hafter⟩ := advance_outside fileMode maxRecords x c.shared hout
  have hbefore : ¬ (c.proc i).pc.Trims := fun htrims => hout htrims.holds
  refine ⟨fun j => ?_, fun k hothers => ?_⟩
  · by_cases hj : j = i
    · subst hj
      rw [h.turns j, ← hturns, Interleaving.step_self]
    · rw [h.turns j, Interleaving.step_other _ _ hj]
  · have hold := h.file k fun j hj => by
      by_cases hi : j = i
      · exact hi ▸ hbefore
      · have hstill := hothers j hj
        rwa [Interleaving.step_other _ _ hi] at hstill
    rw [hold, Interleaving.step_shared, hfile]
    by_cases hk : k = i
    · subst hk
      rw [Interleaving.step_self, view_of_not_trims hbefore, view_of_not_trims hafter]
    · rw [Interleaving.step_other _ _ hk]

theorem Matches.of_holder (h : Matches maxRecords c c') (halone : ∀ j, j ≠ i →
    ¬ (c.proc j).pc.Trims) {f : LedgerFile} {t : Turns}
    (hseen : ((advance fileMode maxRecords x c.shared (c.proc i)).2.view maxRecords
        (advance fileMode maxRecords x c.shared (c.proc i)).1.file,
      (advance fileMode maxRecords x c.shared (c.proc i)).2.turns) = (f, t)) :
    Matches maxRecords (Interleaving.step (advance fileMode maxRecords) c (i, x))
      ⟨f, Function.update c'.proc i t⟩ := by
  obtain ⟨rfl, rfl⟩ := Prod.mk.inj hseen
  refine ⟨fun j => ?_, fun k hothers => ?_⟩
  · by_cases hj : j = i
    · subst hj
      rw [Interleaving.step_self]
      exact Function.update_self ..
    · rw [Interleaving.step_other _ _ hj, ← h.turns j]
      exact Function.update_of_ne hj ..
  · rw [Interleaving.step_shared]
    by_cases hk : k = i
    · subst hk
      rw [Interleaving.step_self]
    · have hdone := hothers i (Ne.symm hk)
      rw [Interleaving.step_self] at hdone
      rw [Interleaving.step_other _ _ hk, view_of_not_trims hdone, view_of_not_trims (halone k hk)]

theorem Matches.step (h : Matches maxRecords c c') (hheld : exclusion.Holds c) :
    ∃ schedule', Matches maxRecords (Interleaving.step (advance fileMode maxRecords) c (i, x))
      (Interleaving.run (makeCall maxRecords) c' schedule') := by
  by_cases hholds : (c.proc i).pc.Holds
  · have halone : ∀ j, j ≠ i → ¬ (c.proc j).pc.Trims := fun j hj htrims =>
      hheld.2.2 i j (Ne.symm hj) hholds htrims.holds
    have hview := h.file i halone
    rcases advance_holder fileMode maxRecords x (hheld.2.1 i) hholds with hseen | hseen
    · refine ⟨[], ?_⟩
      have hmatches := h.of_holder halone hseen
      rw [← hview, ← h.turns i, Function.update_eq_self] at hmatches
      exact hmatches
    · refine ⟨[(i, x.nowIso)], ?_⟩
      have hmatches := h.of_holder halone hseen
      rw [← hview, ← h.turns i] at hmatches
      exact hmatches
  · exact ⟨[], h.outside hholds⟩

/-- While the mode is `file` and nobody gives up waiting, the callers see the answers of calls
that are made at once. -/
theorem calls_take_effect_at_once (hidle : ∀ i, (c.proc i).pc = .idle)
    {schedule : List (ι × Clocks)}
    (hpatient : ∀ t ∈ Interleaving.steps (advance fileMode maxRecords) c schedule,
      Patient fileMode t.op.2 t.before.shared (t.before.proc t.op.1)) :
    ∃ schedule', Matches maxRecords (Interleaving.run (advance fileMode maxRecords) c schedule)
      (Interleaving.run (makeCall maxRecords)
        ⟨c.shared.file, fun i => (c.proc i).turns⟩ schedule') := by
  have hout : ∀ i, ¬ (c.proc i).pc.Holds := fun i h => by rw [hidle i] at h; exact h
  have hinit : exclusion.Holds c :=
    ⟨trivial, fun i => .past (fun h => absurd h (hout i)) (by rw [hidle i]; rfl),
      fun i _ _ h => absurd h (hout i)⟩
  refine (exclusion_interference_free fileMode maxRecords).run_with
    (I := fun now => ∃ schedule', Matches maxRecords now (Interleaving.run (makeCall maxRecords)
      ⟨c.shared.file, fun i => (c.proc i).turns⟩ schedule'))
    (fun now e _ hheld hmatched => ?_) hpatient hinit ⟨[], fun _ => rfl, fun i _ => ?_⟩
  · obtain ⟨front, hfront⟩ := hmatched
    obtain ⟨back, hback⟩ := hfront.step hheld
    refine ⟨front ++ back, ?_⟩
    rw [Interleaving.run, SerialRun.final_append]
    exact hback
  · exact (view_of_not_trims (fun htrims => hout i htrims.holds) _ _).symm

end Matching

end LockedCalls
