import Benjamin.ClaimedWork
import Benjamin.RuleActionOnce
import Benjamin.SchedulerJobs

/-!
# Jobs that fire at the same time

Any number of firings of the reminder and of the daily briefing, in any number of
processes, interleaved at their reads of the memory, ledger calls, notifications and
episodes. A process may stop anywhere; clock and policy change between the steps. Each
`try_start` and `mark` is one step: it holds the ledger's lock file throughout, and such calls
take effect at once (`LockedCalls`). A call that goes on without the lock, because it is
switched off or the wait has reached its deadline, is left out here; two of them can admit
one key (`LedgerFileLock`).
-/
namespace JobRace

open PyBase PlanSchemas ExecutionLedger LedgerKeys AssistantState SchedulerJobs RuleActionOnce
  ClaimedWork Effect

inductive Work where
  | reminder (message : String)
  | briefing (sources : BriefingSources)

structure Firing where
  made : Constructors
  call : JobCall
  work : Work

/-- `delivered` are the keys under which a notification got through. It is not in the
source. -/
structure Shared extends JobState where
  delivered : List String

inductive Pc where
  | start
  | composed (sources : BriefingSources) (body : String) (degraded : List String)
      (before : JobState)
  | answered (correlationId key body : String) (episode : Episode) (started : Bool)
  | noting (key : String) (episode : Episode)
  | marking (key : String) (failure : Option PyError)
  | done (answer : Except PyError Unit)

structure Process where
  firing : Firing
  pc : Pc

/-- The step's own clock and settings; the limit of the ledger is the same for all. -/
def Shared.under (s : Shared) (x : Surroundings) : Shared :=
  { s with
    toJobState.world.toSurroundings := { x with maxRecords := s.world.maxRecords } }

/-- From the correlation id to the answer of `try_start`. -/
def claim (rt : Runtime) (f : Firing) (default : String) (extra : Dict) :
    Job (String × String × Bool) := do
  let correlationId ← onWorld (drawUuid rt)
  construct f.made.ledger
  let (key, started) ← startRun rt f.call default extra correlationId
  pure (correlationId, key, started)

/-- The claim of a firing; `body` and `episode` are what it will send and note. -/
def claimStep (rt : Runtime) (f : Firing) (default : String) (extra : Dict) (body : String)
    (episode : String → Episode) (s : Shared) : Shared × Pc :=
  let (r, j) := claim rt f default extra s.toJobState
  ({ s with toJobState := j }, match r with
    | .error e => .done (.error e)
    | .ok (correlationId, key, started) =>
      .answered correlationId key body (episode correlationId) started)

def reminderEpisode (f : Firing) (message correlationId : String) : Episode :=
  ⟨"notification", "Sent reminder: " ++ message, f.call.notifyMeta correlationId⟩

def Firing.skipEpisode (f : Firing) (correlationId : String) : Episode :=
  match f.work with
  | .reminder message =>
    ⟨"notification", "Skipped duplicate reminder: " ++ message,
      f.call.skippedMeta "reminder" correlationId⟩
  | .briefing _ =>
    ⟨"briefing", "Skipped duplicate daily briefing",
      [("job_id", optional f.call.jobId), ("correlation_id", .str correlationId),
        ("skipped_idempotent", .bool true)]⟩

/-- What is raised between the claim and the notification, or before the note of a refusal. -/
def Firing.unbuilt (f : Firing) (started : Bool) : Option PyError :=
  let memory := match f.work with
    | .reminder _ => f.made.memoryManager
    | .briefing _ => none
  let router := if f.call.routerGiven then none else f.made.notificationRouter
  if started then memory.or router else memory

def Firing.title (f : Firing) : String :=
  match f.work with
  | .reminder _ => "Reminder"
  | .briefing _ => "Daily Briefing"

/-- The answer of `send`, and what it leaves to do. -/
def sendStep (f : Firing) (correlationId key body : String) (episode : Episode) (s : Shared) :
    Shared × Pc :=
  let (r, j) := routerSend f.call f.title body (f.call.notifyMeta correlationId) s.toJobState
  match r with
  | .ok _ => (⟨j, s.delivered ++ [key]⟩, .noting key episode)
  | .error e => (⟨j, s.delivered⟩, .marking key (some e))

def noteStep (episode : Episode) (s : Shared) : Shared :=
  { s with toJobState :=
      (onWorld (appendEpisode episode.kind episode.summary episode.metadata) s.toJobState).2 }

def markStep (key : String) (failure : Option PyError) (s : Shared) : Shared :=
  { s with toJobState := (onWorld (match failure with
      | none => ledgerMark key .succeeded []
      | some e => ledgerMark key .failed [("error", .str e.str)]) s.toJobState).2 }

def startStep (rt : Runtime) (f : Firing) (s : Shared) : Shared × Pc :=
  match f.work with
  | .reminder message =>
    claimStep rt f "reminder" [("message", .str message)] message (reminderEpisode f message) s
  | .briefing sources =>
    match f.made.memoryManager, briefingBody sources s.toJobState with
    | some e, _ => (s, .done (.error e))
    | none, .error e => (s, .done (.error e))
    | none, .ok (body, degraded) => (s, .composed sources body degraded s.toJobState)

/-- After the answer of `try_start`. -/
def answeredStep (f : Firing) (correlationId key body : String) (episode : Episode)
    (started : Bool) (s : Shared) : Shared × Pc :=
  match f.unbuilt started with
  | some e => (s, .done (.error e))
  | none =>
    if started then sendStep f correlationId key body episode s
    else (noteStep (f.skipEpisode correlationId) s, .done (.ok ()))

def Firing.step (rt : Runtime) (f : Firing) (s : Shared) : Pc → Shared × Pc
  | .start => startStep rt f s
  | .composed sources body degraded before =>
    claimStep rt f "daily-briefing" [] body
      (fun correlationId => briefingEpisode f.call sources before correlationId degraded) s
  | .answered correlationId key body episode started =>
    answeredStep f correlationId key body episode started s
  | .noting key episode => (noteStep episode s, .marking key none)
  | .marking key none => (markStep key none s, .done (.ok ()))
  | .marking key (some e) => (markStep key (some e) s, .done (.error e))
  | .done answer => (s, .done answer)

def advance (rt : Runtime) (x : Surroundings) (s : Shared) (p : Process) : Shared × Process :=
  let moved := p.firing.step rt (s.under x) p.pc
  (moved.1, { p with pc := moved.2 })

def Firing.run (rt : Runtime) (f : Firing) : Job Unit :=
  match f.work with
  | .reminder message => runReminder rt f.made f.call message
  | .briefing sources => runDailyBriefing rt f.made f.call sources

/-- What a firing does after the answer of `try_start`. -/
def Firing.finish (f : Firing) (correlationId key body : String) (episode : Episode)
    (started : Bool) : Job Unit :=
  match f.unbuilt started with
  | some e => Prog.raise e
  | none =>
    if started then
      sendAndMark f.call key f.title body (f.call.notifyMeta correlationId) episode
    else
      let skip := f.skipEpisode correlationId
      onWorld (appendEpisode skip.kind skip.summary skip.metadata)

def Process.rest (rt : Runtime) (p : Process) : Job Unit :=
  match p.pc with
  | .start => p.firing.run rt
  | .composed sources body degraded before => do
    let (correlationId, key, started) ← claim rt p.firing "daily-briefing" []
    p.firing.finish correlationId key body
      (briefingEpisode p.firing.call sources before correlationId degraded) started
  | .answered correlationId key body episode started =>
    p.firing.finish correlationId key body episode started
  | .noting key episode => do
    onWorld (appendEpisode episode.kind episode.summary episode.metadata)
    onWorld (ledgerMark key .succeeded [])
  | .marking key none => onWorld (ledgerMark key .succeeded [])
  | .marking key (some e) => do
    onWorld (ledgerMark key .failed [("error", .str e.str)])
    Prog.raise e
  | .done answer => Prog.ofExcept answer

section Alone

variable (rt : Runtime)

def Firing.key (f : Firing) (default : String) (extra : Dict) (s : JobState) : String :=
  jobRunKey rt s.world.now (f.call.effectiveId default) f.call.scheduledRunIso extra

def startedRun (f : Firing) (default : String) (extra : Dict) (s : JobState) : Stores → Stores :=
  startKey s.world.toSurroundings (f.key rt default extra s) .jobRun
    (some (rt.uuid4 s.world.uuids)) (f.call.startMeta default)

def drawn (s : JobState) : JobState := { s with world.uuids := s.world.uuids + 1 }

theorem claim_eq (f : Firing) (default : String) (extra : Dict) (s : JobState) :
    claim rt f default extra s = match f.made.ledger with
      | some e => (.error e, drawn s)
      | none =>
        (.ok (rt.uuid4 s.world.uuids, f.key rt default extra s,
            !refused s.world.disk.ledger (f.key rt default extra s)),
          { drawn s with world :=
            (drawn s).world.writeStores (startedRun rt f default extra s) }) := by
  unfold claim
  cases hledger : f.made.ledger with
  | some e => rfl
  | none =>
    rw [← tryStart_result]
    rfl

theorem claim_finish (f : Firing) (default : String) (extra : Dict) (body : String)
    (episode : String → Episode) (rest : String → String → Bool → Job Unit)
    (hrest : ∀ correlationId key started s, rest correlationId key started s =
      f.finish correlationId key body (episode correlationId) started s) (s : JobState) :
    (do
      let correlationId ← onWorld (drawUuid rt)
      construct f.made.ledger
      let (key, started) ← startRun rt f.call default extra correlationId
      rest correlationId key started) s =
    (claim rt f default extra >>= fun answer =>
      f.finish answer.1 answer.2.1 body (episode answer.1) answer.2.2) s := by
  have hsame : (fun answer : String × String × Bool =>
      f.finish answer.1 answer.2.1 body (episode answer.1) answer.2.2) =
      fun answer => rest answer.1 answer.2.1 answer.2.2 := by
    funext answer s
    exact (hrest ..).symm
  rw [hsame]
  cases hledger : f.made.ledger <;> simp only [claim, hledger] <;> rfl

theorem activeRouter_eq (made : Constructors) (call : JobCall) :
    activeRouter made call =
    construct (if call.routerGiven then none else made.notificationRouter) := by
  unfold activeRouter
  cases call.routerGiven <;> rfl

theorem finishReminder_eq (made : Constructors) (call : JobCall)
    (message correlationId key : String)
    (started : Bool) (s : JobState) :
    finishReminder made call message correlationId key started s =
      (Firing.mk made call (.reminder message)).finish correlationId key message
        (reminderEpisode ⟨made, call, .reminder message⟩ message correlationId) started s := by
  unfold finishReminder Firing.finish Firing.unbuilt
  rw [activeRouter_eq]
  cases hmemory : made.memoryManager with
  | some e => cases started <;> rfl
  | none =>
    cases started with
    | false => rfl
    | true =>
      cases (if call.routerGiven then none else made.notificationRouter) <;> rfl

theorem finishBriefing_eq (made : Constructors) (call : JobCall) (sources : BriefingSources)
    (correlationId body key : String) (episode : Episode) (started : Bool) (s : JobState) :
    finishBriefing made call correlationId body episode key started s =
      (Firing.mk made call (.briefing sources)).finish correlationId key body episode
        started s := by
  unfold finishBriefing Firing.finish Firing.unbuilt
  rw [activeRouter_eq]
  cases started with
  | false => rfl
  | true => cases (if call.routerGiven then none else made.notificationRouter) <;> rfl

theorem claimStep_rest (f : Firing) (default : String) (extra : Dict) (body : String)
    (episode : String → Episode) (s : Shared) :
    (claim rt f default extra >>= fun answer =>
        f.finish answer.1 answer.2.1 body (episode answer.1) answer.2.2) s.toJobState =
      Process.rest rt ⟨f, (claimStep rt f default extra body episode s).2⟩
        (claimStep rt f default extra body episode s).1.toJobState := by
  unfold claimStep
  cases hclaim : claim rt f default extra s.toJobState with
  | mk r j =>
    cases r with
    | error e =>
      rw [bind_error hclaim]
      rfl
    | ok answer =>
      rw [bind_ok hclaim]
      rfl

theorem sendStep_rest (f : Firing) (correlationId key body : String) (episode : Episode)
    (s : Shared) :
    sendAndMark f.call key f.title body (f.call.notifyMeta correlationId) episode s.toJobState =
      Process.rest rt ⟨f, (sendStep f correlationId key body episode s).2⟩
        (sendStep f correlationId key body episode s).1.toJobState := by
  unfold sendAndMark Prog.attempt sendStep
  cases hsend : f.call.sendRaises with
  | none =>
    have hrun : ∀ j, routerSend f.call f.title body (f.call.notifyMeta correlationId) j =
        (.ok (), { j with sent := j.sent ++ [⟨f.title, body, f.call.notifyMeta correlationId,
          none⟩] }) := fun j => by simp only [routerSend, hsend]
    rw [bind_ok (hrun _), hrun]
    rfl
  | some e =>
    have hrun : ∀ j, routerSend f.call f.title body (f.call.notifyMeta correlationId) j =
        (.error e, { j with sent := j.sent ++ [⟨f.title, body, f.call.notifyMeta correlationId,
          some e⟩] }) := fun j => by simp only [routerSend, hsend]
    rw [bind_error (hrun _), hrun]
    rfl

theorem answeredStep_rest (f : Firing) (correlationId key body : String) (episode : Episode)
    (started : Bool) (s : Shared) :
    f.finish correlationId key body episode started s.toJobState =
      Process.rest rt ⟨f, (answeredStep f correlationId key body episode started s).2⟩
        (answeredStep f correlationId key body episode started s).1.toJobState := by
  unfold Firing.finish answeredStep
  cases f.unbuilt started with
  | some e => rfl
  | none =>
    cases started with
    | false => rfl
    | true => exact sendStep_rest rt f correlationId key body episode s

theorem runReminder_eq (made : Constructors) (call : JobCall) (message : String) (s : JobState) :
    runReminder rt made call message s =
      (claim rt ⟨made, call, .reminder message⟩ "reminder" [("message", .str message)] >>=
        fun answer => (Firing.mk made call (.reminder message)).finish answer.1 answer.2.1 message
          (reminderEpisode ⟨made, call, .reminder message⟩ message answer.1) answer.2.2) s :=
  claim_finish rt ⟨made, call, .reminder message⟩ "reminder" [("message", .str message)] message
    (reminderEpisode ⟨made, call, .reminder message⟩ message)
    (finishReminder made call message) (finishReminder_eq made call message) s

theorem runDailyBriefing_eq (made : Constructors) (call : JobCall) (sources : BriefingSources)
    (s : JobState) :
    runDailyBriefing rt made call sources s =
      match made.memoryManager, briefingBody sources s with
      | some e, _ => (.error e, s)
      | none, .error e => (.error e, s)
      | none, .ok (body, degraded) =>
        (claim rt ⟨made, call, .briefing sources⟩ "daily-briefing" [] >>= fun answer =>
          (Firing.mk made call (.briefing sources)).finish answer.1 answer.2.1 body
            (briefingEpisode call sources s answer.1 degraded) answer.2.2) s := by
  unfold runDailyBriefing
  cases made.memoryManager with
  | some e => rfl
  | none =>
    refine (pure_bind () _ s).trans ((read_bind _ _ s).trans ((ask_bind _ _ s).trans ?_))
    cases briefingBody sources s with
    | error e => rfl
    | ok composed =>
      exact claim_finish rt ⟨made, call, .briefing sources⟩ "daily-briefing" [] composed.1
        (fun correlationId => briefingEpisode call sources s correlationId composed.2)
        (fun correlationId key started => finishBriefing made call correlationId composed.1
          (briefingEpisode call sources s correlationId composed.2) key started)
        (fun correlationId key started => finishBriefing_eq made call sources correlationId
          composed.1 key _ started) s

theorem step_rest (f : Firing) (s : Shared) (pc : Pc) :
    Process.rest rt ⟨f, pc⟩ s.toJobState =
      Process.rest rt ⟨f, (f.step rt s pc).2⟩ (f.step rt s pc).1.toJobState := by
  cases pc with
  | start =>
    obtain ⟨made, call, work⟩ := f
    cases work with
    | reminder message =>
      exact (runReminder_eq rt made call message s.toJobState).trans
        (claimStep_rest rt ⟨made, call, .reminder message⟩ "reminder"
          [("message", .str message)] message
          (reminderEpisode ⟨made, call, .reminder message⟩ message) s)
    | briefing sources =>
      have hrun := runDailyBriefing_eq rt made call sources s.toJobState
      refine hrun.trans ?_
      unfold Firing.step startStep
      dsimp only
      cases made.memoryManager with
      | some e => rfl
      | none =>
        cases briefingBody sources s.toJobState with
        | error e => rfl
        | ok composed => rfl
  | composed sources body degraded before =>
    exact claimStep_rest rt f "daily-briefing" [] body
      (fun correlationId => briefingEpisode f.call sources before correlationId degraded) s
  | answered correlationId key body episode started =>
    exact answeredStep_rest rt f correlationId key body episode started s
  | noting key episode => rfl
  | marking key failure => cases failure <;> rfl
  | done answer => rfl

def Pc.left : Pc → Nat
  | .start => 5
  | .composed .. => 4
  | .answered .. => 3
  | .noting .. => 2
  | .marking .. => 1
  | .done _ => 0

theorem claimStep_left (f : Firing) (default : String) (extra : Dict) (body : String)
    (episode : String → Episode) (s : Shared) :
    (claimStep rt f default extra body episode s).2.left ≤ 3 := by
  unfold claimStep
  rcases claim rt f default extra s.toJobState with ⟨_ | _, j⟩
  · exact Nat.zero_le 3
  · exact Nat.le_refl 3

theorem answeredStep_left (f : Firing) (correlationId key body : String) (episode : Episode)
    (started : Bool) (s : Shared) :
    (answeredStep f correlationId key body episode started s).2.left ≤ 2 := by
  unfold answeredStep
  split
  · exact Nat.zero_le 2
  · split
    · unfold sendStep
      cases hsend : f.call.sendRaises <;> simp [routerSend, hsend, Pc.left]
    · exact Nat.zero_le 2

theorem step_left (f : Firing) (s : Shared) (pc : Pc) :
    (f.step rt s pc).2.left ≤ pc.left - 1 := by
  cases pc with
  | start =>
    change (startStep rt f s).2.left ≤ 4
    unfold startStep
    split
    · exact Nat.le_succ_of_le (claimStep_left ..)
    · split
      · exact Nat.zero_le 4
      · exact Nat.zero_le 4
      · exact Nat.le_refl 4
  | composed => exact claimStep_left ..
  | answered => exact answeredStep_left ..
  | noting key episode => exact Nat.le_refl 1
  | marking key failure => cases failure <;> exact Nat.le_refl 0
  | done answer => exact Nat.le_refl 0

def alone (n : Nat) (s : Shared) (p : Process) : Shared × Process :=
  match n with
  | 0 => (s, p)
  | n + 1 =>
    alone n (advance rt s.world.toSurroundings s p).1 (advance rt s.world.toSurroundings s p).2

theorem alone_rest (n : Nat) (s : Shared) (p : Process) :
    p.rest rt s.toJobState = (alone rt n s p).2.rest rt (alone rt n s p).1.toJobState ∧
      (alone rt n s p).2.pc.left ≤ p.pc.left - n := by
  induction n generalizing s p with
  | zero => exact ⟨rfl, Nat.le_refl _⟩
  | succ n ih =>
    obtain ⟨hrest, hleft⟩ := ih (advance rt s.world.toSurroundings s p).1
      (advance rt s.world.toSurroundings s p).2
    refine ⟨(step_rest rt p.firing s p.pc).trans hrest, ?_⟩
    have hstep : (advance rt s.world.toSurroundings s p).2.pc.left ≤ p.pc.left - 1 :=
      step_left rt p.firing _ p.pc
    unfold alone
    omega

/-- A firing that is not disturbed does in five steps what its job does. -/
theorem firing_alone (f : Firing) (s : Shared) :
    (alone rt 5 s ⟨f, .start⟩).1.toJobState = (f.run rt s.toJobState).2 ∧
      (alone rt 5 s ⟨f, .start⟩).2.pc = .done (f.run rt s.toJobState).1 := by
  obtain ⟨hrest, hleft⟩ := alone_rest rt 5 s ⟨f, .start⟩
  generalize alone rt 5 s ⟨f, .start⟩ = final at hrest hleft
  obtain ⟨s', ⟨f', pc'⟩⟩ := final
  have hdone : pc'.left = 0 := by simpa [Pc.left] using hleft
  cases pc' with
  | done answer =>
    have hrun : f.run rt s.toJobState = (answer, s'.toJobState) :=
      hrest.trans (ofExcept_apply answer s'.toJobState)
    rw [hrun]
    exact ⟨rfl, rfl⟩
  | start | composed | answered | noting | marking => simp [Pc.left] at hdone

end Alone

def statusOf : Option LedgerRecord → Status
  | none => .opened
  | some r => match r.status with
    | .started => .claimed
    | .succeeded => .finished
    | .failed | .skipped => .opened

/-- The board shows what the ledger has been told since the start, and what got through. -/
structure Shows (bound : Int) (start : List LedgerRecord) (base : Nat) (s : Shared)
    (b : Board String) : Prop where
  bound_eq : s.world.maxRecords = bound
  successes : ∀ k, b.successes k = s.delivered.count k
  status : ∃ added, History bound start base s.world.disk.toStores added ∧
    ∀ k, b.status k = statusOf (BoundedLog.latest LedgerRecord.key added k)

/-- A process that is done may still be holding a key: a router that cannot be built leaves
the key started. -/
def Plays (p : Process) (q : Phase String) : Prop :=
  match p.pc with
  | .start | .composed .. => q = .idle
  | .answered _ key _ _ true => q = .holding key
  | .answered _ _ _ _ false => True
  | .noting key _ | .marking key none => q = .succeeded key
  | .marking key (some _) => q = .failed key
  | .done _ => True

section Workers

variable {bound : Int} {start : List LedgerRecord} {base : Nat} {s s' : Shared} {b : Board String}

theorem statusOf_claimed {r : LedgerRecord} (h : statusOf (some r) ≠ .opened) :
    r.status = .started ∨ r.status = .succeeded := by
  cases hr : r.status with
  | started => exact .inl rfl
  | succeeded => exact .inr rfl
  | failed | skipped => simp [statusOf, hr] at h

theorem Shows.refused {key : String} (h : Shows bound start base s b)
    (hbounded : Bounded bound base s.world.disk.toStores) (hkey : b.status key ≠ .opened) :
    refused s.world.disk.ledger key = true := by
  obtain ⟨added, hhistory, hstatus⟩ := h.status
  refine refused_of_claimed hhistory hbounded ?_
  rw [hstatus] at hkey
  cases hlatest : BoundedLog.latest LedgerRecord.key added key with
  | none =>
    rw [hlatest] at hkey
    exact absurd rfl hkey
  | some r =>
    rw [hlatest] at hkey
    exact ⟨r, hlatest, statusOf_claimed hkey⟩

theorem Shows.same (h : Shows bound start base s b)
    (hbound : s'.world.maxRecords = s.world.maxRecords)
    (hledger : s'.world.disk.ledger = s.world.disk.ledger)
    (happends : s'.world.disk.ledgerAppends = s.world.disk.ledgerAppends)
    (hdelivered : s'.delivered = s.delivered) : Shows bound start base s' b := by
  obtain ⟨added, ⟨hretains, hcounted⟩, hstatus⟩ := h.status
  refine ⟨hbound.trans h.bound_eq, fun k => by rw [hdelivered]; exact h.successes k,
    added, ⟨?_, happends.trans hcounted⟩, hstatus⟩
  rw [hledger]
  exact hretains

/-- One record more in the ledger is a change of one status. -/
theorem Shows.append (h : Shows bound start base s b) {r : LedgerRecord} {key : String}
    {status : Status} (hbound : s'.world.maxRecords = s.world.maxRecords)
    (happended : Appended bound r s.world.disk.toStores s'.world.disk.toStores)
    (hdelivered : s'.delivered = s.delivered) (hkey : r.key = key)
    (hr : statusOf (some r) = status) :
    Shows bound start base s' (b.setStatus key status) := by
  obtain ⟨added, hhistory, hstatus⟩ := h.status
  refine ⟨hbound.trans h.bound_eq, fun k => by rw [hdelivered]; exact h.successes k,
    added ++ [r], happended.history hhistory, fun k => ?_⟩
  subst hkey hr
  by_cases hk : k = r.key
  · subst hk
    rw [status_setStatus_self, BoundedLog.latest_append_self]
  · rw [status_setStatus_ne hk, BoundedLog.latest_append_ne (Ne.symm hk), hstatus]

theorem started_appended (x : Surroundings) {key : String} {kind : LedgerKind}
    {correlationId : Option String} {metadata : Dict} {d : Stores} (hbound : x.maxRecords = bound)
    (hadmitted : refused d.ledger key = false) :
    ∃ r, Appended bound r d (startKey x key kind correlationId metadata d) ∧ r.key = key ∧
      statusOf (some r) = .claimed := by
  refine ⟨startedRecord key kind (isoformat x.now) correlationId metadata, ⟨?_, rfl, ?_⟩,
    rfl, rfl⟩
  · simp only [startKey, tryStart_admitted hadmitted, readAllRecords_trim,
      readAllRecords_append, hbound]
  · simp [startKey, hadmitted]

variable (rt : Runtime)

theorem claimStep_follows (f : Firing) (default : String) (extra : Dict) (body : String)
    (episode : String → Episode) (h : Shows bound start base s b)
    (hbounded : Bounded bound base s.world.disk.toStores) :
    Interleaving.Follows ClaimedWork.advance (Shows bound start base) Plays b .idle
      ((claimStep rt f default extra body episode s).1,
        (⟨f, (claimStep rt f default extra body episode s).2⟩ : Process)) := by
  unfold claimStep
  rw [claim_eq]
  cases f.made.ledger with
  | some e => exact .inl ⟨h.same rfl rfl rfl rfl, trivial⟩
  | none =>
    dsimp only
    cases hrefused : refused s.world.disk.ledger (f.key rt default extra s.toJobState) with
    | true =>
      have hunchanged : startedRun rt f default extra s.toJobState s.world.disk.toStores =
          s.world.disk.toStores := startKey_refused hrefused
      refine .inl ⟨h.same rfl ?_ ?_ rfl, trivial⟩
      · exact congrArg Stores.ledger hunchanged
      · exact congrArg Stores.ledgerAppends hunchanged
    | false =>
      have hopened : b.status (f.key rt default extra s.toJobState) = .opened := by
        by_contra hne
        cases (h.refused hbounded hne).symm.trans hrefused
      refine .inr ⟨.claim (f.key rt default extra s.toJobState), ?_⟩
      simp only [ClaimedWork.advance, hopened, if_true]
      obtain ⟨r, happended, hkey, hstatus⟩ := started_appended s.world.toSurroundings
        h.bound_eq hrefused
      exact ⟨h.append rfl happended rfl hkey hstatus, rfl⟩

theorem sendStep_follows (f : Firing) (correlationId key body : String) (episode : Episode)
    (h : Shows bound start base s b) :
    Interleaving.Follows ClaimedWork.advance (Shows bound start base) Plays b (.holding key)
      ((sendStep f correlationId key body episode s).1,
        (⟨f, (sendStep f correlationId key body episode s).2⟩ : Process)) := by
  unfold sendStep
  cases hsend : f.call.sendRaises with
  | some e =>
    simp only [routerSend, hsend]
    exact .inr ⟨.work false, h.same rfl rfl rfl rfl, rfl⟩
  | none =>
    simp only [routerSend, hsend]
    refine .inr ⟨.work true, ⟨h.bound_eq, fun k => ?_, h.status⟩, rfl⟩
    dsimp only [ClaimedWork.advance]
    rw [List.count_append]
    by_cases hk : k = key
    · subst hk
      rw [successes_succeed_self, h.successes, List.count_singleton_self]
    · rw [successes_succeed_ne hk, h.successes, List.count_singleton]
      simp [Ne.symm hk]

theorem mark_follows (key : String) (failure : Option PyError) (h : Shows bound start base s b) :
    Shows bound start base (markStep key failure s)
      (b.setStatus key (if failure.isNone then .finished else .opened)) := by
  cases failure with
  | none =>
    obtain ⟨r, happended, hkey, hstatus⟩ := mark_appended (d := s.world.disk.toStores) key
      .succeeded [] h.bound_eq
    exact h.append rfl happended rfl hkey (by simp [statusOf, hstatus])
  | some e =>
    obtain ⟨r, happended, hkey, hstatus⟩ := mark_appended (d := s.world.disk.toStores) key
      .failed [("error", .str e.str)] h.bound_eq
    exact h.append rfl happended rfl hkey (by simp [statusOf, hstatus])

/-- Each step of a firing is a move of a worker, or none. -/
theorem step_follows (f : Firing) (pc : Pc) {q : Phase String} (h : Shows bound start base s b)
    (hbounded : Bounded bound base s.world.disk.toStores) (hq : Plays ⟨f, pc⟩ q) :
    Interleaving.Follows ClaimedWork.advance (Shows bound start base) Plays b q
      ((f.step rt s pc).1, (⟨f, (f.step rt s pc).2⟩ : Process)) := by
  cases pc with
  | start =>
    cases hq
    change Interleaving.Follows _ _ _ _ _ ((startStep rt f s).1,
        (⟨f, (startStep rt f s).2⟩ : Process))
    unfold startStep
    split
    · exact claimStep_follows rt f _ _ _ _ h hbounded
    · split
      · exact .inl ⟨h, trivial⟩
      · exact .inl ⟨h, trivial⟩
      · exact .inl ⟨h, rfl⟩
  | composed sources body degraded before =>
    cases hq
    exact claimStep_follows rt f _ _ _ _ h hbounded
  | answered correlationId key body episode started =>
    change Interleaving.Follows _ _ _ _ _
      ((answeredStep f correlationId key body episode started s).1,
        (⟨f, (answeredStep f correlationId key body episode started s).2⟩ : Process))
    unfold answeredStep
    split
    · exact .inl ⟨h, trivial⟩
    · cases started with
      | false => exact .inl ⟨h.same rfl rfl rfl rfl, trivial⟩
      | true =>
        cases hq
        exact sendStep_follows f correlationId key body episode h
  | noting key episode => exact .inl ⟨h.same rfl rfl rfl rfl, hq⟩
  | marking key failure =>
    cases failure with
    | none =>
      cases hq
      exact .inr ⟨.report, mark_follows key none h, trivial⟩
    | some e =>
      cases hq
      exact .inr ⟨.report, mark_follows key (some e) h, trivial⟩
  | done answer => exact .inl ⟨h, trivial⟩

theorem advance_follows (x : Surroundings) (s : Shared) (p : Process) (b : Board String)
    (q : Phase String) (hbounded : Bounded bound base s.world.disk.toStores)
    (h : Shows bound start base s b) (hq : Plays p q) :
    Interleaving.Follows ClaimedWork.advance (Shows bound start base) Plays b q
      (advance rt x s p) := by
  have hunder : Shows bound start base (s.under x) b := h.same rfl rfl rfl rfl
  exact step_follows rt p.firing p.pc hunder hbounded hq

end Workers

def gotThrough (s : JobState) : Nat := s.sent.countP fun n => n.failure.isNone

/-- The ledger is told more, and `delivered` keeps count of what gets through. -/
structure Tallies (s s' : Shared) : Prop where
  appends : s.world.disk.ledgerAppends ≤ s'.world.disk.ledgerAppends
  delivered : gotThrough s'.toJobState + s.delivered.length =
    gotThrough s.toJobState + s'.delivered.length

section Tallying

variable (rt : Runtime) {s s' : Shared}

theorem Tallies.of_same (happends : s.world.disk.ledgerAppends ≤ s'.world.disk.ledgerAppends)
    (hsent : s'.sent = s.sent) (hdelivered : s'.delivered = s.delivered) : Tallies s s' :=
  ⟨happends, by rw [gotThrough, hsent, hdelivered, gotThrough]⟩

theorem claimStep_tallies (f : Firing) (default : String) (extra : Dict) (body : String)
    (episode : String → Episode) (s : Shared) :
    Tallies s (claimStep rt f default extra body episode s).1 := by
  unfold claimStep
  rw [claim_eq]
  cases f.made.ledger with
  | some e => exact .of_same (Nat.le_refl _) rfl rfl
  | none => exact .of_same (Nat.le_add_right _ _) rfl rfl

theorem sendStep_tallies (f : Firing) (correlationId key body : String) (episode : Episode)
    (s : Shared) : Tallies s (sendStep f correlationId key body episode s).1 := by
  unfold sendStep
  cases hsend : f.call.sendRaises with
  | none =>
    simp only [routerSend, hsend]
    refine ⟨Nat.le_refl _, ?_⟩
    simp [gotThrough, List.countP_append]
    omega
  | some e =>
    simp only [routerSend, hsend]
    refine ⟨Nat.le_refl _, ?_⟩
    simp [gotThrough, List.countP_append]

theorem step_tallies (f : Firing) (s : Shared) (pc : Pc) : Tallies s (f.step rt s pc).1 := by
  cases pc with
  | start =>
    change Tallies s (startStep rt f s).1
    unfold startStep
    split
    · exact claimStep_tallies ..
    · split <;> exact .of_same (Nat.le_refl _) rfl rfl
  | composed => exact claimStep_tallies ..
  | answered correlationId key body episode started =>
    change Tallies s (answeredStep f correlationId key body episode started s).1
    unfold answeredStep
    split
    · exact .of_same (Nat.le_refl _) rfl rfl
    · split
      · exact sendStep_tallies ..
      · exact .of_same (Nat.le_refl _) rfl rfl
  | noting key episode => exact .of_same (Nat.le_refl _) rfl rfl
  | marking key failure => cases failure <;> exact .of_same (Nat.le_add_right _ _) rfl rfl
  | done answer => exact .of_same (Nat.le_refl _) rfl rfl

theorem advance_tallies (x : Surroundings) (s : Shared) (p : Process) :
    Tallies s (advance rt x s p).1 := by
  have hstep := step_tallies rt p.firing (s.under x) p.pc
  exact ⟨hstep.appends, hstep.delivered⟩

theorem Tallies.trans {s₁ : Shared} (h : Tallies s s₁) (h' : Tallies s₁ s') : Tallies s s' := by
  obtain ⟨happends, hdelivered⟩ := h
  obtain ⟨happends', hdelivered'⟩ := h'
  exact ⟨happends.trans happends', by omega⟩

end Tallying

section Runs

variable {ι : Type*} [DecidableEq ι] (rt : Runtime)

theorem run_tallies (c : Interleaving.Config ι Shared Process)
    (schedule : List (ι × Surroundings)) :
    Tallies c.shared (Interleaving.run (advance rt) c schedule).shared :=
  SerialRun.invariant_final
    (I := fun c' : Interleaving.Config ι Shared Process => Tallies c.shared c'.shared)
    (fun c' e h => h.trans (advance_tallies rt e.2 c'.shared (c'.proc e.1)))
    (.of_same (Nat.le_refl _) rfl rfl) schedule

/-- While there is room at the end, there was room all along. -/
theorem bounded_along {bound : Int} {base : Nat} {c : Interleaving.Config ι Shared Process}
    {schedule : List (ι × Surroundings)}
    (hbounded : Bounded bound base
      (Interleaving.run (advance rt) c schedule).shared.world.disk.toStores) :
    ∀ t ∈ Interleaving.steps (advance rt) c schedule,
      Bounded bound base t.before.shared.world.disk.toStores := by
  have hle : _ ∧ ∀ t ∈ Interleaving.steps (advance rt) c schedule,
      t.before.shared.world.disk.ledgerAppends ≤
        (Interleaving.run (advance rt) c schedule).shared.world.disk.ledgerAppends :=
    SerialRun.le_final (m := fun c : Interleaving.Config ι Shared Process =>
      c.shared.world.disk.ledgerAppends)
      fun c e => (advance_tallies rt e.2 c.shared (c.proc e.1)).appends
  intro t ht
  have hbefore := hle.2 t ht
  refine hbounded.imp_right fun hroom => ?_
  omega

structure Delivers (s s' : Shared) : Prop where
  tally : gotThrough s'.toJobState = gotThrough s.toJobState + s'.delivered.length
  once : ∀ key, s'.delivered.count key ≤ 1
  refused : ∀ key ∈ s'.delivered, refused s'.world.disk.ledger key = true

def emptyBoard : Board String := ⟨fun _ => .opened, fun _ => 0⟩

/-- However the firings interleave and wherever they stop: as long as the ledger has been
given fewer records than it keeps, at most one notification gets through under each key,
and the ledger refuses that key from then on. -/
theorem one_notification_per_key (c : Interleaving.Config ι Shared Process)
    (hstart : ∀ i, (c.proc i).pc = .start) (hnone : c.shared.delivered = [])
    (schedule : List (ι × Surroundings))
    (hbounded : Bounded c.shared.world.maxRecords c.shared.world.disk.ledgerAppends
      (Interleaving.run (advance rt) c schedule).shared.world.disk.toStores) :
    Delivers c.shared (Interleaving.run (advance rt) c schedule).shared := by
  have hcorresponds : Interleaving.Corresponds
      (Shows c.shared.world.maxRecords (readAllRecords c.shared.world.disk.ledger)
        c.shared.world.disk.ledgerAppends) Plays c ⟨emptyBoard, fun _ => .idle⟩ := by
    refine ⟨⟨rfl, fun k => by rw [hnone]; rfl, [], ⟨?_, rfl⟩, fun _ => rfl⟩, fun i => ?_⟩
    · rw [List.append_nil]
      exact BoundedLog.Retains.refl _ _
    · simp only [Plays, hstart i]
  obtain ⟨schedule', hmatched⟩ := hcorresponds.run
    (fun x s p b q (hroom : Bounded c.shared.world.maxRecords
      c.shared.world.disk.ledgerAppends s.world.disk.toStores) =>
        advance_follows rt x s p b q hroom)
    (bounded_along rt hbounded)
  have honce := succeeds_once (c := ⟨emptyBoard, fun _ : ι => .idle⟩)
    ⟨fun _ => rfl, fun _ => rfl⟩ schedule'
  have htally := (run_tallies rt c schedule).delivered
  rw [hnone] at htally
  refine ⟨htally, fun key => ?_, fun key hmem => ?_⟩
  · have hcount := hmatched.shared.successes key
    rcases honce key with hzero | ⟨hone, _⟩ <;> omega
  · have hcount := hmatched.shared.successes key
    have hpositive := List.count_pos_iff.mpr hmem
    rcases honce key with hzero | ⟨_, hclosed⟩
    · omega
    · exact hmatched.shared.refused hbounded hclosed

end Runs

def teaRuntime : Runtime := exampleRuntime (fun _ => .returned "") fun _ => none

def teaFiring : Firing where
  made := allBuilt
  call := ⟨some "tea", some "1970-01-01T08:00:00+00:00", true, none⟩
  work := .reminder "Tea"

def twoFirings : Interleaving.Config Bool Shared Process where
  shared := ⟨⟨freshWorld exampleSurroundings, [], [], []⟩, []⟩
  proc _ := ⟨teaFiring, .start⟩

def teaSchedule : List (Bool × Surroundings) :=
  [true, false, false, true, true, true].map fun i => (i, exampleSurroundings)

theorem tea_sent_once :
    Delivers twoFirings.shared (Interleaving.run (advance teaRuntime) twoFirings
        teaSchedule).shared ∧
      gotThrough (Interleaving.run (advance teaRuntime) twoFirings
        teaSchedule).shared.toJobState = 1 := by
  refine ⟨one_notification_per_key teaRuntime twoFirings (fun _ => rfl) rfl teaSchedule ?_, ?_⟩
  · exact .inr (by decide)
  · decide

end JobRace
