import Benjamin.ApprovalService
import Benjamin.SerialRun

/-!
# Concurrent decisions on one approval

Any number of approve and reject requests on one pending approval, interleaved at
their store reads, store writes, ledger operations and runs of the skill. Safe mode
and policy stay permissive and the approval does not expire, so the checks that
depend on them pass. Each request acts on the copy of the record it read.
-/
namespace ApprovalRace

open PyBase ExecutionLedger PlanSchemas SkillRegistry AssistantState ApprovalStore PlanExecutor
  ApprovalService

/-- What the requests share: the surroundings, the registered skill and the approval. -/
structure Setting where
  rt : Runtime
  env : Surroundings
  skill : Skill
  approvalId : String

inductive Request where
  | approve (approverNote : Option String)
  | reject (reason : Option String)
  deriving DecidableEq

inductive Pc where
  | start
  | checked (record : PendingApproval) (correlationId : String)
  | running (record : PendingApproval) (correlationId : String)
  | marking (record : PendingApproval) (correlationId : String) (result : StepResult)
  | writing (record : PendingApproval)
  | done (answer : Except PyError PendingApproval)

structure Client where
  request : Request
  pc : Pc

/-- What a step takes from outside: the clock, a correlation id for a requester without
one, and what a run of the skill does. -/
structure Choice where
  now : Int
  correlationId : String
  outcome : SkillOutcome

def note : Request → Option String
  | .approve approverNote => approverNote
  | .reject _ => none

/-- The first step: read the record and decide by its status. -/
def decideRecord (S : Setting) (x : Choice) (request : Request) : Option PendingApproval → Pc
  | none => .done (.error (.httpException 404 "approval not found"))
  | some record =>
    let correlationId :=
      (truthy (record.requester.get "correlation_id")).getD x.correlationId
    match request, record.status with
    | .approve _, .approved =>
      .done (.ok { record with result := some (duplicateResult record.step) })
    | .approve _, .pending => .checked (withSnapshot S.env.policy record) correlationId
    | .reject reason, .pending =>
      .writing (withCorrelation { record with status := .rejected, error := reason } correlationId)
    | _, status => .done (.error (.httpException 400 ("approval is " ++ status.str)))

def advance (S : Setting) (x : Choice) (d : Stores) (l : Client) : Stores × Client :=
  let env := { S.env with now := x.now }
  match l.pc with
  | .start => (d, { l with pc := decideRecord S x l.request (get d.approvals S.approvalId) })
  | .checked record correlationId =>
    if refused d.ledger (executionKey S.rt record) then
      (d, { l with pc := .writing (skippedRecord record correlationId) })
    else
      (startedExecution S.rt env record correlationId d,
        { l with pc := .running record correlationId })
  | .running record correlationId =>
    (d.log (.skillRun S.skill record.step
        (executionRequester record (note l.request) correlationId) x.outcome),
      { l with pc := .marking record correlationId (ranResult record.step x.outcome) })
  | .marking record correlationId result =>
    (markedExecution env (executionKey S.rt record) result d,
      { l with pc := .writing (executedRecord record result correlationId) })
  | .writing record => (persisted S.env.autoclean record d, { l with pc := .done (.ok record) })
  | .done _ => (d, l)

def alone (S : Setting) (request : Request) (d : Stores) (choices : List Choice) :
    Stores × Client :=
  choices.foldl (fun c x => advance S x c.1 c.2) (d, ⟨request, .start⟩)

structure Permissive (rt : Runtime) (registry : Registry) (skill : Skill) (w : World)
    (record : PendingApproval) : Prop where
  unsafe_off : w.safeMode = false
  unexpired : isExpired rt w.now record = .ok false
  scopes : ∀ scope ∈ record.requiredScopes, w.policy.isScopeEnabled scope = true
  cleared : Cleared w registry record.step skill

section Alone

variable {rt : Runtime} {registry : Registry} {skill : Skill} {id : String} {w : World}

/-- A request on an approval that is gone or decided ends at its first step as the call does. -/
theorem closed_alone (h : ∀ record, get w.disk.approvals id = some record →
      record.status ≠ .pending) (x : Choice) (approverNote reason : Option String) :
    alone ⟨rt, w.toSurroundings, skill, id⟩ (.approve approverNote) w.disk.toStores [x] =
        ((approve rt id approverNote registry w).2.disk.toStores,
          ⟨.approve approverNote, .done (approve rt id approverNote registry w).1⟩) ∧
      alone ⟨rt, w.toSurroundings, skill, id⟩ (.reject reason) w.disk.toStores [x] =
        ((reject rt id reason w).2.disk.toStores,
          ⟨.reject reason, .done (reject rt id reason w).1⟩) := by
  cases hstored : get w.disk.approvals id with
  | none => simp [alone, advance, decideRecord, approve, reject, hstored]
  | some record =>
    have hdecided := h record hstored
    cases hstatus : record.status with
    | pending => exact absurd hstatus hdecided
    | _ => simp [alone, advance, decideRecord, approve, reject, hstored, hstatus]

theorem pending_choice (S : Setting) (request : Request) (x : Choice) {record : PendingApproval}
    {d : Stores} {correlationId other : String}
    (hstored : get d.approvals S.approvalId = some record) (hpending : record.status = .pending)
    (hcorrelated : correlationId = (truthy (record.requester.get "correlation_id")).getD other)
    (hx : x.correlationId = other) :
    advance S x d ⟨request, .start⟩ = (d, ⟨request, match request with
      | .approve _ => .checked (withSnapshot S.env.policy record) correlationId
      | .reject reason =>
        .writing (withCorrelation { record with status := .rejected, error := reason }
          correlationId)⟩) := by
  subst hcorrelated hx
  cases request <;> simp [advance, decideRecord, hstored, hpending]

/-- A request to approve a pending approval that runs alone does what `approve` does. -/
theorem approve_alone {record : PendingApproval} (hstored : get w.disk.approvals id = some record)
    (hpending : record.status = .pending) (h : Permissive rt registry skill w record)
    (approverNote : Option String) :
    ∃ choices, alone ⟨rt, w.toSurroundings, skill, id⟩ (.approve approverNote) w.disk.toStores
        choices =
      ((approve rt id approverNote registry w).2.disk.toStores,
        ⟨.approve approverNote, .done (approve rt id approverNote registry w).1⟩) := by
  have hpassed : Passed rt w id record := ⟨hstored, hpending, h.unsafe_off, h.unexpired, h.scopes⟩
  have hsame : ∀ {other}, get w.disk.approvals id = some other → other = record := fun hother =>
    Option.some.inj (hother.symm.trans hstored)
  have hcase := approve_cases rt approverNote registry id w
  rw [Effect.Ends] at hcase
  generalize approve rt id approverNote registry w = answer at hcase ⊢
  obtain ⟨r, w'⟩ := answer
  cases hcase with
  | declined e why quiet => exact absurd hpassed (why record)
  | duplicate found stored approved quiet =>
    cases hsame stored
    cases hpending.symm.trans approved
  | closed found record' e stored pending same status why became =>
    cases hsame stored
    exact absurd hpassed why
  | aborted found e correlationId passed admitted why became =>
    cases hsame passed.stored
    exact absurd h.cleared (why skill)
  | skipped found correlationId passed correlated refused became =>
    cases hsame passed.stored
    obtain ⟨other, hcorrelated⟩ := correlated
    refine ⟨List.replicate 3 ⟨w.now, other, .returned ""⟩, ?_⟩
    have hfirst := pending_choice ⟨rt, w.toSurroundings, skill, id⟩ (.approve approverNote)
      ⟨w.now, other, .returned ""⟩ hstored hpending hcorrelated rfl
    have hrefused : ExecutionLedger.refused w.disk.ledger
        (executionKey rt (withSnapshot w.policy record)) = true := refused
    simp only [alone, List.replicate, List.foldl, hfirst]
    have hstores : w'.disk.toStores = _ := became.stores
    simp [advance, hrefused, hstores]
  | executed found correlationId result w₁ w₂ passed correlated admitted started ran finished =>
    cases hsame passed.stored
    obtain ⟨other, hcorrelated⟩ := correlated
    cases ran with
    | described unnamed quiet =>
      obtain ⟨name, hname, _⟩ := h.cleared.named
      cases unnamed.symm.trans hname
    | denied error why quiet =>
      have hcleared : Cleared w₁ registry record.step skill :=
        ⟨h.cleared.named, congrArg Surroundings.policy started.surroundings ▸ h.cleared.scopes⟩
      have hsafe := congrArg Surroundings.safeMode started.surroundings
      rw [(why skill hcleared).2, h.unsafe_off] at hsafe
      cases hsafe
    | proposed found rationale new unforced cleared created => cases unforced
    | ran found outcome cleared write wrote =>
      have hskill : found = skill := by
        obtain ⟨name, hname, hget⟩ := cleared.named
        obtain ⟨name', hname', hget'⟩ := h.cleared.named
        cases hname.symm.trans hname'
        exact Except.ok.inj (hget.symm.trans hget')
      subst hskill
      refine ⟨List.replicate 5 ⟨w.now, other, outcome⟩, ?_⟩
      have hfirst := pending_choice ⟨rt, w.toSurroundings, found, id⟩ (.approve approverNote)
        ⟨w.now, other, outcome⟩ hstored hpending hcorrelated rfl
      have hadmitted : refused w.disk.ledger
          (executionKey rt (withSnapshot w.policy record)) = false := admitted
      simp only [alone, List.replicate, List.foldl, hfirst]
      have hstores : w'.disk.toStores = _ := finished.stores
      simp only [advance, hadmitted, Bool.false_eq_true, if_false, hstores, wrote.stores,
        started.stores]
      rfl

theorem reject_alone {record : PendingApproval} (hstored : get w.disk.approvals id = some record)
    (hpending : record.status = .pending) (hunexpired : isExpired rt w.now record = .ok false)
    (reason : Option String) :
    ∃ choices, alone ⟨rt, w.toSurroundings, skill, id⟩ (.reject reason) w.disk.toStores choices =
      ((reject rt id reason w).2.disk.toStores,
        ⟨.reject reason, .done (reject rt id reason w).1⟩) := by
  have hsame : ∀ {other}, get w.disk.approvals id = some other → other = record := fun hother =>
    Option.some.inj (hother.symm.trans hstored)
  have hcase := reject_cases rt id reason w
  rw [Effect.Ends] at hcase
  generalize reject rt id reason w = answer at hcase ⊢
  obtain ⟨r, w'⟩ := answer
  cases hcase with
  | declined e why quiet => exact absurd hunexpired (why record hstored hpending)
  | closed found record' e stored pending same due expired became =>
    cases hsame stored
    cases hunexpired.symm.trans due
  | rejected found correlationId stored pending correlated unexpired became =>
    cases hsame stored
    obtain ⟨other, hcorrelated⟩ := correlated
    refine ⟨List.replicate 2 ⟨w.now, other, .returned ""⟩, ?_⟩
    have hfirst := pending_choice ⟨rt, w.toSurroundings, skill, id⟩ (.reject reason)
      ⟨w.now, other, .returned ""⟩ hstored hpending hcorrelated rfl
    simp only [alone, List.replicate, List.foldl, hfirst]
    have hstores : w'.disk.toStores = _ := became.stores
    simp [advance, hstores]

end Alone

def RunFor (id : String) : Event → Bool
  | .skillRun _ _ requester _ => requester.get "approval_id" = some id
  | _ => false

def SuccessFor (id : String) (result : StepResult) : Event → Prop
  | .skillRun _ step requester (.returned content) =>
    requester.get "approval_id" = some id ∧ result = ranResult step (.returned content)
  | _ => False

def Succeeded (id : String) : Event → Bool
  | .skillRun _ _ requester (.returned _) => requester.get "approval_id" = some id
  | _ => false

def runs (id : String) (d : Stores) : Nat := d.events.countP (RunFor id)

def successes (id : String) (d : Stores) : Nat := d.events.countP (Succeeded id)

/-- The record is approved and its result is that of a run that succeeded. -/
def Brings (id : String) (d : Stores) (record : PendingApproval) : Prop :=
  record.status = .approved ∧
    ∃ result, record.result = some result ∧ ∃ e ∈ d.events, SuccessFor id result e

/-- The stored record is approved with the result of the run that succeeded. -/
def Holds (id : String) (d : Stores) : Prop :=
  ∃ record, get d.approvals id = some record ∧ Brings id d record

def status (key : String) (d : Stores) : Option LedgerStatus :=
  (latestRecord d.ledger key).map LedgerRecord.status

/-- What a request would have to check again right before it acts. An execution starts
only while the stored record is not rejected and, when it is gone, after an earlier
execution; a rejection is written only while no execution has started; an approval
does not write over the result of the run that succeeded. -/
def Rechecked (S : Setting) (key : String) (d : Stores) (l : Client) : Prop :=
  match l.pc with
  | .checked _ _ => match get d.approvals S.approvalId with
    | some record => record.status ≠ .rejected
    | none => status key d ≠ none
  | .writing record => match l.request with
    | .reject _ => status key d = none
    | .approve _ => Holds S.approvalId d → Brings S.approvalId d record
  | _ => True

structure Undecided {ι : Type*} (S : Setting) (record : PendingApproval)
    (c : Interleaving.Config ι Stores Client) : Prop where
  stored : get c.shared.approvals S.approvalId = some record
  pending : record.status = .pending
  unstarted : status (executionKey S.rt record) c.shared = none
  unrun : runs S.approvalId c.shared = 0
  clients : ∀ i, (c.proc i).pc = .start

theorem refused_of_status {key : String} {d : Stores}
    (h : status key d = some .started ∨ status key d = some .succeeded) :
    refused d.ledger key = true := by
  rw [status] at h
  cases hl : latestRecord d.ledger key with
  | none => simp [hl] at h
  | some l => exact refused_iff.mpr ⟨l, hl, by simpa [hl] using h⟩

theorem status_ne_none_of_refused {key : String} {d : Stores}
    (h : refused d.ledger key = true) : status key d ≠ none := by
  obtain ⟨l, hl, _⟩ := refused_iff.mp h
  simp [status, hl]

theorem status_startedExecution {rt : Runtime} (env : Surroundings) {record : PendingApproval}
    (correlationId : String) {d : Stores}
    (h : refused d.ledger (executionKey rt record) = false) :
    status (executionKey rt record) (startedExecution rt env record correlationId d) =
      some .started := by
  simp only [status, startedExecution, startKey, latestRecord_tryStart_self h, Option.map_some]
  rfl

theorem status_markedExecution (env : Surroundings) (key : String) (result : StepResult)
    (d : Stores) :
    status key (markedExecution env key result d) =
      some (if result.ok then .succeeded else .failed) := by
  rw [markedExecution]
  split <;> simp [status, markKey, latestRecord_mark_self]

theorem successes_log {id : String} (d : Stores) (e : Event) :
    successes id (d.log e) = successes id d + if Succeeded id e then 1 else 0 := by
  simp [successes, Stores.log, List.countP_append, List.countP_cons]

theorem successes_le_runs (id : String) (d : Stores) : successes id d ≤ runs id d := by
  apply List.countP_mono_left
  intro e _ he
  cases e with
  | skillRun skill step requester outcome =>
    cases outcome with
    | returned content => exact he
    | raised e => cases he
  | approvalCreated origin record => cases he
  | notified title body ruleId correlationId failure => cases he

def SameApproval (record record₀ : PendingApproval) : Prop :=
  record.id = record₀.id ∧ record.step = record₀.step

theorem executionKey_same (rt : Runtime) {record record₀ : PendingApproval}
    (h : SameApproval record record₀) : executionKey rt record = executionKey rt record₀ := by
  rw [executionKey, executionKey, h.1, h.2]

def Executing (l : Client) : Prop :=
  match l.pc with
  | .running _ _ | .marking _ _ _ => True
  | _ => False

def Carried (record₀ : PendingApproval) (l : Client) : Prop :=
  match l.pc with
  | .checked record _ | .running record _ | .marking record _ _ | .writing record =>
    SameApproval record record₀
  | _ => True

/-- Where an executing request stands with the count of successes. -/
def Counted (id : String) (d : Stores) (l : Client) : Prop :=
  match l.pc with
  | .running _ _ => successes id d = 0
  | .marking _ _ result => (0 < successes id d → result.ok = true) ∧
    (result.ok = true → ∃ e ∈ d.events, SuccessFor id result e)
  | _ => True

structure Tally (id key : String) (d : Stores) : Prop where
  single : successes id d ≤ 1
  recorded : 0 < successes id d → status key d = some .started ∨ status key d = some .succeeded
  unstarted : status key d = none → runs id d = 0

def exclusive (S : Setting) (record₀ : PendingApproval) :
    Interleaving.Assertion Stores Client where
  shared d := Tally S.approvalId (executionKey S.rt record₀) d ∧
    ∀ record, get d.approvals S.approvalId = some record → SameApproval record record₀
  local_ d l := Carried record₀ l ∧
    (Executing l → status (executionKey S.rt record₀) d = some .started) ∧
    Counted S.approvalId d l
  pair _ l m := ¬ (Executing l ∧ Executing m)

/-- A step leaves the ledger and the events alone and its request idle, or it starts an
execution that the ledger admits, or the request is executing. -/
theorem advance_view (S : Setting) (x : Choice) (d : Stores) (l : Client) :
    ((advance S x d l).1.ledger = d.ledger ∧ (advance S x d l).1.events = d.events ∧
        ¬ Executing (advance S x d l).2) ∨
      (∃ record correlationId, l.pc = .checked record correlationId ∧
        refused d.ledger (executionKey S.rt record) = false ∧
        (advance S x d l).1.events = d.events) ∨
      Executing l := by
  obtain ⟨request, pc⟩ := l
  cases pc with
  | start =>
    left
    refine ⟨rfl, rfl, ?_⟩
    simp only [advance, decideRecord, Executing]
    cases get d.approvals S.approvalId with
    | none => exact id
    | some record => cases request <;> cases hs : record.status <;> simp [hs]
  | checked record correlationId =>
    cases h : refused d.ledger (executionKey S.rt record) with
    | true => left; simp [advance, h, Executing]
    | false =>
      right; left
      exact ⟨record, correlationId, rfl, h, by simp [advance, h, startedExecution, startKey]⟩
  | running record correlationId => right; right; trivial
  | marking record correlationId result => right; right; trivial
  | writing record => left; exact ⟨rfl, rfl, id⟩
  | done answer => left; exact ⟨rfl, rfl, id⟩

section Exclusive

variable {S : Setting} {record₀ : PendingApproval}

theorem decideRecord_carried (x : Choice) (request : Request) {stored : Option PendingApproval}
    (h : ∀ record, stored = some record → SameApproval record record₀) :
    Carried record₀ ⟨request, decideRecord S x request stored⟩ := by
  cases stored with
  | none => trivial
  | some record =>
    have hsame : record.id = record₀.id ∧ record.step = record₀.step := h record rfl
    cases request <;> cases hs : record.status <;>
      simp [decideRecord, Carried, SameApproval, withSnapshot, withCorrelation, hs, hsame]

theorem decideRecord_idle (x : Choice) (request : Request) (stored : Option PendingApproval) :
    ¬ Executing ⟨request, decideRecord S x request stored⟩ ∧
      ∀ id d, Counted id d ⟨request, decideRecord S x request stored⟩ := by
  cases stored with
  | none => exact ⟨id, fun _ _ => trivial⟩
  | some record =>
    cases request <;> cases hs : record.status <;> simp [decideRecord, Counted, Executing, hs]

theorem run_recorded {id : String} (skill : Skill) (step : PlanStep) {requester : Requester}
    (hid : requester.get "approval_id" = some id) (outcome : SkillOutcome) :
    (Succeeded id (.skillRun skill step requester outcome) = true ↔
        (ranResult step outcome).ok = true) ∧
      ((ranResult step outcome).ok = true →
        SuccessFor id (ranResult step outcome) (.skillRun skill step requester outcome)) := by
  cases outcome with
  | returned content => simp [Succeeded, SuccessFor, ranResult, hid]
  | raised e => simp [Succeeded, ranResult, failedStep]

theorem runs_started {id key : String} {d : Stores} (h : status key d = some .started) :
    status key d = none → runs id d = 0 := by
  intro hnone
  rw [h] at hnone
  cases hnone

theorem exclusive_starts {x : Choice} {d : Stores} {request : Request} {record : PendingApproval}
    {correlationId : String} (hs : (exclusive S record₀).shared d)
    (hsame : SameApproval record record₀)
    (hadmitted : refused d.ledger (executionKey S.rt record) = false) :
    (exclusive S record₀).shared
        (startedExecution S.rt { S.env with now := x.now } record correlationId d) ∧
      (exclusive S record₀).local_
        (startedExecution S.rt { S.env with now := x.now } record correlationId d)
        ⟨request, .running record correlationId⟩ := by
  obtain ⟨htally, hstored⟩ := hs
  have hstarted := status_startedExecution { S.env with now := x.now } correlationId hadmitted
  rw [executionKey_same S.rt hsame] at hstarted
  have hzero : successes S.approvalId d = 0 := by
    by_contra hpos
    have hrefused := refused_of_status (htally.recorded (by omega))
    rw [← executionKey_same S.rt hsame, hadmitted] at hrefused
    cases hrefused
  exact ⟨⟨⟨htally.single, fun _ => Or.inl hstarted, runs_started hstarted⟩, hstored⟩, hsame,
    fun _ => hstarted, hzero⟩

theorem exclusive_runs {d : Stores} {request : Request} {record : PendingApproval}
    {correlationId : String} (hid : record₀.id = S.approvalId) (outcome : SkillOutcome)
    (hs : (exclusive S record₀).shared d)
    (hl : (exclusive S record₀).local_ d ⟨request, .running record correlationId⟩) :
    let ran := d.log (.skillRun S.skill record.step
      (executionRequester record (note request) correlationId) outcome)
    (exclusive S record₀).shared ran ∧
      (exclusive S record₀).local_ ran
        ⟨request, .marking record correlationId (ranResult record.step outcome)⟩ := by
  intro ran
  obtain ⟨htally, hstored⟩ := hs
  obtain ⟨hsame, hstatus, hzero⟩ := hl
  have hstarted : status (executionKey S.rt record₀) ran = some .started := hstatus trivial
  have hget : (executionRequester record (note request) correlationId).get "approval_id" =
      some S.approvalId := by
    rw [← hid, ← hsame.1]
    rfl
  obtain ⟨hcounts, hsuccess⟩ := run_recorded S.skill record.step hget outcome
  have hcount : successes S.approvalId ran = 0 + _ := hzero ▸ successes_log d _
  refine ⟨⟨⟨?_, fun _ => Or.inl hstarted, runs_started hstarted⟩, hstored⟩, hsame,
    fun _ => hstarted, ?_, ?_⟩
  · split at hcount <;> omega
  · intro hpos
    rw [hcount] at hpos
    split at hpos
    · rename_i hsucceeded
      exact hcounts.mp hsucceeded
    · omega
  · intro hok
    exact ⟨_, List.mem_append_right _ List.mem_cons_self, hsuccess hok⟩

theorem exclusive_marks {x : Choice} {d : Stores} {request : Request} {record : PendingApproval}
    {correlationId : String} {result : StepResult} (hs : (exclusive S record₀).shared d)
    (hl : (exclusive S record₀).local_ d ⟨request, .marking record correlationId result⟩) :
    let marked := markedExecution { S.env with now := x.now } (executionKey S.rt record) result d
    (exclusive S record₀).shared marked ∧
      (exclusive S record₀).local_ marked
        ⟨request, .writing (executedRecord record result correlationId)⟩ := by
  obtain ⟨htally, hstored⟩ := hs
  obtain ⟨hsame, -, hsuccess, -⟩ := hl
  rw [executionKey_same S.rt hsame]
  intro marked
  have hmarked : status (executionKey S.rt record₀) marked = _ := status_markedExecution ..
  have hframe : marked.events = d.events ∧ marked.approvals = d.approvals :=
    markedExecution_frame ..
  have hcount : successes S.approvalId marked = successes S.approvalId d := by
    rw [successes, hframe.1, successes]
  refine ⟨⟨⟨hcount ▸ htally.single, ?_, ?_⟩, ?_⟩, hsame, fun h => h.elim, trivial⟩
  · intro hpos
    rw [hcount] at hpos
    right
    rw [hmarked, hsuccess hpos, if_pos rfl]
  · intro hnone
    rw [hmarked] at hnone
    cases hnone
  · intro other hother
    exact hstored other (hframe.2 ▸ hother)

theorem exclusive_moves (hid : record₀.id = S.approvalId) (x : Choice) (d : Stores) (l : Client)
    (hs : (exclusive S record₀).shared d) (hl : (exclusive S record₀).local_ d l) :
    (exclusive S record₀).shared (advance S x d l).1 ∧
      (exclusive S record₀).local_ (advance S x d l).1 (advance S x d l).2 := by
  obtain ⟨request, pc⟩ := l
  cases pc with
  | start =>
    have hidle := decideRecord_idle x request (get d.approvals S.approvalId) (S := S)
    exact ⟨hs, decideRecord_carried x request hs.2, fun h => absurd h hidle.1, hidle.2 _ _⟩
  | checked record correlationId =>
    have hsame : SameApproval record record₀ := hl.1
    cases h : refused d.ledger (executionKey S.rt record) with
    | true =>
      simp only [advance, h, if_true]
      exact ⟨hs, hsame, fun h => h.elim, trivial⟩
    | false =>
      simp only [advance, h, Bool.false_eq_true, if_false]
      exact exclusive_starts hs hsame h
  | running record correlationId => exact exclusive_runs hid x.outcome hs hl
  | marking record correlationId result => exact exclusive_marks hs hl
  | writing record =>
    have hsame : SameApproval record record₀ := hl.1
    have hself := get_persisted_self S.env.autoclean record d
    rw [hsame.1, hid] at hself
    refine ⟨⟨⟨hs.1.single, hs.1.recorded, hs.1.unstarted⟩, ?_⟩, trivial, fun h => h.elim, trivial⟩
    intro other hother
    have heq := hself.symm.trans hother
    split at heq
    · cases heq
    · cases heq
      exact hsame
  | done answer => exact ⟨hs, hl⟩

/-- What an idle request relies on does not depend on the stores. -/
theorem exclusive_idle {d d' : Stores} {m : Client} (hm : (exclusive S record₀).local_ d m)
    (hidle : ¬ Executing m) : (exclusive S record₀).local_ d' m := by
  obtain ⟨hcarried, _, _⟩ := hm
  refine ⟨hcarried, fun h => absurd h hidle, ?_⟩
  obtain ⟨request, pc⟩ := m
  cases pc <;> first | trivial | exact absurd trivial hidle

theorem exclusive_same {d d' : Stores} {m : Client} (hledger : d'.ledger = d.ledger)
    (hevents : d'.events = d.events) (hm : (exclusive S record₀).local_ d m) :
    (exclusive S record₀).local_ d' m := by
  have hstatus : ∀ key, status key d' = status key d := fun key => by
    rw [status, hledger, status]
  have hcount : successes S.approvalId d' = successes S.approvalId d := by
    rw [successes, hevents, successes]
  obtain ⟨hcarried, hstarted, hcounted⟩ := hm
  refine ⟨hcarried, fun h => (hstatus _).trans (hstarted h), ?_⟩
  obtain ⟨request, pc⟩ := m
  cases pc with
  | running record correlationId => exact hcount.trans hcounted
  | marking record correlationId result =>
    rw [Counted] at hcounted ⊢
    rw [hcount, hevents]
    exact hcounted
  | _ => trivial

theorem exclusive_keeps (hid : record₀.id = S.approvalId) (x : Choice) (d : Stores) (l m : Client)
    (hs : (exclusive S record₀).shared d) (hl : (exclusive S record₀).local_ d l)
    (hm : (exclusive S record₀).local_ d m) (hlm : ¬ (Executing l ∧ Executing m)) :
    (exclusive S record₀).local_ (advance S x d l).1 m ∧
      ¬ (Executing (advance S x d l).2 ∧ Executing m) := by
  have hmoved := exclusive_moves hid x d l hs hl
  rcases advance_view S x d l with ⟨hledger, hevents, hidle⟩ | hstart | hexecuting
  · exact ⟨exclusive_same hledger hevents hm, fun h => hidle h.1⟩
  · obtain ⟨record, correlationId, hpc, hadmitted, _⟩ := hstart
    have hidle : ¬ Executing m := by
      intro h
      have hsame : SameApproval record record₀ := by
        have hcarried := hl.1
        rw [Carried, hpc] at hcarried
        exact hcarried
      have hrefused := refused_of_status (Or.inl (hm.2.1 h))
      rw [← executionKey_same S.rt hsame, hadmitted] at hrefused
      cases hrefused
    exact ⟨exclusive_idle hm hidle, fun h => hidle h.2⟩
  · have hidle : ¬ Executing m := fun h => hlm ⟨hexecuting, h⟩
    exact ⟨exclusive_idle hm hidle, fun h => hidle h.2⟩

theorem exclusive_free (hid : record₀.id = S.approvalId) :
    Interleaving.InterferenceFree (advance S) (fun _ _ _ => True) (exclusive S record₀) where
  moves x d l _ hs hl := exclusive_moves hid x d l hs hl
  keeps x d l m _ hs hl hm hlm _ := by
    have h := exclusive_keeps hid x d l m hs hl hm hlm
    exact ⟨h.1, h.2, fun hml => h.2 hml.symm⟩
  spares _ _ _ _ _ _ _ _ _ _ _ _ _ _ hmk := hmk

def Closed (S : Setting) (key : String) (d : Stores) : Prop :=
  status key d = none ∧ ∀ record, get d.approvals S.approvalId = some record →
    record.status = .rejected

/-- How far a request can have come, and what the stores show for it. -/
def Role (S : Setting) (key : String) (d : Stores) (l : Client) : Prop :=
  match l.request, l.pc with
  | .approve _, .writing _ => status key d ≠ none
  | .reject _, .checked _ _ | .reject _, .running _ _ | .reject _, .marking _ _ _ => False
  | .reject _, .writing record => record.status = .rejected
  | .reject _, .done (.ok record) => record.status = .rejected ∧ Closed S key d
  | _, _ => True

def guarded (S : Setting) (record₀ : PendingApproval) : Interleaving.Assertion Stores Client :=
  { exclusive S record₀ with
    local_ := fun d l => (exclusive S record₀).local_ d l ∧ Role S (executionKey S.rt record₀) d l }

theorem started_stays {x : Choice} {d : Stores} {l : Client}
    (hl : (exclusive S record₀).local_ d l) (hs : status (executionKey S.rt record₀) d ≠ none) :
    status (executionKey S.rt record₀) (advance S x d l).1 ≠ none := by
  obtain ⟨request, pc⟩ := l
  cases pc with
  | checked record correlationId =>
    have hsame : SameApproval record record₀ := hl.1
    rw [← executionKey_same S.rt hsame] at hs ⊢
    cases h : refused d.ledger (executionKey S.rt record) with
    | true =>
      simp only [advance, h, if_true]
      exact hs
    | false =>
      simp only [advance, h, Bool.false_eq_true, if_false]
      rw [status_startedExecution _ _ h]
      exact Option.some_ne_none _
  | marking record correlationId result =>
    have hsame : SameApproval record record₀ := hl.1
    rw [← executionKey_same S.rt hsame]
    simp only [advance]
    rw [status_markedExecution]
    exact Option.some_ne_none _
  | _ => exact hs

theorem closed_persisted (hid : record₀.id = S.approvalId) {d : Stores} {record : PendingApproval}
    (hsame : SameApproval record record₀) (hrejected : record.status = .rejected)
    (hnone : status (executionKey S.rt record₀) d = none) :
    Closed S (executionKey S.rt record₀) (persisted S.env.autoclean record d) := by
  refine ⟨hnone, ?_⟩
  intro other hother
  have hself := get_persisted_self S.env.autoclean record d
  rw [hsame.1, hid, hother] at hself
  split at hself
  · cases hself
  · cases hself
    exact hrejected

theorem closed_stays (hid : record₀.id = S.approvalId) {x : Choice} {d : Stores} {l : Client}
    (hl : (guarded S record₀).local_ d l)
    (hchecked : Rechecked S (executionKey S.rt record₀) d l)
    (hc : Closed S (executionKey S.rt record₀) d) :
    Closed S (executionKey S.rt record₀) (advance S x d l).1 := by
  obtain ⟨⟨hcarried, hexecuting, _⟩, hrole⟩ := hl
  obtain ⟨request, pc⟩ := l
  cases pc with
  | start => exact hc
  | checked record correlationId =>
    rw [Rechecked] at hchecked
    dsimp only at hchecked
    split at hchecked
    · rename_i stored hstored
      exact absurd (hc.2 stored hstored) hchecked
    · exact absurd hc.1 hchecked
  | running record correlationId => cases hc.1.symm.trans (hexecuting trivial)
  | marking record correlationId result => cases hc.1.symm.trans (hexecuting trivial)
  | writing record =>
    cases request with
    | approve approverNote => exact absurd hc.1 hrole
    | reject reason => exact closed_persisted hid hcarried hrole hc.1
  | done answer => exact hc

theorem role_moves (hid : record₀.id = S.approvalId) (x : Choice) {d : Stores} {l : Client}
    (hl : (guarded S record₀).local_ d l)
    (hchecked : Rechecked S (executionKey S.rt record₀) d l) :
    Role S (executionKey S.rt record₀) (advance S x d l).1 (advance S x d l).2 := by
  obtain ⟨⟨hcarried, _, _⟩, hrole⟩ := hl
  obtain ⟨request, pc⟩ := l
  cases pc with
  | start =>
    simp only [advance]
    cases hstored : get d.approvals S.approvalId with
    | none => cases request <;> trivial
    | some record =>
      cases request <;> cases hs : record.status <;>
        simp [decideRecord, Role, withCorrelation, hs]
  | checked record correlationId =>
    cases request with
    | reject reason => exact hrole.elim
    | approve approverNote =>
      have hsame : SameApproval record record₀ := hcarried
      rw [← executionKey_same S.rt hsame]
      cases h : refused d.ledger (executionKey S.rt record) with
      | true =>
        simp only [advance, h, if_true]
        exact status_ne_none_of_refused h
      | false =>
        simp only [advance, h, Bool.false_eq_true, if_false]
        trivial
  | running record correlationId =>
    cases request with
    | reject reason => exact hrole.elim
    | approve approverNote => trivial
  | marking record correlationId result =>
    cases request with
    | reject reason => exact hrole.elim
    | approve approverNote =>
      have hsame : SameApproval record record₀ := hcarried
      rw [← executionKey_same S.rt hsame]
      have hmarked : status (executionKey S.rt record) _ = _ :=
        status_markedExecution { S.env with now := x.now } _ result d
      exact fun hnone => Option.some_ne_none _ (hmarked.symm.trans hnone)
  | writing record =>
    cases request with
    | approve approverNote => trivial
    | reject reason => exact ⟨hrole, closed_persisted hid hcarried hrole hchecked⟩
  | done answer => exact hrole

theorem role_keeps (hid : record₀.id = S.approvalId) {x : Choice} {d : Stores} {l m : Client}
    (hl : (guarded S record₀).local_ d l)
    (hchecked : Rechecked S (executionKey S.rt record₀) d l)
    (hm : Role S (executionKey S.rt record₀) d m) :
    Role S (executionKey S.rt record₀) (advance S x d l).1 m := by
  obtain ⟨request, pc⟩ := m
  rw [Role] at hm ⊢
  split at hm
  · exact started_stays hl.1 hm
  · exact hm
  · exact hm
  · exact hm
  · exact hm
  · exact ⟨hm.1, closed_stays hid hl hchecked hm.2⟩
  · trivial

theorem guarded_free (hid : record₀.id = S.approvalId) :
    Interleaving.InterferenceFree (advance S)
      (fun _ d l => Rechecked S (executionKey S.rt record₀) d l) (guarded S record₀) where
  moves x d l hchecked hs hl := by
    have h := exclusive_moves hid x d l hs hl.1
    exact ⟨h.1, h.2, role_moves hid x hl hchecked⟩
  keeps x d l m hchecked hs hl hm hlm _ := by
    have h := exclusive_keeps hid x d l m hs hl.1 hm.1 hlm
    exact ⟨⟨h.1, role_keeps hid hl hchecked hm.2⟩, h.2, fun hml => h.2 hml.symm⟩
  spares _ _ _ _ _ _ _ _ _ _ _ _ _ _ hmk := hmk

def Delivering (id : String) (d : Stores) (l : Client) : Prop :=
  match l.pc with
  | .marking _ _ result => ∃ e ∈ d.events, SuccessFor id result e
  | .writing record => Brings id d record
  | _ => False

def Delivered {ι : Type*} (S : Setting) (c : Interleaving.Config ι Stores Client) : Prop :=
  0 < successes S.approvalId c.shared →
    Holds S.approvalId c.shared ∨ ∃ i, Delivering S.approvalId c.shared (c.proc i)

theorem events_advance (x : Choice) (d : Stores) (l : Client) :
    d.events ⊆ (advance S x d l).1.events := by
  obtain ⟨request, pc⟩ := l
  cases pc with
  | checked record correlationId =>
    cases h : refused d.ledger (executionKey S.rt record) <;>
      simp [advance, h, startedExecution, startKey]
  | running record correlationId => exact List.subset_append_left _ _
  | marking record correlationId result =>
    have hframe := markedExecution_frame { S.env with now := x.now } (executionKey S.rt record)
      result d
    exact fun e he => hframe.1 ▸ he
  | _ => exact List.Subset.refl _

theorem Delivering.mono {id : String} {d d' : Stores} {m : Client} (h : Delivering id d m)
    (hevents : d.events ⊆ d'.events) : Delivering id d' m := by
  obtain ⟨request, pc⟩ := m
  cases pc with
  | marking record correlationId result =>
    obtain ⟨e, he, hsuccess⟩ := h
    exact ⟨e, hevents he, hsuccess⟩
  | writing record =>
    obtain ⟨happroved, result, hresult, e, he, hsuccess⟩ := h
    exact ⟨happroved, result, hresult, e, hevents he, hsuccess⟩
  | _ => exact h.elim

theorem delivers (hid : record₀.id = S.approvalId) (hkeep : S.env.autoclean = false) (x : Choice)
    {d : Stores} {l : Client} (hs : (guarded S record₀).shared d)
    (hl : (guarded S record₀).local_ d l)
    (hchecked : Rechecked S (executionKey S.rt record₀) d l)
    (hpos : 0 < successes S.approvalId (advance S x d l).1)
    (hbefore : 0 < successes S.approvalId d →
      Holds S.approvalId d ∨ Delivering S.approvalId d l) :
    Holds S.approvalId (advance S x d l).1 ∨
      Delivering S.approvalId (advance S x d l).1 (advance S x d l).2 := by
  obtain ⟨⟨hcarried, _, hcounted⟩, hrole⟩ := hl
  obtain ⟨request, pc⟩ := l
  cases pc with
  | start => exact (hbefore hpos).imp_right fun h => h.elim
  | checked record correlationId =>
    left
    cases h : refused d.ledger (executionKey S.rt record) with
    | true =>
      simp only [advance, h, if_true] at hpos ⊢
      exact (hbefore hpos).elim (fun hold => hold) fun hcase => hcase.elim
    | false =>
      simp only [advance, h, Bool.false_eq_true, if_false] at hpos ⊢
      exact (hbefore hpos).elim (fun hold => hold) fun hcase => hcase.elim
  | running record correlationId =>
    right
    have hget : (executionRequester record (note request) correlationId).get "approval_id" =
        some S.approvalId := by
      rw [← hid, ← hcarried.1]
      rfl
    obtain ⟨hcounts, hsuccess⟩ := run_recorded S.skill record.step hget x.outcome
    have hzero : successes S.approvalId d = 0 := hcounted
    simp only [advance] at hpos
    rw [successes_log, hzero] at hpos
    split at hpos
    · rename_i hsucceeded
      exact ⟨_, List.mem_append_right _ List.mem_cons_self, hsuccess (hcounts.mp hsucceeded)⟩
    · omega
  | marking record correlationId result =>
    obtain ⟨hevents, happrovals⟩ := markedExecution_frame { S.env with now := x.now }
      (executionKey S.rt record) result d
    simp only [advance] at hpos ⊢
    rw [successes, hevents] at hpos
    rcases hbefore hpos with ⟨stored, hstored, hbrings⟩ | ⟨e, he, hsuccess⟩
    · left
      refine ⟨stored, happrovals ▸ hstored, ?_⟩
      rw [Brings, hevents]
      exact hbrings
    · right
      exact ⟨rfl, result, rfl, e, hevents ▸ he, hsuccess⟩
  | writing record =>
    left
    cases request with
    | approve approverNote =>
      have hbrings : Brings S.approvalId d record := (hbefore hpos).elim hchecked id
      have hself := get_persisted_self S.env.autoclean record d
      rw [hcarried.1, hid, hkeep, if_neg (by simp)] at hself
      refine ⟨record, ?_, hbrings⟩
      simp only [advance, hkeep]
      exact hself
    | reject reason =>
      have hnone : status (executionKey S.rt record₀) d = none := hchecked
      rcases hs.1.recorded hpos with h | h <;> cases hnone.symm.trans h
  | done answer => exact (hbefore hpos).imp_right fun h => h.elim

theorem delivered_step {ι : Type*} [DecidableEq ι] (hid : record₀.id = S.approvalId)
    (hkeep : S.env.autoclean = false) {c : Interleaving.Config ι Stores Client}
    {e : ι × Choice}
    (hchecked : Rechecked S (executionKey S.rt record₀) c.shared (c.proc e.1))
    (hg : (guarded S record₀).Holds c) (hc : Delivered S c) :
    Delivered S (Interleaving.step (advance S) c e) := by
  obtain ⟨i, x⟩ := e
  intro hpos
  have hmover := delivers hid hkeep x hg.1 (hg.2.1 i) hchecked hpos
  by_cases hbefore : 0 < successes S.approvalId c.shared →
      Holds S.approvalId c.shared ∨ Delivering S.approvalId c.shared (c.proc i)
  · refine (hmover hbefore).imp_right fun h => ⟨i, ?_⟩
    rw [Interleaving.step_self]
    exact h
  · push Not at hbefore
    obtain ⟨hcount, hunheld, hother⟩ := hbefore
    obtain ⟨j, hj⟩ := (hc hcount).resolve_left hunheld
    have hne : j ≠ i := by
      rintro rfl
      exact hother hj
    right
    refine ⟨j, ?_⟩
    rw [Interleaving.step_other _ _ hne]
    exact hj.mono (events_advance x c.shared (c.proc i))

theorem guarded_initially {ι : Type*} {c : Interleaving.Config ι Stores Client}
    (hc : Undecided S record₀ c) : (guarded S record₀).Holds c := by
  have hzero : successes S.approvalId c.shared = 0 := by
    have hle := successes_le_runs S.approvalId c.shared
    have hunrun := hc.unrun
    omega
  refine ⟨⟨⟨by omega, fun h => by omega, fun _ => hc.unrun⟩, ?_⟩, ?_, ?_⟩
  · intro record hrecord
    cases hc.stored.symm.trans hrecord
    exact ⟨rfl, rfl⟩
  · intro i
    have hstart := hc.clients i
    refine ⟨⟨?_, ?_, ?_⟩, ?_⟩
    · simp only [Carried, hstart]
    · simp only [Executing, hstart]
      exact fun h => h.elim
    · simp only [Counted, hstart]
    · rw [Role, hstart]
      cases (c.proc i).request <;> trivial
  · intro i j _ h
    simp only [Executing, hc.clients] at h
    exact h.1

end Exclusive

/-- Under every interleaving at most one run succeeds. Where each request checks again
before it acts, a rejection that was answered leaves the skill without a run, and the
result of the run that succeeded is the one that stays. -/
theorem concurrent_decisions {ι : Type*} [DecidableEq ι] (S : Setting) (record : PendingApproval)
    (c : Interleaving.Config ι Stores Client) (hc : Undecided S record c)
    (schedule : List (ι × Choice)) :
    let final := Interleaving.run (advance S) c schedule
    successes S.approvalId final.shared ≤ 1 ∧
      ((∀ t ∈ Interleaving.steps (advance S) c schedule,
          Rechecked S (executionKey S.rt record) t.before.shared (t.before.proc t.op.1)) →
        (∀ i reason answer, (final.proc i).request = .reject reason →
          (final.proc i).pc = .done (.ok answer) → runs S.approvalId final.shared = 0) ∧
        (S.env.autoclean = false → (∀ i, ∃ answer, (final.proc i).pc = .done answer) →
          0 < successes S.approvalId final.shared → Holds S.approvalId final.shared)) := by
  intro final
  have hid : record.id = S.approvalId := KeyedList.get_key hc.stored
  have hinit := guarded_initially hc
  have hexclusive : (exclusive S record).Holds final :=
    (exclusive_free hid).run (fun _ _ => trivial)
      ⟨hinit.1, fun i => (hinit.2.1 i).1, hinit.2.2⟩
  refine ⟨hexclusive.1.1.single, fun hchecked => ?_⟩
  have hguarded : (guarded S record).Holds final := (guarded_free hid).run hchecked hinit
  refine ⟨?_, ?_⟩
  · intro i reason answer hrequest hdone
    have hrole := (hguarded.2.1 i).2
    rw [Role, hrequest, hdone] at hrole
    exact hguarded.1.1.unstarted hrole.2.1
  · intro hkeep hall hpos
    have hdelivered : Delivered S c := by
      intro hpos
      have hle := successes_le_runs S.approvalId c.shared
      have hunrun := hc.unrun
      omega
    have hfinal : Delivered S final := (guarded_free hid).run_with
      (fun _ _ he hg hd => delivered_step hid hkeep he hg hd) hchecked hinit hdelivered
    refine (hfinal hpos).resolve_right ?_
    rintro ⟨i, hi⟩
    obtain ⟨answer, hdone⟩ := hall i
    rw [Delivering, hdone] at hi
    exact hi

def keepDecided : Surroundings := { exampleSurroundings with autoclean := false }

def requested : World :=
  (createPending (exampleRuntime (fun _ => .returned "created") fun _ => none) .step reminderStep
    ⟨"remind me", none⟩ [("source", some "chat"), ("correlation_id", some "c")] "because"
    exampleRegistry none (freshWorld keepDecided)).2

def reminderRace : Setting :=
  ⟨exampleRuntime (fun _ => .returned "created") fun _ => none, keepDecided, reminderSkill, "0"⟩

/-- A request to reject (`true`) and a request to approve (`false`). -/
def bothRequests : Interleaving.Config Bool Stores Client :=
  ⟨requested.disk.toStores, fun rejects =>
    ⟨if rejects then .reject (some "no") else .approve none, .start⟩⟩

def returning : Choice := ⟨0, "c", .returned "created"⟩

theorem bothRequests_undecided :
    ∃ record, Undecided reminderRace record bothRequests :=
  ⟨_, rfl, rfl, rfl, rfl, fun _ => rfl⟩

theorem approved_before_rejection :
    let final := Interleaving.run (advance reminderRace) bothRequests
      (List.replicate 5 (false, returning) ++ [(true, returning)])
    Holds "0" final.shared := by
  obtain ⟨record, hundecided⟩ := bothRequests_undecided
  refine ((concurrent_decisions reminderRace record bothRequests hundecided _).2 ?_).2 rfl ?_ ?_
  · intro t ht
    rcases List.mem_cons.mp ht with rfl | ht
    · trivial
    rcases List.mem_cons.mp ht with rfl | ht
    · rintro ⟨⟩
    rcases List.mem_cons.mp ht with rfl | ht
    · trivial
    rcases List.mem_cons.mp ht with rfl | ht
    · trivial
    rcases List.mem_cons.mp ht with rfl | ht
    · rintro ⟨stored, hstored, happroved, _⟩
      cases hstored
      cases happroved
    rcases List.mem_cons.mp ht with rfl | ht
    · trivial
    cases ht
  · intro rejects
    cases rejects <;> exact ⟨_, rfl⟩
  · decide

/-- The request to reject reads the record before the request to approve does. -/
theorem late_rejection :
    let final := Interleaving.run (advance reminderRace) bothRequests
      ((true, returning) :: List.replicate 5 (false, returning) ++ [(true, returning)])
    (∃ record, Undecided reminderRace record bothRequests) ∧
      (∃ answer, (final.proc true).pc = .done (.ok answer) ∧ answer.status = .rejected) ∧
      (∀ rejects, ∃ answer, (final.proc rejects).pc = .done answer) ∧
      runs "0" final.shared = 1 ∧ successes "0" final.shared = 1 ∧ ¬ Holds "0" final.shared := by
  refine ⟨bothRequests_undecided, ⟨_, rfl, rfl⟩, ?_, by decide, by decide, ?_⟩
  · intro rejects
    cases rejects <;> exact ⟨_, rfl⟩
  · rintro ⟨record, hrecord, happroved, _⟩
    cases hrecord
    cases happroved

end ApprovalRace
