import Benjamin.BreakerManager
import Benjamin.RuleCandidates
import Benjamin.RulePreview
import Benjamin.RuleStore

/-!
# A preview with guarded connectors

`evaluate_rule_preview` as a program whose connectors run under the breaker manager. The
preview writes nothing itself; the manager saves its breakers and appends an infra
episode for every failure and whenever a breaker changes its state.
-/
namespace GuardedPreview

open PyBase PlanSchemas AssistantState CircuitBreaker BreakerManager RuleSchemas RuleMatching Effect
open RuleEngine (Engine isCooldownActive)

/-- What a preview can reach. A preview uses one connector, so one manager is enough. -/
structure Host where
  world : World
  rules : RuleStore.RulesFile
  rule : Rule
  manager : Manager
  breakers : File

abbrev Hosted := Prog PyError Host

/-- When the breaker is asked, how `fn` ends and when. -/
structure Call (α : Type) where
  askedAt : Int
  outcome : Except PyError α
  endedAt : Int

structure Connectors where
  email : Option (Call (List GmailMessage))
  calendar : Option (Call (List CalendarEvent))

/-- `_current_correlation_id`. -/
def currentCorrelationId (s : Surroundings) : Json := (truthy s.correlationId).elim .null .str

def appendInfra (summary : String) (metadata : Dict) : Hosted Unit :=
  Prog.zoom Host.world (fun h w => { h with world := w }) (appendEpisode "infra" summary metadata)

/-- `_record_transition`. -/
def recordTransition (service : String) (change : BreakerState × BreakerState) (reason : String)
    (now : Int) : Hosted Unit := do
  let correlationId ← Prog.read fun h : Host => currentCorrelationId h.world.toSurroundings
  appendInfra
    ("Circuit breaker " ++ service ++ " transitioned " ++ change.1.str ++ "->" ++ change.2.str)
    [("service", .str service), ("from_state", .str change.1.str),
      ("to_state", .str change.2.str), ("reason", .str reason), ("ts_iso", .str (isoformat now)),
      ("correlation_id", correlationId)]

/-- `_record_increment`. -/
def recordIncrement (service reason : String) (now : Int) : Hosted Unit := do
  let b ← Prog.read fun h : Host => h.manager.get service
  let correlationId ← Prog.read fun h : Host => currentCorrelationId h.world.toSurroundings
  appendInfra ("Breaker failure recorded for " ++ service)
    [("service", .str service), ("state", .str b.state.str), ("reason", .str reason),
      ("failure_count", .int b.failureCount), ("ts_iso", .str (isoformat now)),
      ("correlation_id", correlationId)]

def recordTransitionIfNeeded (service : String) (previous : BreakerState) (reason : String)
    (now : Int) : Hosted Unit := do
  let current ← Prog.read fun h : Host => (h.manager.get service).state
  if previous ≠ current then recordTransition service (previous, current) reason now else pure ()

/-- `_persist`. -/
def persist : Hosted Unit := Prog.update fun h => { h with breakers := h.manager.snapshot }

def allowRequest (service : String) (now : Int) : Hosted Bool := fun h =>
  match h.manager.ask service now with
  | .error e => (.error e, h)
  | .ok (allowed, m) => (.ok allowed, { h with manager := m })

def changeBreaker (service : String)
    (f : Breaker → Breaker × Option (BreakerState × BreakerState)) :
    Hosted (Option (BreakerState × BreakerState)) := fun h =>
  (.ok (f (h.manager.get service)).2,
    { h with manager := h.manager.put (f (h.manager.get service)).1 })

def recordFailed (service reason : String) (now : Int) (before : BreakerState) :
    Option (BreakerState × BreakerState) → Hosted Unit
  | some change => recordTransition service change reason now
  | none => do
    let current ← Prog.read fun h : Host => (h.manager.get service).state
    if before = current then recordIncrement service reason now else pure ()

def recordSucceeded (service : String) (now : Int) :
    Option (BreakerState × BreakerState) → Hosted Unit
  | some change => recordTransition service change "request succeeded" now
  | none => pure ()

/-- `wrap` from the call of `fn` on. -/
def runGuarded {α : Type} (service : String) (call : Call α) : Hosted α :=
  match call.outcome with
  | .error exc => do
    let before ← Prog.read fun h : Host => (h.manager.get service).state
    let transition ← changeBreaker service fun b => b.recordFailure exc.str call.endedAt
    persist
    recordFailed service exc.str call.endedAt before transition
    Prog.raise exc
  | .ok result => do
    let transition ← changeBreaker service Breaker.recordSuccess
    persist
    recordSucceeded service call.endedAt transition
    pure result

/-- `wrap`. -/
def wrap {α : Type} (service : String) (call : Call α) : Hosted α := do
  let enabled ← Prog.read fun h : Host => h.manager.enabled
  if !enabled then Prog.ofExcept call.outcome
  else do
    let previous ← Prog.read fun h : Host => (h.manager.get service).state
    let allowed ← allowRequest service call.askedAt
    if !allowed then do
      persist
      recordTransitionIfNeeded service previous "cooldown elapsed" call.askedAt
      let lastError ← Prog.read fun h : Host => (h.manager.get service).lastError
      Prog.raise (.serviceDegraded service lastError)
    else do
      recordTransitionIfNeeded service previous "cooldown elapsed" call.askedAt
      persist
      runGuarded service call

def loadTriggerItems (connectors : Connectors) : Hosted (List Item) := do
  let now ← Prog.read fun h : Host => h.world.now
  let trigger ← Prog.read fun h : Host => h.rule.trigger
  match trigger.type with
  | .schedule => pure [⟨"schedule:" ++ isoformat now, none, "scheduler tick heartbeat"⟩]
  | .gmail =>
    match connectors.email with
    | none => pure []
    | some call => do
      let messages ← wrap "gmail" call
      pure (messages.filterMap gmailItem)
  | .calendar =>
    match connectors.calendar with
    | none => pure []
    | some call => do
      let _ ← Prog.ofExcept (addHours now trigger.hoursAhead)
      let events ← wrap "calendar" call
      pure (events.filterMap calendarItem)

/-- What `compute_matches` does with the items that it has loaded. -/
def matchLoaded (rt : Runtime) (includeSeen : Bool) (trigger : List Item) : Hosted Matches := do
  let rule ← Prog.read Host.rule
  let candidates ← Prog.ofExcept
    (if includeSeen then .ok trigger else filterNewItems rt rule.state trigger)
  pure
    { trigger
      candidates
      matching := matchingItems rt rule.condition candidates
      notes := ["trigger_count=" ++ toString trigger.length,
          "candidate_count=" ++ toString candidates.length] ++
        if includeSeen then ["include_seen=true"] else [] }

/-- `compute_matches`; only what the loading raises is caught. -/
def computeMatches (rt : Runtime) (connectors : Connectors) (includeSeen : Bool) :
    Hosted Matches := fun h =>
  match loadTriggerItems connectors h with
  | (.error (.serviceDegraded service _), h') =>
    (.ok ⟨[], [], [], ["service_degraded:" ++ service]⟩, h')
  | (.error e, h') => (.error e, h')
  | (.ok trigger, h') => matchLoaded rt includeSeen trigger h'

/-- `evaluate_rule_preview`. -/
def evaluateRulePreview (rt : Runtime) (engine : Engine) (connectors : Connectors)
    (includeSeen : Bool) : Hosted RuleTestPreview := do
  let found ← computeMatches rt connectors includeSeen
  let rule ← Prog.read Host.rule
  let now ← Prog.read fun h : Host => h.world.now
  let safeMode ← Prog.read fun h : Host => h.world.safeMode
  let cooling ← Prog.ofExcept (isCooldownActive rt rule now)
  let (planned, notes) :=
    if cooling then ([], found.notes ++ ["blocked_by_cooldown"])
    else RulePreview.planActions engine safeMode found.matching (isoformat now) rule found.notes
  pure
    { ruleId := if rule.id = "draft" then none else some rule.id
      ruleName := some rule.name
      matched := decide (0 < found.matching.length)
      matchCount := found.matching.length
      candidateCount := found.candidates.length
      matchingItems := found.matching
      plannedActions := planned
      notes }

/-- Nothing has changed but the breakers, and the episodes by those appended. -/
structure Logged (more : List Episode) (h h' : Host) : Prop where
  rule : h'.rule = h.rule
  rules : h'.rules = h.rules
  surroundings : h'.world.toSurroundings = h.world.toSurroundings
  stores : h'.world.disk.toStores = h.world.disk.toStores
  episodes : h'.world.disk.episodes = h.world.disk.episodes ++ more

theorem Logged.refl (h : Host) : Logged [] h h := ⟨rfl, rfl, rfl, rfl, by simp⟩

theorem Logged.trans {more more' : List Episode} {h h₁ h₂ : Host} (hfirst : Logged more h h₁)
    (hthen : Logged more' h₁ h₂) : Logged (more ++ more') h h₂ := by
  refine ⟨hthen.rule.trans hfirst.rule, hthen.rules.trans hfirst.rules,
    hthen.surroundings.trans hfirst.surroundings, hthen.stores.trans hfirst.stores, ?_⟩
  rw [hthen.episodes, hfirst.episodes, List.append_assoc]

def SameBreakers (h h' : Host) : Prop := h'.manager = h.manager ∧ h'.breakers = h.breakers

theorem recordTransition_returns (service : String) (change : BreakerState × BreakerState)
    (reason : String) (now : Int) (h : Host) :
    Returns (recordTransition service change reason now) h fun _ h' =>
      (∃ e, Logged [e] h h') ∧ SameBreakers h h' :=
  ⟨_, _, rfl, ⟨_, rfl, rfl, rfl, rfl, rfl⟩, rfl, rfl⟩

theorem recordIncrement_returns (service reason : String) (now : Int) (h : Host) :
    Returns (recordIncrement service reason now) h fun _ h' =>
      (∃ e, Logged [e] h h') ∧ SameBreakers h h' :=
  ⟨_, _, rfl, ⟨_, rfl, rfl, rfl, rfl, rfl⟩, rfl, rfl⟩

theorem recordTransitionIfNeeded_returns (service : String) (previous : BreakerState)
    (reason : String) (now : Int) (h : Host) :
    Returns (recordTransitionIfNeeded service previous reason now) h fun _ h' =>
      (∃ more, Logged more h h' ∧ (more = [] ↔ previous = (h.manager.get service).state)) ∧
        SameBreakers h h' := by
  by_cases hsame : previous = (h.manager.get service).state
  · refine ⟨(), h, ?_, ⟨[], Logged.refl h, by simp [hsame]⟩, rfl, rfl⟩
    rw [recordTransitionIfNeeded, read_bind, if_neg (not_not.mpr hsame)]
    rfl
  · obtain ⟨u, h', hrun, ⟨e, hlogged⟩, hbreakers⟩ := recordTransition_returns service
      (previous, (h.manager.get service).state) reason now h
    refine ⟨u, h', ?_, ⟨[e], hlogged, by simp [hsame]⟩, hbreakers⟩
    rw [recordTransitionIfNeeded, read_bind, if_pos hsame, hrun]

theorem recordFailure_state {b : Breaker} {error : String} {now : Int}
    (h : (b.recordFailure error now).2 = none) : b.state = (b.recordFailure error now).1.state := by
  by_contra hchanged
  rw [Breaker.recordFailure] at h hchanged
  by_cases hhalf : b.state = .halfOpen
  · simp [hhalf, Breaker.transition] at h
  · simp only [if_neg hhalf] at h hchanged
    by_cases hfull : max 1 b.failureThreshold ≤ b.failureCount + 1
    · rw [if_pos hfull] at h hchanged
      simp only [Breaker.transition, Breaker.reopened] at h hchanged
      rw [if_pos hchanged] at h
      cases h
    · rw [if_neg hfull] at hchanged
      exact hchanged rfl

theorem recordSuccess_none_iff (b : Breaker) : b.recordSuccess.2 = none ↔ b.state = .closed := by
  rw [Breaker.recordSuccess, Breaker.transition]
  by_cases hclosed : b.state = .closed <;> simp [hclosed]

section Guarding

variable {α : Type} (service : String) (call : Call α) (h : Host)

def Host.saving (h : Host) (manager : Manager) : Host :=
  { h with manager, breakers := manager.snapshot }

theorem saving_logged (manager : Manager) : Logged [] h (h.saving manager) :=
  ⟨rfl, rfl, rfl, rfl, by simp [Host.saving]⟩

/-- Neither the request nor its outcome changes the state of the breaker, and no failure is
counted. -/
def Unrecorded (b : Breaker) (call : Call α) : Prop :=
  match b.state with
  | .closed => call.outcome.isOk = true
  | .open_ => b.elapsed call.askedAt ≠ .ok true
  | .halfOpen => max 1 b.halfOpenMaxTrials ≤ b.halfOpenTrialsUsed

/-- What `wrap` does from the call of `fn` on. -/
structure Ran (service : String) (call : Call α) (h : Host) (r : Except PyError α) (h' : Host) :
    Prop where
  result : r = call.outcome
  manager : h'.manager = h.manager.conclude service (call.outcome.map fun _ => ()) call.endedAt
  breakers : h'.breakers = h'.manager.snapshot
  logged : ∃ more, Logged more h h' ∧
    (more = [] ↔ (h.manager.get service).state = .closed ∧ call.outcome.isOk = true)

theorem change_ends {f : Breaker → Breaker × Option (BreakerState × BreakerState)} {β : Type}
    {next : Option (BreakerState × BreakerState) → Hosted β} {Q : Except PyError β → Host → Prop}
    (hnext : Ends (next (f (h.manager.get service)).2)
      (h.saving (h.manager.put (f (h.manager.get service)).1)) Q) :
    Ends (do
      let transition ← changeBreaker service f
      persist
      next transition) h Q :=
  hnext

theorem runGuarded_failed {exc : PyError} (houtcome : call.outcome = .error exc) :
    Ends (runGuarded service call) h (Ran service call h) := by
  have hget : (h.manager.conclude service (.error exc) call.endedAt).get service =
      ((h.manager.get service).recordFailure exc.str call.endedAt).1 :=
    get_put_self _ ((recordFailure_service ..).trans (get_service ..))
  have hepisode : Returns (recordFailed service exc.str call.endedAt (h.manager.get service).state
        ((h.manager.get service).recordFailure exc.str call.endedAt).2)
      (h.saving (h.manager.conclude service (.error exc) call.endedAt)) fun _ h' =>
        (∃ e, Logged [e] (h.saving (h.manager.conclude service (.error exc) call.endedAt)) h') ∧
          SameBreakers (h.saving (h.manager.conclude service (.error exc) call.endedAt)) h' := by
    cases hchange : ((h.manager.get service).recordFailure exc.str call.endedAt).2 with
    | some change => exact recordTransition_returns ..
    | none =>
      have hsame := recordFailure_state hchange
      rw [← hget] at hsame
      obtain ⟨u, h', hrun, hlogged⟩ := recordIncrement_returns service exc.str call.endedAt
        (h.saving (h.manager.conclude service (.error exc) call.endedAt))
      refine ⟨u, h', ?_, hlogged⟩
      rw [recordFailed, read_bind]
      exact (congrFun (if_pos hsame) _).trans hrun
  simp only [runGuarded, houtcome]
  refine Ends.read (change_ends service h ?_)
  refine Returns.bind hepisode ?_
  rintro _ h' ⟨⟨e, hlogged⟩, hmanager, hbreakers⟩
  refine ⟨houtcome.symm, ?_, ?_, [e], (saving_logged h _).trans hlogged, ?_⟩
  · rw [raise_apply, hmanager, houtcome]
    rfl
  · rw [raise_apply, hbreakers, hmanager]
    rfl
  · simp [houtcome, Except.isOk, Except.toBool]

theorem runGuarded_succeeded {result : α} (houtcome : call.outcome = .ok result) :
    Ends (runGuarded service call) h (Ran service call h) := by
  have hepisode : Returns (recordSucceeded service call.endedAt
        (h.manager.get service).recordSuccess.2)
      (h.saving (h.manager.conclude service (.ok ()) call.endedAt)) fun _ h' =>
        (∃ more, Logged more (h.saving (h.manager.conclude service (.ok ()) call.endedAt)) h' ∧
          (more = [] ↔ (h.manager.get service).recordSuccess.2 = none)) ∧
          SameBreakers (h.saving (h.manager.conclude service (.ok ()) call.endedAt)) h' := by
    cases (h.manager.get service).recordSuccess.2 with
    | some change =>
      obtain ⟨u, h', hrun, ⟨e, hlogged⟩, hbreakers⟩ := recordTransition_returns service change
        "request succeeded" call.endedAt
        (h.saving (h.manager.conclude service (.ok ()) call.endedAt))
      exact ⟨u, h', hrun, ⟨[e], hlogged, by simp⟩, hbreakers⟩
    | none => exact ⟨(), _, rfl, ⟨[], Logged.refl _, by simp⟩, rfl, rfl⟩
  simp only [runGuarded, houtcome]
  refine change_ends service h ?_
  refine Returns.bind hepisode ?_
  rintro _ h' ⟨⟨more, hlogged, hmore⟩, hmanager, hbreakers⟩
  refine ⟨houtcome.symm, ?_, ?_, more, (saving_logged h _).trans hlogged, ?_⟩
  · rw [pure_apply, hmanager, houtcome]
    rfl
  · rw [pure_apply, hbreakers, hmanager]
    rfl
  · rw [hmore, recordSuccess_none_iff]
    simp [houtcome, Except.isOk, Except.toBool]

theorem runGuarded_ends : Ends (runGuarded service call) h (Ran service call h) := by
  cases houtcome : call.outcome with
  | error exc => exact runGuarded_failed service call h houtcome
  | ok result => exact runGuarded_succeeded service call h houtcome

/-- `wrap` leaves what the manager's own `wrap` leaves, and answers the same. -/
structure Wrapped (service : String) (call : Call α) (h : Host) (r : Except PyError α) (h' : Host) :
    Prop where
  agrees : (r.map (fun _ => ()), h'.manager, h'.breakers) =
    h.manager.wrap h.breakers service call.askedAt (call.outcome.map fun _ => ()) call.endedAt
  logged : ∃ more, Logged more h h' ∧
    (more = [] ↔ (h.manager.enabled = true → Unrecorded (h.manager.get service) call))

theorem refused_state {b b' : Breaker} {now : Int} (h : b.allowRequest now = .ok (false, b')) :
    b'.state = b.state := by
  have hcases := allowRequest_cases b now
  rw [h] at hcases
  cases hcases <;> rfl

theorem unrecorded_refused {b b' : Breaker} (h : b.allowRequest call.askedAt = .ok (false, b')) :
    Unrecorded b call := by
  rw [Breaker.allowRequest] at h
  rw [Unrecorded]
  cases hstate : b.state with
  | closed => simp [hstate] at h
  | open_ =>
    intro helapsed
    simp [hstate, helapsed, tryTrial_halfOpened] at h
  | halfOpen =>
    simp only [hstate, Breaker.tryTrial] at h ⊢
    by_contra hleft
    rw [if_neg hleft] at h
    cases h

theorem unrecorded_raised {b : Breaker} {e : PyError} (h : b.allowRequest call.askedAt = .error e) :
    Unrecorded b call := by
  rw [Breaker.allowRequest] at h
  rw [Unrecorded]
  cases hstate : b.state with
  | closed => simp [hstate] at h
  | open_ =>
    intro helapsed
    simp [hstate, helapsed] at h
  | halfOpen => simp [hstate] at h

theorem unrecorded_admitted {b b' : Breaker} (h : b.allowRequest call.askedAt = .ok (true, b')) :
    Unrecorded b call ↔ b.state = b'.state ∧ b'.state = .closed ∧ call.outcome.isOk = true := by
  rw [Breaker.allowRequest] at h
  rw [Unrecorded]
  cases hstate : b.state with
  | closed =>
    simp only [hstate] at h
    cases h
    simp [hstate]
  | open_ =>
    cases helapsed : b.elapsed call.askedAt with
    | error e => simp [hstate, helapsed] at h
    | ok elapsed =>
      cases elapsed with
      | false => simp [hstate, helapsed] at h
      | true =>
        simp only [hstate, helapsed, tryTrial_halfOpened] at h
        cases h
        simp
  | halfOpen =>
    simp only [hstate, Breaker.tryTrial] at h
    by_cases hused : max 1 b.halfOpenMaxTrials ≤ b.halfOpenTrialsUsed
    · rw [if_pos hused] at h
      cases h
    · rw [if_neg hused] at h
      cases h
      simp [hused]

theorem persist_ends {x : Hosted α} {Q : Except PyError α → Host → Prop}
    (hx : Ends x (h.saving h.manager) Q) :
    Ends (do
      persist
      x) h Q :=
  hx

theorem admitted_ends {b' : Breaker} (henabled : h.manager.enabled = true)
    (hask : (h.manager.get service).allowRequest call.askedAt = .ok (true, b')) :
    Ends (do
      recordTransitionIfNeeded service (h.manager.get service).state "cooldown elapsed" call.askedAt
      persist
      runGuarded service call) { h with manager := h.manager.put b' } (Wrapped service call h) := by
  have hget : (h.manager.put b').get service = b' :=
    get_put_self _ ((allowRequest_service hask).trans (get_service ..))
  refine (recordTransitionIfNeeded_returns ..).bind ?_
  rintro _ h₁ ⟨⟨more, hlogged, hmore⟩, hmanager, hbreakers⟩
  rw [hget] at hmore
  refine persist_ends _ ((runGuarded_ends service call (h₁.saving h₁.manager)).mono ?_)
  rintro r h' ⟨hresult, hmanager', hbreakers', more', hlogged', hmore'⟩
  have hstart : Logged [] h { h with manager := h.manager.put b' } :=
    ⟨rfl, rfl, rfl, rfl, by simp⟩
  have hstate : (h₁.saving h₁.manager).manager.get service = b' := by
    rw [Host.saving, hmanager, hget]
  refine ⟨?_, _, (hstart.trans hlogged).trans ((saving_logged h₁ _).trans hlogged'), ?_⟩
  · rw [hresult, hbreakers', hmanager', Host.saving, hmanager]
    simp [Manager.wrap, henabled, Manager.ask, hask]
  · rw [hstate] at hmore'
    simp only [List.nil_append, List.append_eq_nil_iff, hmore, hmore', henabled, forall_const]
    exact (unrecorded_admitted call hask).symm

theorem refused_ends {b' : Breaker} (henabled : h.manager.enabled = true)
    (hask : (h.manager.get service).allowRequest call.askedAt = .ok (false, b')) :
    Ends (do
      persist
      recordTransitionIfNeeded service (h.manager.get service).state "cooldown elapsed" call.askedAt
      let lastError ← Prog.read fun h : Host => (h.manager.get service).lastError
      Prog.raise (.serviceDegraded service lastError) : Hosted α)
      { h with manager := h.manager.put b' } (Wrapped service call h) := by
  have hget : (h.manager.put b').get service = b' :=
    get_put_self _ ((allowRequest_service hask).trans (get_service ..))
  have hstate : (h.manager.get service).state =
      ((h.saving (h.manager.put b')).manager.get service).state := by
    rw [Host.saving, hget, refused_state hask]
  refine persist_ends _ (Returns.bind (recordTransitionIfNeeded_returns ..) ?_)
  rintro _ h₁ ⟨⟨more, hlogged, hmore⟩, hmanager, hbreakers⟩
  refine ⟨?_, more, (saving_logged h _).trans hlogged, ?_⟩
  · rw [read_bind, raise_apply, hbreakers, hmanager]
    simp [Manager.wrap, henabled, Manager.ask, hask, Except.map, Host.saving]
  · simp [hmore.mpr hstate, unrecorded_refused call hask]

theorem wrap_ends : Ends (wrap service call) h (Wrapped service call h) := by
  rw [wrap]
  refine Ends.read ?_
  cases henabled : h.manager.enabled with
  | false =>
    refine ⟨?_, [], ?_, by simp [henabled]⟩
    · simp [Manager.wrap, henabled]
    · simpa using Logged.refl h
  | true =>
    simp only [Bool.not_true, Bool.false_eq_true, if_false]
    refine Ends.read ?_
    cases hask : (h.manager.get service).allowRequest call.askedAt with
    | error e =>
      have hasked : allowRequest service call.askedAt h = (.error e, h) := by
        simp [allowRequest, Manager.ask, hask]
      rw [Ends, bind_error hasked]
      refine ⟨?_, [], Logged.refl h, by simp [unrecorded_raised call hask]⟩
      simp [Manager.wrap, henabled, Manager.ask, hask, Except.map]
    | ok answer =>
      obtain ⟨allowed, b'⟩ := answer
      have hasked : allowRequest service call.askedAt h =
          (.ok allowed, { h with manager := h.manager.put b' }) := by
        simp [allowRequest, Manager.ask, hask]
      rw [Ends, bind_ok hasked]
      cases allowed with
      | false => exact refused_ends service call h henabled hask
      | true => exact admitted_ends service call h henabled hask

end Guarding

/-- The guard of the preview's search, if there is one, records nothing. -/
def Silent (connectors : Connectors) (h : Host) : Prop :=
  h.manager.enabled = true → match h.rule.trigger.type with
    | .schedule => True
    | .gmail => ∀ call ∈ connectors.email, Unrecorded (h.manager.get "gmail") call
    | .calendar => (addHours h.world.now h.rule.trigger.hoursAhead).isOk = true →
      ∀ call ∈ connectors.calendar, Unrecorded (h.manager.get "calendar") call

structure Untouched (h h' : Host) : Prop where
  rule : h'.rule = h.rule
  rules : h'.rules = h.rules
  approvals : h'.world.disk.approvals = h.world.disk.approvals
  ledger : h'.world.disk.ledger = h.world.disk.ledger
  episodes : h'.world.disk.episodes = h.world.disk.episodes
  notifications : h'.world.disk.events = h.world.disk.events

theorem Logged.untouched_iff {more : List Episode} {h h' : Host} (hlogged : Logged more h h') :
    Untouched h h' ↔ more = [] := by
  constructor
  · intro huntouched
    have hepisodes := huntouched.episodes
    rw [hlogged.episodes] at hepisodes
    simpa using hepisodes
  · rintro rfl
    have hstores := hlogged.stores
    refine ⟨hlogged.rule, hlogged.rules, congrArg Stores.approvals hstores,
      congrArg Stores.ledger hstores, ?_, congrArg Stores.events hstores⟩
    simpa using hlogged.episodes

section Previewing

variable (rt : Runtime) (engine : Engine) (connectors : Connectors) (includeSeen : Bool) (h : Host)

def guardedFeed : Feed where
  messages := connectors.email.map fun call => (wrap "gmail" call h).1
  events := connectors.calendar.map fun call => (wrap "calendar" call h).1

theorem searched_ends {α : Type} (service : String) (call : Call α) (item : α → List Item) :
    Ends (do
      let found ← wrap service call
      pure (item found)) h fun r h' =>
        r = (wrap service call h).1.map item ∧ h' = (wrap service call h).2 := by
  rw [Ends]
  cases hrun : wrap service call h with
  | mk r h' =>
    cases r with
    | ok found =>
      rw [bind_ok hrun]
      exact ⟨rfl, rfl⟩
    | error e =>
      rw [bind_error hrun]
      exact ⟨rfl, rfl⟩

theorem loadTriggerItems_ends :
    Ends (loadTriggerItems connectors) h fun r h' =>
      r = RuleMatching.loadTriggerItems h.world.now (guardedFeed connectors h) h.rule.trigger ∧
        ∃ more, Logged more h h' ∧ (more = [] ↔ Silent connectors h) := by
  rw [loadTriggerItems, RuleMatching.loadTriggerItems, Silent]
  refine Ends.read (Ends.read ?_)
  cases htype : h.rule.trigger.type with
  | schedule => exact ⟨rfl, [], Logged.refl h, by simp⟩
  | gmail =>
    cases hemail : connectors.email with
    | none =>
      refine ⟨?_, [], Logged.refl h, by simp⟩
      simp [guardedFeed, hemail]
    | some call =>
      refine (searched_ends h "gmail" call _).mono ?_
      rintro r h' ⟨rfl, rfl⟩
      obtain ⟨-, more, hlogged, hmore⟩ := wrap_ends "gmail" call h
      refine ⟨?_, more, hlogged, ?_⟩
      · simp [guardedFeed, hemail]
      · simpa using hmore
  | calendar =>
    cases hcalendar : connectors.calendar with
    | none =>
      refine ⟨?_, [], Logged.refl h, by simp⟩
      simp [guardedFeed, hcalendar]
    | some call =>
      refine Ends.ofExcept ?_ ?_
      · intro ends hends
        refine (searched_ends h "calendar" call _).mono ?_
        rintro r h' ⟨rfl, rfl⟩
        obtain ⟨-, more, hlogged, hmore⟩ := wrap_ends "calendar" call h
        refine ⟨?_, more, hlogged, ?_⟩
        · simp [guardedFeed, hcalendar, hends]
        · simpa [hends, Except.isOk, Except.toBool] using hmore
      · intro e he
        refine ⟨?_, [], Logged.refl h, ?_⟩
        · simp [guardedFeed, hcalendar, he]
        · simp [he, Except.isOk, Except.toBool]

theorem matchLoaded_apply (trigger : List Item) :
    matchLoaded rt includeSeen trigger h =
      ((if includeSeen then .ok trigger else filterNewItems rt h.rule.state trigger).map
        fun candidates =>
          { trigger
            candidates
            matching := matchingItems rt h.rule.condition candidates
            notes := ["trigger_count=" ++ toString trigger.length,
                "candidate_count=" ++ toString candidates.length] ++
              if includeSeen then ["include_seen=true"] else [] }, h) := by
  rw [matchLoaded, read_bind]
  cases (if includeSeen then Except.ok trigger else filterNewItems rt h.rule.state trigger) <;> rfl

theorem computeMatches_ends :
    Ends (computeMatches rt connectors includeSeen) h fun r h' =>
      r = RuleMatching.computeMatches rt h.world.now (guardedFeed connectors h) h.rule includeSeen ∧
        ∃ more, Logged more h h' ∧ (more = [] ↔ Silent connectors h) := by
  have hloaded := loadTriggerItems_ends connectors h
  rw [Ends] at hloaded ⊢
  rw [computeMatches, RuleMatching.computeMatches]
  cases hrun : loadTriggerItems connectors h with
  | mk r h' =>
    rw [hrun] at hloaded
    obtain ⟨hr, more, hlogged, hmore⟩ := hloaded
    dsimp only at hr hlogged
    rw [← hr]
    cases r with
    | error e => cases e <;> exact ⟨rfl, more, hlogged, hmore⟩
    | ok trigger =>
      dsimp only
      rw [matchLoaded_apply, hlogged.rule]
      refine ⟨?_, more, hlogged, hmore⟩
      cases (if includeSeen then Except.ok trigger else filterNewItems rt h.rule.state trigger) <;>
        rfl

/-- A preview answers what a preview of the guarded replies answers, and leaves what the
guard leaves. -/
theorem evaluateRulePreview_ends :
    Ends (evaluateRulePreview rt engine connectors includeSeen) h fun r h' =>
      r = RulePreview.evaluateRulePreview rt engine (guardedFeed connectors h) h.world.now
          h.world.safeMode h.rule includeSeen ∧
        ∃ more, Logged more h h' ∧ (more = [] ↔ Silent connectors h) := by
  rw [evaluateRulePreview, RulePreview.evaluateRulePreview]
  refine Ends.bind (computeMatches_ends rt connectors includeSeen h) ?_ ?_
  · rintro found h' ⟨hfound, more, hlogged, hmore⟩
    have hnow : h'.world.now = h.world.now := congrArg Surroundings.now hlogged.surroundings
    have hsafe : h'.world.safeMode = h.world.safeMode :=
      congrArg Surroundings.safeMode hlogged.surroundings
    rw [← hfound]
    refine Ends.read (Ends.read (Ends.read ?_))
    rw [hlogged.rule, hnow, hsafe]
    refine Ends.ofExcept ?_ ?_
    · intro cooling hcooling
      refine ⟨?_, more, hlogged, hmore⟩
      rw [hcooling]
      rfl
    · intro e he
      refine ⟨?_, more, hlogged, hmore⟩
      rw [he]
  · rintro e h' ⟨he, more, hlogged, hmore⟩
    refine ⟨?_, more, hlogged, hmore⟩
    rw [← he]

theorem preview_untouched_iff :
    Untouched h (evaluateRulePreview rt engine connectors includeSeen h).2 ↔
      Silent connectors h := by
  obtain ⟨-, more, hlogged, hmore⟩ := evaluateRulePreview_ends rt engine connectors includeSeen h
  rw [hlogged.untouched_iff, hmore]

end Previewing

def quietHost : Host where
  world := freshWorld exampleSurroundings
  rules := []
  rule := RuleCandidates.inboxRule
  manager := ⟨true, ⟨3, 60, 1⟩, []⟩
  breakers := []

def timedOut : Connectors := ⟨some ⟨0, .error (.other "timed out"), 1⟩, none⟩

/-- The search of a preview fails once. -/
theorem failed_search_recorded :
    let rt := AssistantState.exampleRuntime (fun _ => .returned "") fun _ => none
    let after := (evaluateRulePreview rt RuleEngine.exampleEngine timedOut false quietHost).2
    quietHost.world.disk.episodes.map Episode.summary = [] ∧
      after.world.disk.episodes.map Episode.summary = ["Breaker failure recorded for gmail"] ∧
      ¬ Untouched quietHost after := by
  refine ⟨rfl, by decide, fun huntouched => ?_⟩
  have hsame := congrArg List.length huntouched.episodes
  exact absurd hsame (by decide)

end GuardedPreview
