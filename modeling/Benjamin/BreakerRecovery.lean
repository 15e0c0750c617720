import Benjamin.BreakerManager

/-!
# A breaker recovers after a crash

One process at a time makes requests, which may overlap, and may die while some are
running; the next one starts from the file. A half-open breaker has no way out but the
outcome of a trial, so a crash must not come when all its trials are running.
-/
namespace BreakerRecovery

open PyBase CircuitBreaker BreakerManager

/-- The services whose requests are running are those of the calls of `fn` that have not
ended. -/
structure System where
  file : File
  manager : Manager
  inFlight : List String

inductive Op where
  | begin_ (service : String) (now : Int)
  | finish (service : String) (outcome : Except PyError Unit) (now : Int)
  | crash (settings : Settings)

def apply (rt : Runtime) (s : System) : Op → System
  | .begin_ service now =>
    if !s.manager.enabled then s
    else
      match s.manager.ask service now with
      | .error _ => s
      | .ok (allowed, m) => ⟨m.snapshot, m, if allowed then service :: s.inFlight else s.inFlight⟩
  | .finish service outcome now =>
    if service ∈ s.inFlight then
      let m := s.manager.conclude service outcome now
      ⟨m.snapshot, m, s.inFlight.erase service⟩
    else s
  | .crash settings => ⟨s.file, Manager.build rt settings s.file, []⟩

def initial (rt : Runtime) (settings : Settings) : System := ⟨[], Manager.build rt settings [], []⟩

def admits (m : Manager) (service : String) (now : Int) : Bool :=
  match m.ask service now with
  | .ok (true, _) => m.enabled
  | _ => false

/-- A call of `wrap` is its beginning and, when it is admitted, the end of its `fn`. -/
theorem wrap_eq (rt : Runtime) (s : System) (service : String) (now : Int)
    (outcome : Except PyError Unit) (later : Int) :
    (s.manager.wrap s.file service now outcome later).2 =
      let begun := apply rt s (.begin_ service now)
      let ended :=
        if admits s.manager service now then apply rt begun (.finish service outcome later)
          else begun
      (ended.manager, ended.file) := by
  unfold Manager.wrap apply admits
  cases henabled : s.manager.enabled with
  | false =>
    cases hasked : s.manager.ask service now with
    | error e => simp
    | ok answer =>
      obtain ⟨allowed, m⟩ := answer
      cases allowed <;> simp
  | true =>
    cases hasked : s.manager.ask service now with
    | error e => simp [hasked]
    | ok answer =>
      obtain ⟨allowed, m⟩ := answer
      cases allowed <;> simp [hasked]

def Opens (b : Breaker) : Prop :=
  b.state = .halfOpen ∨ max 1 b.failureThreshold ≤ b.failureCount + 1

def CooldownEnds (t openSeconds : Int) : Prop := ∃ ends, addSeconds t (max 1 openSeconds) = .ok ends

/-- No cooldown without an end begins, and no crash leaves a breaker half-open with all the
trials of the next process used. -/
def Clear (s : System) : Op → Prop
  | .begin_ .. | .finish _ (.ok _) _ => True
  | .finish service (.error _) now => service ∈ s.inFlight → Opens (s.manager.get service) →
    CooldownEnds now (s.manager.get service).openSeconds
  | .crash settings => ∀ service ∈ services,
    ((s.manager.get service).state = .halfOpen →
      (s.manager.get service).halfOpenTrialsUsed < max 1 settings.config.halfOpenMaxTrials) ∧
    ((s.manager.get service).state = .open_ → ∀ t ∈ (s.manager.get service).openedAt,
      CooldownEnds t settings.config.openSeconds)

instance (b : Breaker) : Decidable (Opens b) := inferInstanceAs (Decidable (_ ∨ _))

instance (t openSeconds : Int) : Decidable (CooldownEnds t openSeconds) :=
  decidable_of_iff ((addSeconds t (max 1 openSeconds)).isOk = true) (by
    rw [CooldownEnds]
    cases addSeconds t (max 1 openSeconds) <;> simp [Except.isOk, Except.toBool])

instance (s : System) : DecidablePred (Clear s)
  | .begin_ .. => isTrue trivial
  | .finish _ (.ok _) _ => isTrue trivial
  | .finish _ (.error _) _ => inferInstanceAs (Decidable (_ → _ → _))
  | .crash _ => inferInstanceAs (Decidable (∀ service ∈ services, _ ∧ _))

/-- The breaker, with that many requests running, is saved faithfully and has a way out. -/
structure Recovers (rt : Runtime) (b : Breaker) (running : Nat) : Prop where
  openedParses : ∀ t, b.openedAt = some t → Parses rt t
  failureParses : ∀ t, b.lastFailure = some t → Parses rt t
  cooldown : b.state = .open_ → ∃ t, b.openedAt = some t ∧ CooldownEnds t b.openSeconds
  trials : b.state = .halfOpen → b.halfOpenTrialsUsed < max 1 b.halfOpenMaxTrials ∨ 0 < running

structure Live (rt : Runtime) (s : System) : Prop where
  saved : ∀ service ∈ services, loadedEntry s.file service = toEntry (s.manager.get service)
  recovers : ∀ service, Recovers rt (s.manager.get service) (s.inFlight.count service)

section Steps

variable {rt : Runtime} {b : Breaker} {running : Nat}

theorem Recovers.more (h : Recovers rt b running) : Recovers rt b (running + 1) :=
  ⟨h.openedParses, h.failureParses, h.cooldown, fun _ => Or.inr (Nat.succ_pos _)⟩

theorem Recovers.asked (h : Recovers rt b running) {now : Int} {allowed : Bool} {b' : Breaker}
    (hallow : b.allowRequest now = .ok (allowed, b')) :
    Recovers rt b' (if allowed then running + 1 else running) := by
  have hcases := allowRequest_cases b now
  rw [hallow] at hcases
  cases hcases with
  | closed state => exact h.more
  | waiting state early => exact h
  | used state none_left => exact h
  | first openedAt state opened elapsed =>
    refine ⟨h.openedParses, h.failureParses, ?_, fun _ => Or.inr (Nat.succ_pos _)⟩
    intro hstate
    cases hstate
  | another state left =>
    refine ⟨h.openedParses, h.failureParses, ?_, fun _ => Or.inr (Nat.succ_pos _)⟩
    intro hstate
    rw [state] at hstate
    cases hstate

theorem recovers_success (rt : Runtime) (b : Breaker) (running : Nat) :
    Recovers rt b.recordSuccess.1 running := by
  constructor
  · intro t ht
    cases ht
  · intro t ht
    cases ht
  · intro hstate
    cases hstate
  · intro hstate
    cases hstate

theorem recovers_reopened {opening : Breaker} {now failureCount : Int} (hnow : Parses rt now)
    (hends : CooldownEnds now opening.openSeconds) (hfailure : opening.lastFailure = some now)
    (running : Nat) : Recovers rt (opening.reopened now failureCount) running := by
  constructor
  · intro t ht
    cases ht
    exact hnow
  · intro t ht
    cases hfailure.symm.trans ht
    exact hnow
  · exact fun _ => ⟨now, rfl, hends⟩
  · intro hstate
    cases hstate

theorem Recovers.failed (h : Recovers rt b running) {error : String} {now : Int}
    (hnow : Parses rt now) (hends : Opens b → CooldownEnds now b.openSeconds) (others : Nat) :
    Recovers rt (b.recordFailure error now).1 others := by
  rw [Breaker.recordFailure]
  by_cases htrial : b.state = .halfOpen
  · rw [if_pos htrial]
    refine recovers_reopened hnow ?_ rfl _
    exact hends (Or.inl htrial)
  · rw [if_neg htrial]
    by_cases hreached : max 1 b.failureThreshold ≤ b.failureCount + 1
    · rw [if_pos hreached]
      refine recovers_reopened hnow ?_ rfl _
      exact hends (Or.inr hreached)
    · rw [if_neg hreached]
      constructor
      · exact h.openedParses
      · intro t ht
        cases ht
        exact hnow
      · exact h.cooldown
      · exact fun hstate => absurd hstate htrial

theorem recovers_fresh (rt : Runtime) (service : String) (config : Config) (running : Nat) :
    Recovers rt (fresh service config) running := by
  constructor
  · intro t ht
    cases ht
  · intro t ht
    cases ht
  · intro hstate
    cases hstate
  · intro hstate
    cases hstate

end Steps

section Runs

variable {rt : Runtime} {s : System}

theorem Live.saving (h : Live rt s) {service : String} {b : Breaker} {inFlight : List String}
    (hservice : b.service = service) (hb : Recovers rt b (inFlight.count service))
    (hothers : ∀ other, other ≠ service → inFlight.count other = s.inFlight.count other) :
    Live rt ⟨(s.manager.put b).snapshot, s.manager.put b, inFlight⟩ := by
  refine ⟨fun other _ => loadedEntry_snapshot _ other, fun other => ?_⟩
  by_cases hother : other = service
  · subst hother
    dsimp only
    rw [get_put_self _ hservice]
    exact hb
  · have hne : b.service ≠ other := fun heq => hother (heq.symm.trans hservice)
    dsimp only
    rw [get_put_ne _ hne, hothers other hother]
    exact h.recovers other

theorem Live.begin_ (h : Live rt s) (service : String) (now : Int) :
    Live rt (apply rt s (.begin_ service now)) := by
  unfold apply
  dsimp only
  split
  · exact h
  · rw [Manager.ask]
    cases hallow : (s.manager.get service).allowRequest now with
    | error e => exact h
    | ok answer =>
      obtain ⟨allowed, b⟩ := answer
      have hb := (h.recovers service).asked hallow
      refine h.saving ((allowRequest_service hallow).trans (get_service _ _)) ?_ ?_
      · cases allowed with
        | false => exact hb
        | true => simpa using hb
      · intro other hother
        cases allowed with
        | false => rfl
        | true => simp [Ne.symm hother]

theorem Live.finish (h : Live rt s) (service : String) (outcome : Except PyError Unit) {now : Int}
    (hnow : Parses rt now) (hclear : Clear s (.finish service outcome now)) :
    Live rt (apply rt s (.finish service outcome now)) := by
  rw [apply]
  dsimp only
  split
  · rename_i hrunning
    have hothers : ∀ other, other ≠ service →
        (s.inFlight.erase service).count other = s.inFlight.count other :=
      fun other hother => List.count_erase_of_ne hother
    unfold Manager.conclude
    cases outcome with
    | ok _ =>
      exact h.saving (get_service s.manager service) (recovers_success rt _ _) hothers
    | error e =>
      exact h.saving ((recordFailure_service ..).trans (get_service _ _))
        ((h.recovers service).failed hnow (hclear hrunning) _) hothers
  · exact h

theorem Live.crash (h : Live rt s) {settings : Settings} (hclear : Clear s (.crash settings)) :
    Live rt (apply rt s (.crash settings)) := by
  have hloaded : ∀ service ∈ services, (Manager.build rt settings s.file).get service =
      reconfigured (s.manager.get service) settings.config := by
    intro service hservice
    have hrecovers := h.recovers service
    rw [get_build, if_pos hservice, h.saved service hservice]
    exact fromEntry_toEntry settings.config (get_service _ _) hrecovers.openedParses
      hrecovers.failureParses
  refine ⟨?_, ?_⟩
  · intro service hservice
    dsimp only [apply]
    rw [hloaded service hservice, h.saved service hservice]
    rfl
  · intro service
    dsimp only [apply]
    by_cases hservice : service ∈ services
    · obtain ⟨hhalf, hopen⟩ := hclear service hservice
      have hrecovers := h.recovers service
      rw [hloaded service hservice]
      constructor
      · exact hrecovers.openedParses
      · exact hrecovers.failureParses
      · intro hstate
        obtain ⟨t, ht, _⟩ := hrecovers.cooldown hstate
        exact ⟨t, ht, hopen hstate t ht⟩
      · exact fun hstate => Or.inl (hhalf hstate)
    · rw [get_build, if_neg hservice]
      exact recovers_fresh rt service _ _

theorem initial_live (rt : Runtime) (settings : Settings) : Live rt (initial rt settings) := by
  have hget : ∀ service, toEntry ((initial rt settings).manager.get service) = initialEntry := by
    intro service
    exact build_loads (by intro other _; rfl) (by simp) service
  refine ⟨fun service _ => (hget service).symm, fun service => ?_⟩
  rw [initial, get_build]
  split
  · exact recovers_fresh rt service _ _
  · exact recovers_fresh rt service _ _

/-- A breaker with a way out admits a request at some time. -/
theorem Recovers.admits {b : Breaker} (h : Recovers rt b 0) : ∃ t, Admitted b t := by
  cases hstate : b.state with
  | closed => exact ⟨0, b, by rw [Breaker.allowRequest, hstate]⟩
  | open_ =>
    obtain ⟨openedAt, hopened, ends, hends⟩ := h.cooldown hstate
    have helapsed : b.elapsed ends = .ok true := by
      rw [Breaker.elapsed, hopened]
      simp only [hends, le_refl, decide_true]
    exact ⟨ends, _, by rw [Breaker.allowRequest, hstate, helapsed, tryTrial_halfOpened]⟩
  | halfOpen =>
    have hleft := (h.trials hstate).resolve_right (lt_irrefl 0)
    have hfree : ¬ max 1 b.halfOpenMaxTrials ≤ b.halfOpenTrialsUsed := by omega
    have htrial : b.tryTrial = (true, { b with halfOpenTrialsUsed := b.halfOpenTrialsUsed + 1 }) :=
      if_neg hfree
    exact ⟨0, _, by rw [Breaker.allowRequest, hstate, htrial]⟩

end Runs

theorem never_locked_out (rt : Runtime) (settings : Settings) (ops : List Op)
    (hparses : ∀ service outcome now, Op.finish service outcome now ∈ ops → Parses rt now)
    (hclear : ∀ t ∈ SerialRun.transitions (apply rt) (initial rt settings) ops,
      Clear t.before t.op) :
    let final := SerialRun.final (apply rt) (initial rt settings) ops
    ∀ service, service ∉ final.inFlight → ∃ t, Admitted (final.manager.get service) t := by
  intro final service hquiet
  have hlive : Live rt final := by
    refine (SerialRun.invariant_along (C := fun t => t.op ∈ ops ∧ Clear t.before t.op)
      (fun s op hcond hlive => ?_) (fun t ht => ⟨SerialRun.op_mem ht, hclear t ht⟩)
      (initial_live rt settings)).2
    obtain ⟨hmem, hclear⟩ := hcond
    cases op with
    | begin_ service now => exact hlive.begin_ service now
    | finish service outcome now =>
      exact hlive.finish service outcome (hparses service outcome now hmem) hclear
    | crash settings => exact hlive.crash hclear
  have hrecovers := hlive.recovers service
  rw [List.count_eq_zero.mpr hquiet] at hrecovers
  exact hrecovers.admits

def clockRuntime (times : List Int) : Runtime where
  uuid4 n := toString n
  sha256 s := s
  loads _ := none
  str _ := ""
  casefold s := s
  fromisoformat s := (times.find? fun t => isoformat t = s).map .aware
  skillRun _ := .returned ""
  notifierSend _ := none

def failingRequests : List Op :=
  [.begin_ "llm" 0, .finish "llm" (.error (.other "e")) 1000000,
    .begin_ "llm" 2000000, .finish "llm" (.error (.other "e")) 3000000,
    .begin_ "llm" 4000000, .finish "llm" (.error (.other "e")) 5000000,
    .begin_ "llm" 65000000]

def failureTimes : List Int := [1000000, 3000000, 5000000]

theorem failingRequests_parse {more : List Op}
    (hmore : ∀ service outcome now, Op.finish service outcome now ∉ more) (service : String)
    (outcome : Except PyError Unit) (now : Int)
    (h : Op.finish service outcome now ∈ failingRequests ++ more) :
    Parses (clockRuntime failureTimes) now := by
  have hnow : now ∈ failureTimes := by
    simp only [failingRequests, List.mem_append, List.mem_cons, List.not_mem_nil, or_false,
      reduceCtorEq, false_or, Op.finish.injEq, hmore] at h
    simp only [failureTimes, List.mem_cons, List.not_mem_nil, or_false]
    tauto
  have hall : ∀ t ∈ failureTimes, Parses (clockRuntime failureTimes) t := by decide
  exact hall now hnow

theorem recovers_with_a_trial_left :
    ∃ t, Admitted ((SerialRun.final (apply (clockRuntime failureTimes))
      (initial (clockRuntime failureTimes) ⟨true, 3, 60, 2⟩)
      (failingRequests ++ [.crash ⟨true, 3, 60, 2⟩])).manager.get "llm") t :=
  never_locked_out (clockRuntime failureTimes) ⟨true, 3, 60, 2⟩ _
    (failingRequests_parse (by simp)) (by decide) "llm" (by decide)

/-- A half-open breaker whose trials are used admits nothing at any time. -/
theorem used_up {b : Breaker} (hstate : b.state = .halfOpen)
    (hused : max 1 b.halfOpenMaxTrials ≤ b.halfOpenTrialsUsed) (t : Int) : ¬ Admitted b t := by
  rintro ⟨b', hadmitted⟩
  have hcases := allowRequest_cases b t
  rw [hadmitted] at hcases
  cases hcases with
  | closed state => simp [hstate] at state
  | first openedAt state opened elapsed => simp [hstate] at state
  | another state left => omega

/-- The process dies in the only trial, and the next one never admits a request. -/
theorem locked_out_after_crash :
    let final := SerialRun.final (apply (clockRuntime failureTimes))
      (initial (clockRuntime failureTimes) ⟨true, 3, 60, 1⟩)
      (failingRequests ++ [.crash ⟨true, 3, 60, 1⟩])
    "llm" ∉ final.inFlight ∧ ∀ t, ¬ Admitted (final.manager.get "llm") t := by
  intro final
  refine ⟨by decide, used_up ?_ ?_⟩
  · decide
  · decide

end BreakerRecovery
