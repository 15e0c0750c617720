import Benjamin.BreakerManager
import Benjamin.HttpRetries
import Benjamin.PolicyOverrides
import Benjamin.PyJson

/-!
# Calls of the language model

`BenjaminLLM._call` on top of the breaker of its service and of `request_json`. A call asks the
breaker, and is tried once more where the completion fails. A server that answers nothing with
success is asked as often as the breaker lets it: up to the threshold, then once for every
cooldown that has passed. The log, the trace and what is sent along are left out.
-/
namespace LlmCalls

open PyBase CircuitBreaker BreakerManager HttpRetries RetryLoop

/-- `type(value).__name__`. -/
def typeName : Json → String
  | .null => "NoneType"
  | .bool _ => "bool"
  | .int _ => "int"
  | .float _ => "float"
  | .str _ => "str"
  | .arr _ => "list"
  | .obj _ => "dict"

/-- `value.get(key)`. -/
def getKey (value : Json) (key : String) : Except PyError Json :=
  match value with
  | .obj fields => .ok (Dict.lookup fields key)
  | value => .error (.other ("'" ++ typeName value ++ "' object has no attribute 'get'"))

/-- `choices[0]` of a value that is not falsy; a dict has no key `0`. -/
def firstChoice : Json → Except PyError Json
  | .arr (choice :: _) => .ok choice
  | .str s => .ok (.str (String.ofList (s.toList.take 1)))
  | .obj _ => .error (.other "0")
  | value => .error (.typeError ("'" ++ typeName value ++ "' object is not subscriptable"))

/-- What `chat_completion` makes of the response. -/
def chatText (lib : Libraries) (data : Dict) : Except PyError String :=
  let choices := data.lookup "choices"
  if !choices.isTruthy then .ok ""
  else do
    let choice ← firstChoice choices
    let message ← getKey choice "message"
    let content ← getKey (if message.isTruthy then message else .obj []) "content"
    return pyStr lib.toRuntime content.orEmpty

/-- What leaves `chat_completion`: an `HTTPRequestError`, or another exception. -/
inductive ChatError where
  | request (message : String)
  | raised (exc : PyError)

def chatError : HttpRequestError → ChatError
  | .timeout m | .connection m | .rateLimit m | .server m | .client m | .request m => .request m
  | .raised exc => .raised exc

def ChatError.recorded : ChatError → PyError
  | .request m => .other m
  | .raised exc => exc

/-- What a process is connected to: the readings of its clock and the outcomes of its requests
come in their order. -/
structure Connection where
  lib : Libraries
  env : Environment
  clock : Clock
  url : String
  times : Nat → Int
  outcomes : Nat → Outcome

structure Provider where
  manager : Manager
  reads : Nat
  completions : Nat
  requests : Nat

section Calls

variable (net : Connection)

/-- The request of `chat_completion`. -/
def request (p : Provider) : Except HttpRequestError Dict × Calls Unit :=
  requestJson net.env net.clock ⟨"POST", net.url, none, none⟩
    (fun n => net.outcomes (p.requests + n)) (start ())

def chatCompletion (p : Provider) : Except ChatError String × Provider :=
  let answer := match (request net p).1 with
    | .error e => .error (chatError e)
    | .ok data => (chatText net.lib data).mapError .raised
  (answer, { p with
    completions := p.completions + 1
    requests := p.requests + (request net p).2.issued })

/-- What leaves `wrap`. -/
inductive WrapError where
  | degraded (message : String)
  | breaker (exc : PyError)
  | chat (e : ChatError)

def Provider.concluded (p : Provider) (answer : Except ChatError String) (now : Int) : Provider :=
  let outcome := match answer with
    | .ok _ => .ok ()
    | .error e => .error e.recorded
  { p with manager := p.manager.conclude "llm" outcome now, reads := p.reads + 1 }

/-- `breaker_manager.wrap("llm", ...)`. -/
def wrapChat (p : Provider) : Except WrapError String × Provider :=
  if !p.manager.enabled then
    ((chatCompletion net p).1.mapError .chat, (chatCompletion net p).2)
  else
    match p.manager.ask "llm" (net.times p.reads) with
    | .error e => (.error (.breaker e), { p with reads := p.reads + 1 })
    | .ok (false, m) =>
      (.error (.degraded (PyError.serviceDegraded "llm" (m.get "llm").lastError).str),
        { p with manager := m, reads := p.reads + 1 })
    | .ok (true, m) =>
      let (answer, p) := chatCompletion net { p with manager := m, reads := p.reads + 1 }
      (answer.mapError .chat, p.concluded answer (net.times p.reads))

/-- What `_call` returns or raises. -/
inductive Reply where
  | text (text : String)
  | unavailable (message : String)
  | raised (exc : PyError)

inductive Tried where
  | replied (reply : Reply)
  | failed (message : String)

/-- The last clause of the loop takes a `ValueError`, and nothing else of these. -/
def caught : PyError → Tried
  | .valueError m => .failed m
  | exc => .replied (.raised exc)

def tried : Except WrapError String → Tried
  | .ok text => .replied (.text text)
  | .error (.degraded m) => .replied (.unavailable m)
  | .error (.breaker exc) => caught exc
  | .error (.chat (.request m)) => .failed m
  | .error (.chat (.raised exc)) => caught exc

def attempts : Nat → Option String → Provider → Reply × Provider
  | 0, lastError, p => (.unavailable ("LLM request failed: " ++ lastError.getD "None"), p)
  | left + 1, _, p =>
    let (answer, p) := wrapChat net p
    match tried answer with
    | .replied reply => (reply, p)
    | .failed m => attempts left (some m) p

structure Prompt where
  system : String
  user : String

/-- `_call`. -/
def call (provider : String) (prompt : Prompt) (p : Provider) : Reply × Provider :=
  if provider = "off" then (.unavailable "LLM provider is off", p)
  else if provider ∈ ["vllm", "http"] then attempts net 2 none p
  else (.text ("LLM response to: " ++ prompt.system ++ "\n\n" ++ prompt.user), p)

def advance (provider : String) (p : Provider) (prompt : Prompt) : Provider :=
  (call net provider prompt p).2

end Calls

def Down (net : Connection) : Prop :=
  ∀ n r, net.outcomes n = .response r → isSuccess r.statusCode = false

def Forward (net : Connection) : Prop := ∀ i j, i ≤ j → net.times i ≤ net.times j

def mostRequests (net : Connection) : Nat := (max 0 (maxRetries net.env none) + 1).toNat

theorem verdict_down (call : JsonCall) {o : Outcome}
    (h : ∀ r, o = .response r → isSuccess r.statusCode = false) :
    ∃ e, (jsonPolicy call).verdict o = .error e := by
  cases o with
  | response r => simp [jsonPolicy, h r rfl]
  | failed exc => exact ⟨_, rfl⟩
  | raised exc => exact ⟨_, rfl⟩

section Down

variable {net : Connection}

theorem request_ran (net : Connection) (p : Provider) :
    Ran (jsonPolicy ⟨"POST", net.url, none, none⟩)
      (sleepBackoff net.clock (backoffBase net.env ⟨"POST", net.url, none, none⟩))
      (fun n => net.outcomes (p.requests + n)) (maxRetries net.env none)
      (request net p).1 (request net p).2 :=
  loop_ran (attemptJson_follows net.env net.clock ⟨"POST", net.url, none, none⟩
    fun n => net.outcomes (p.requests + n))

theorem request_issued (net : Connection) (p : Provider) :
    (request net p).2.issued ≤ mostRequests net := by
  have hran := request_ran net p
  unfold mostRequests
  generalize (request net p).1 = answer at hran
  cases hran with
  | unissued _ _ negative issued => omega
  | answered k _ due before final issued within => omega
  | interrupted k e _ due before retryable raised issued => omega

theorem request_down (h : Down net) (p : Provider) : ∃ e, (request net p).1 = .error e := by
  by_cases hnegative : maxRetries net.env none < 0
  · have hnone : (maxRetries net.env none + 1).toNat = 0 := by omega
    rw [request, requestJson, hnone]
    exact ⟨_, rfl⟩
  · have hran := request_ran net p
    generalize (request net p).1 = answer at hran ⊢
    cases hran with
    | unissued _ _ negative issued => exact absurd negative hnegative
    | answered k _ due before final issued within => exact verdict_down _ fun r hr => h _ r hr
    | interrupted k e _ due before retryable raised issued => exact ⟨e, rfl⟩

theorem chatCompletion_down (h : Down net) (p : Provider) :
    ∃ e, (chatCompletion net p).1 = .error e := by
  obtain ⟨e, he⟩ := request_down h p
  rw [chatCompletion, he]
  exact ⟨_, rfl⟩

/-- How many completions the state of the breaker accounts for: its failures while it is
closed; once it has opened, the threshold and one for each cooldown before it opened last. -/
inductive Accounted (config : Config) (started now : Int) (completions : Nat) (b : Breaker) : Prop
  | counting (state : b.state = .closed) (counted : (completions : Int) = b.failureCount)
      (below : b.failureCount < max 1 config.failureThreshold)
  | opened (openedAt : Int) (cooldowns : Nat) (state : b.state = .open_)
      (opened : b.openedAt = some openedAt) (past : openedAt ≤ now)
      (counted : (completions : Int) ≤ max 1 config.failureThreshold + cooldowns)
      (cooled : started + cooldowns * (max 1 config.openSeconds * 1000000) ≤ openedAt)

structure Spent (net : Connection) (config : Config) (p : Provider) : Prop where
  enabled : p.manager.enabled = true
  configured : (p.manager.get "llm").toConfig = config
  requests : p.requests ≤ p.completions * mostRequests net
  accounted : Accounted config (net.times 0) (net.times p.reads) p.completions (p.manager.get "llm")

variable {config : Config} {p : Provider}

theorem Accounted.later {started now later : Int} {completions : Nat} {b : Breaker}
    (h : Accounted config started now completions b) (hlater : now ≤ later) :
    Accounted config started later completions b := by
  rcases h with ⟨state, counted, below⟩ |
      ⟨openedAt, cooldowns, state, opened, past, counted, cooled⟩
  · exact .counting state counted below
  · exact .opened openedAt cooldowns state opened (by omega) counted cooled

theorem Accounted.failed {started asked now : Int} {completions : Nat} {b admitted : Breaker}
    (h : Accounted config started asked completions b) (hconfig : b.toConfig = config)
    (hallow : b.allowRequest asked = .ok (true, admitted)) (hstarted : started ≤ asked)
    (hnow : asked ≤ now) (error : String) :
    (admitted.recordFailure error now).1.toConfig = config ∧
      Accounted config started now (completions + 1) (admitted.recordFailure error now).1 := by
  have hcases := allowRequest_cases b asked
  rw [hallow] at hcases
  subst hconfig
  rcases h with ⟨state, counted, below⟩ |
      ⟨openedAt, cooldowns, state, opened, past, counted, cooled⟩
  · cases hcases with
    | closed _ =>
      have hclosed : ¬ b.state = .halfOpen := by simp [state]
      unfold Breaker.recordFailure
      rw [if_neg hclosed]
      by_cases hreached : max 1 b.failureThreshold ≤ b.failureCount + 1
      · rw [if_pos hreached]
        refine ⟨rfl, .opened now 0 rfl rfl (Int.le_refl _) ?_ ?_⟩
        · push_cast
          omega
        · have hnone : ((0 : Nat) : Int) * (max 1 b.openSeconds * 1000000) = 0 := Int.zero_mul _
          omega
      · rw [if_neg hreached]
        refine ⟨rfl, .counting state ?_ ?_⟩
        · push_cast
          omega
        · exact Int.not_le.mp hreached
    | first openedAt hopen opened elapsed => simp [state] at hopen
    | another half left => simp [state] at half
  · cases hcases with
    | closed hclosed => simp [state] at hclosed
    | first openedAt' _ opened' elapsed =>
      obtain rfl : openedAt = openedAt' := Option.some.inj (opened.symm.trans opened')
      refine ⟨rfl, .opened now (cooldowns + 1) rfl rfl (Int.le_refl _) ?_ ?_⟩
      · push_cast
        omega
      · push_cast
        rw [Int.add_mul]
        omega
    | another half left => simp [state] at half

theorem refused_same {asked : Int} {b after : Breaker}
    (hallow : b.allowRequest asked = .ok (false, after)) : after = b := by
  have hcases := allowRequest_cases b asked
  rw [hallow] at hcases
  cases hcases with
  | waiting state early => rfl
  | used state none_left => rfl

def Provider.asked (p : Provider) (b : Breaker) : Provider :=
  { p with manager := p.manager.put b, reads := p.reads + 1 }

theorem wrapChat_error (henabled : p.manager.enabled = true) {e : PyError}
    (hallow : (p.manager.get "llm").allowRequest (net.times p.reads) = .error e) :
    (wrapChat net p).2 = { p with reads := p.reads + 1 } := by
  simp [wrapChat, henabled, Manager.ask, hallow]

theorem wrapChat_refused (henabled : p.manager.enabled = true) {b : Breaker}
    (hallow : (p.manager.get "llm").allowRequest (net.times p.reads) = .ok (false, b)) :
    (wrapChat net p).2 = p.asked b := by
  simp [wrapChat, henabled, Manager.ask, hallow, Provider.asked]

theorem wrapChat_admitted (henabled : p.manager.enabled = true) {b : Breaker}
    (hallow : (p.manager.get "llm").allowRequest (net.times p.reads) = .ok (true, b)) :
    (wrapChat net p).2 = (chatCompletion net (p.asked b)).2.concluded
      (chatCompletion net (p.asked b)).1 (net.times (p.reads + 1)) := by
  simp [wrapChat, henabled, Manager.ask, hallow, Provider.asked, chatCompletion]

theorem concluded_get (p : Provider) (e : ChatError) (now : Int) :
    (p.concluded (.error e) now).manager.get "llm" =
      ((p.manager.get "llm").recordFailure e.recorded.str now).1 :=
  get_put_self _ (by rw [recordFailure_service, get_service])

/-- What one use of the breaker leaves. -/
theorem wrapChat_spent (hdown : Down net) (htimes : Forward net) (h : Spent net config p) :
    Spent net config (wrapChat net p).2 := by
  obtain ⟨henabled, hconfigured, hrequests, haccounted⟩ := h
  have hnext : net.times p.reads ≤ net.times (p.reads + 1) := htimes _ _ (Nat.le_succ _)
  have hstarted : net.times 0 ≤ net.times p.reads := htimes _ _ (Nat.zero_le _)
  cases hallow : (p.manager.get "llm").allowRequest (net.times p.reads) with
  | error e =>
    rw [wrapChat_error henabled hallow]
    exact ⟨henabled, hconfigured, hrequests, haccounted.later hnext⟩
  | ok answer =>
    obtain ⟨allowed, b⟩ := answer
    have hservice : b.service = "llm" := by rw [allowRequest_service hallow, get_service]
    have hget : (p.asked b).manager.get "llm" = b := get_put_self _ hservice
    cases allowed with
    | false =>
      rw [wrapChat_refused henabled hallow]
      obtain rfl := refused_same hallow
      refine ⟨henabled, ?_, hrequests, ?_⟩
      · rwa [hget]
      · rw [hget]
        exact haccounted.later hnext
    | true =>
      obtain ⟨e, he⟩ := chatCompletion_down hdown (p.asked b)
      have hissued := request_issued net (p.asked b)
      have hlater : net.times (p.reads + 1) ≤ net.times (p.reads + 2) := htimes _ _ (Nat.le_succ _)
      obtain ⟨hconfig, hfailed⟩ :=
        haccounted.failed hconfigured hallow hstarted hnext e.recorded.str
      have hsame : (chatCompletion net (p.asked b)).2.manager.get "llm" = b := hget
      rw [wrapChat_admitted henabled hallow, he]
      refine ⟨henabled, ?_, ?_, ?_⟩
      · rwa [concluded_get, hsame]
      · change p.requests + (request net (p.asked b)).2.issued ≤
          (p.completions + 1) * mostRequests net
        rw [Nat.add_mul]
        omega
      · rw [concluded_get, hsame]
        exact hfailed.later hlater

theorem attempts_spent (hdown : Down net) (htimes : Forward net) (left : Nat)
    (lastError : Option String) (h : Spent net config p) :
    Spent net config (attempts net left lastError p).2 := by
  induction left generalizing p lastError with
  | zero => exact h
  | succ left ih =>
    have hafter := wrapChat_spent hdown htimes h
    rw [attempts]
    dsimp only
    split
    · exact hafter
    · exact ih _ hafter

theorem advance_spent (hdown : Down net) (htimes : Forward net) (provider : String)
    (prompt : Prompt) (h : Spent net config p) :
    Spent net config (advance net provider p prompt) := by
  unfold advance call
  split
  · exact h
  · split
    · exact attempts_spent hdown htimes 2 none h
    · exact h

theorem spent_fresh (net : Connection) {m : Manager} (henabled : m.enabled = true)
    (hfresh : m.get "llm" = fresh "llm" config) : Spent net config ⟨m, 0, 0, 0⟩ := by
  refine ⟨henabled, congrArg Breaker.toConfig hfresh, Nat.zero_le _, ?_⟩
  rw [hfresh]
  have hbelow : (0 : Int) < max 1 config.failureThreshold := by omega
  exact .counting rfl rfl hbelow

theorem completion_issues (net : Connection) (p : Provider) :
    (chatCompletion net p).2.requests ≤ p.requests + mostRequests net :=
  Nat.add_le_add_left (request_issued net p) p.requests

/-- Over any run of calls while the server is down, the completions are at most the threshold
and one for each cooldown since the first look at the clock, and each completion issues no more
requests than its retries allow. -/
theorem down_server_spared (hdown : Down net) (htimes : Forward net) {m : Manager}
    (henabled : m.enabled = true) (hfresh : m.get "llm" = fresh "llm" config) (provider : String)
    (prompts : List Prompt) :
    let p := SerialRun.final (advance net provider) ⟨m, 0, 0, 0⟩ prompts
    (p.completions : Int) ≤ max 1 config.failureThreshold +
        (net.times p.reads - net.times 0) / (max 1 config.openSeconds * 1000000) ∧
      p.requests ≤ p.completions * mostRequests net ∧
      ∀ before, (chatCompletion net before).2.requests ≤ before.requests + mostRequests net := by
  intro p
  have hspent : Spent net config p := SerialRun.invariant_final
    (fun s prompt h => advance_spent hdown htimes provider prompt h)
    (spent_fresh net henabled hfresh) prompts
  have hcooldown : 0 < max 1 config.openSeconds * 1000000 := by omega
  have helapsed : net.times 0 ≤ net.times p.reads := htimes _ _ (Nat.zero_le _)
  refine ⟨?_, hspent.requests, completion_issues net⟩
  rcases hspent.accounted with ⟨state, counted, below⟩ |
      ⟨openedAt, cooldowns, state, opened, past, counted, cooled⟩
  · have hnonneg : 0 ≤ (net.times p.reads - net.times 0) / (max 1 config.openSeconds * 1000000) :=
      Int.ediv_nonneg (by omega) (by omega)
    omega
  · have hcooldowns : (cooldowns : Int) ≤
        (net.times p.reads - net.times 0) / (max 1 config.openSeconds * 1000000) :=
      (Int.le_ediv_iff_mul_le hcooldown).mpr (by omega)
    omega

end Down

def unreachable : Connection where
  lib := { toRuntime := PolicyOverrides.exampleRuntime, loadsRaises _ := none,
           zoneInfo _ := .notFound }
  env := ⟨fun _ => none, fun _ => none⟩
  clock := ⟨fun _ => 0, fun _ => none⟩
  url := "http://127.0.0.1:8001/v1/chat/completions"
  times n := n * 1000000
  outcomes _ := .failed ⟨.connectError, "connection refused"⟩

theorem unreachable_down : Down unreachable := by
  intro n r h
  cases h

theorem unreachable_forward : Forward unreachable := by
  intro i j hij
  change (i : Int) * 1000000 ≤ j * 1000000
  omega

def downConfig : Config := ⟨3, 60, 1⟩

def freshManager : Manager := ⟨true, downConfig, [fresh "llm" downConfig]⟩

theorem unreachable_spared :
    let p := SerialRun.final (advance unreachable "http") ⟨freshManager, 0, 0, 0⟩
      [⟨"", "a"⟩, ⟨"", "b"⟩, ⟨"", "c"⟩]
    (p.completions : Int) ≤ max 1 downConfig.failureThreshold +
        (unreachable.times p.reads - unreachable.times 0) /
          (max 1 downConfig.openSeconds * 1000000) ∧
      p.requests ≤ p.completions * mostRequests unreachable ∧
      ∀ before, (chatCompletion unreachable before).2.requests ≤
        before.requests + mostRequests unreachable :=
  down_server_spared unreachable_down unreachable_forward rfl rfl "http" _

end LlmCalls
