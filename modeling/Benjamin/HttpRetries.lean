import Benjamin.PyBase
import Benjamin.RetryLoop
import Mathlib.Algebra.Group.Int.Defs
import Mathlib.Algebra.Group.Nat.Defs
import Mathlib.Tactic.Common

/-!
# The two HTTP clients

`request_with_retry` and `request_json`: two loops over the same kind of outcomes, each with
its own idea of what is worth another attempt. What is sent along with a request, and the
connection itself, are left out.
-/
namespace HttpRetries

open PyBase RetryLoop Effect

/-- The classes below `httpx.HTTPError`. -/
inductive HttpxClass where
  | connectTimeout | readTimeout | writeTimeout | poolTimeout
  | connectError | readError | writeError | closeError
  | localProtocolError | remoteProtocolError
  | proxyError | unsupportedProtocol | decodingError | tooManyRedirects | httpStatusError
  deriving DecidableEq, Repr

namespace HttpxClass

def name : HttpxClass → String
  | .connectTimeout => "ConnectTimeout"
  | .readTimeout => "ReadTimeout"
  | .writeTimeout => "WriteTimeout"
  | .poolTimeout => "PoolTimeout"
  | .connectError => "ConnectError"
  | .readError => "ReadError"
  | .writeError => "WriteError"
  | .closeError => "CloseError"
  | .localProtocolError => "LocalProtocolError"
  | .remoteProtocolError => "RemoteProtocolError"
  | .proxyError => "ProxyError"
  | .unsupportedProtocol => "UnsupportedProtocol"
  | .decodingError => "DecodingError"
  | .tooManyRedirects => "TooManyRedirects"
  | .httpStatusError => "HTTPStatusError"

/-- A `TimeoutException`. -/
def isTimeout : HttpxClass → Bool
  | .connectTimeout | .readTimeout | .writeTimeout | .poolTimeout => true
  | _ => false

/-- A `NetworkError`. -/
def isNetwork : HttpxClass → Bool
  | .connectError | .readError | .writeError | .closeError => true
  | _ => false

end HttpxClass

structure HttpxError where
  type : HttpxClass
  message : String

/-- `json` is what `response.json()` returns or raises. -/
structure Response where
  statusCode : Nat
  json : Except PyError Json

/-- An exception that is no `httpx.HTTPError` passes through both clients. -/
inductive Outcome where
  | response (r : Response)
  | failed (exc : HttpxError)
  | raised (exc : PyError)

def isSuccess (status : Nat) : Bool := decide (200 ≤ status ∧ status < 300)

/-- `int` is `none` for a text that `int()` does not read. -/
structure Environment where
  getenv : String → Option String
  int : String → Option Int

/-- `_get_int_env`, which both clients have. -/
def getIntEnv (env : Environment) (name : String) (default : Int) : Int :=
  match env.getenv name with
  | none => default
  | some raw => (env.int raw).getD default

/-- The bound on the attempts, which both clients compute: the variable is taken as it is. -/
def maxRetries (env : Environment) (retries : Option Int) : Int :=
  match retries with
  | none => getIntEnv env "BENJAMIN_HTTP_RETRIES" 2
  | some n => max 0 n

def requestedRetries (env : Environment) (retries : Option Int) : Int :=
  retries.getD (getIntEnv env "BENJAMIN_HTTP_RETRIES" 2)

def floatOverflow : PyError := .overflowError "int too large to convert to float"

inductive HttpClientError where
  | network (message : String)
  | status (message : String) (statusCode : Nat)
  | raised (exc : PyError)

structure RetryCall where
  url : String
  redactUrl : Bool
  allowedStatuses : Option (List Nat)
  retries : Option Int

def safeUrl (call : RetryCall) : String := if call.redactUrl then "[redacted-url]" else call.url

def retryableStatusCodes : List Nat := [429, 500, 502, 503, 504]

def retryableExceptions : List HttpxClass := [.connectError, .readTimeout, .remoteProtocolError]

/-- `_sleep_for_retry`: `2**attempt` has to become a float. `sleep` is what `time.sleep`
raises for the wait after an attempt. -/
def sleepForRetry (sleep : Nat → Option PyError) (attempt : Nat) : Option HttpClientError :=
  (if 1024 ≤ attempt then some floatOverflow else sleep attempt).map .raised

def statusAllowed (call : RetryCall) (status : Nat) : Bool :=
  call.allowedStatuses.any fun allowed => decide (status ∈ allowed)

section WithRetry

variable (env : Environment) (sleep : Nat → Option PyError) (call : RetryCall)

def onResponse (attempt : Nat) (response : Response) :
    Attempts HttpClientError (Option HttpxError) (Option Response) :=
  let status := response.statusCode
  if statusAllowed call status then pure (some response)
  else if isSuccess status then pure (some response)
  else if status ∈ retryableStatusCodes ∧ (attempt : Int) < maxRetries env call.retries then do
    pause (sleepForRetry sleep attempt)
    pure none
  else
    Prog.raise (.status ("HTTP status " ++ toString status ++ " for " ++ safeUrl call) status)

def onException (attempt : Nat) (exc : HttpxError) :
    Attempts HttpClientError (Option HttpxError) (Option Response) :=
  if exc.type ∈ retryableExceptions then do
    keep fun _ => some exc
    if maxRetries env call.retries ≤ attempt then
      Prog.raise (.network ("HTTP request failed after retries for " ++ safeUrl call ++ ": " ++
        exc.type.name))
    else do
      pause (sleepForRetry sleep attempt)
      pure none
  else
    Prog.raise (.network ("HTTP request error for " ++ safeUrl call ++ ": " ++ exc.type.name))

def attemptRequest (outcomes : Nat → Outcome) (attempt : Nat) :
    Attempts HttpClientError (Option HttpxError) (Option Response) := do
  let outcome ← issue outcomes
  match outcome with
  | .response response => onResponse env sleep call attempt response
  | .failed exc => onException env sleep call attempt exc
  | .raised exc => Prog.raise (.raised exc)

def requestFailed (lastExc : Option HttpxError) : HttpClientError :=
  .network ("HTTP request failed for " ++ safeUrl call ++ ": " ++
    (lastExc.map HttpxError.message).getD "None")

def requestWithRetry (outcomes : Nat → Outcome) :
    Attempts HttpClientError (Option HttpxError) Response :=
  forAttempts (attemptRequest env sleep call outcomes) (runOut (requestFailed call)) 0
    (maxRetries env call.retries + 1).toNat

end WithRetry

inductive HttpRequestError where
  | timeout (message : String)
  | connection (message : String)
  | rateLimit (message : String)
  | server (message : String)
  | client (message : String)
  | request (message : String)
  | raised (exc : PyError)

structure JsonCall where
  method : String
  url : String
  retries : Option Int
  backoffBaseMs : Option Int

/-- The two clients' waits have nothing in common but that they double. `jitter` is the
random part, `sleep` what `time.sleep` raises for so many milliseconds. -/
structure Clock where
  jitter : Nat → Int
  sleep : Int → Option PyError

def backoffBase (env : Environment) (call : JsonCall) : Int :=
  match call.backoffBaseMs with
  | none => getIntEnv env "BENJAMIN_HTTP_BACKOFF_BASE_MS" 250
  | some n => max 1 n

/-- `_sleep_backoff`: the milliseconds are divided as a float. -/
def sleepBackoff (clock : Clock) (baseMs : Int) (attempt : Nat) : Option HttpRequestError :=
  let sleepMs := baseMs * 2 ^ attempt + clock.jitter attempt
  (if 2 ^ 1024 - 2 ^ 970 ≤ sleepMs.natAbs then some floatOverflow
    else clock.sleep sleepMs).map .raised

section Json

variable (env : Environment) (clock : Clock) (call : JsonCall)

def tryAgain (attempt : Nat) (error : HttpRequestError) :
    Attempts HttpRequestError Unit (Option Dict) :=
  if maxRetries env call.retries ≤ attempt then Prog.raise error
  else do
    pause (sleepBackoff clock (backoffBase env call) attempt)
    pure none

def requested (error : String) : String := error ++ ":" ++ call.method ++ ":" ++ call.url

def jsonPayload : Json → Dict
  | .obj fields => fields
  | payload => [("data", payload)]

def onJsonResponse (attempt : Nat) (response : Response) :
    Attempts HttpRequestError Unit (Option Dict) :=
  let status := response.statusCode
  if isSuccess status then
    match response.json with
    | .ok payload => pure (some (jsonPayload payload))
    | .error exc => Prog.raise (.raised exc)
  else if status = 429 then
    tryAgain env clock call attempt (.rateLimit (requested call "request_rate_limited"))
  else if 500 ≤ status then
    tryAgain env clock call attempt
      (.server (requested call ("request_server_error:" ++ toString status)))
  else Prog.raise (.client (requested call ("request_client_error:" ++ toString status)))

def onJsonException (attempt : Nat) (exc : HttpxError) :
    Attempts HttpRequestError Unit (Option Dict) :=
  if exc.type.isTimeout then
    tryAgain env clock call attempt (.timeout (requested call "request_timeout"))
  else if exc.type.isNetwork ∨ exc.type = .remoteProtocolError then
    tryAgain env clock call attempt (.connection (requested call "request_connection_error"))
  else
    Prog.raise (.connection (requested call "request_http_error" ++ ":" ++ exc.type.name))

def attemptJson (outcomes : Nat → Outcome) (attempt : Nat) :
    Attempts HttpRequestError Unit (Option Dict) := do
  let outcome ← issue outcomes
  match outcome with
  | .response response => onJsonResponse env clock call attempt response
  | .failed exc => onJsonException env clock call attempt exc
  | .raised exc => Prog.raise (.raised exc)

def requestJson (outcomes : Nat → Outcome) : Attempts HttpRequestError Unit Dict :=
  forAttempts (attemptJson env clock call outcomes)
    (runOut fun _ => .request (requested call "request_unknown_error")) 0
    (maxRetries env call.retries + 1).toNat

end Json

/-- How `request_with_retry` sees an outcome. -/
def retryPolicy (call : RetryCall) : Policy Outcome HttpClientError Response where
  retryable
    | .response r => !statusAllowed call r.statusCode && !isSuccess r.statusCode &&
        decide (r.statusCode ∈ retryableStatusCodes)
    | .failed exc => decide (exc.type ∈ retryableExceptions)
    | .raised _ => false
  verdict
    | .response r =>
      if statusAllowed call r.statusCode || isSuccess r.statusCode then .ok r
      else .error (.status ("HTTP status " ++ toString r.statusCode ++ " for " ++ safeUrl call)
        r.statusCode)
    | .failed exc =>
      .error (.network ((if exc.type ∈ retryableExceptions
        then "HTTP request failed after retries for " else "HTTP request error for ") ++
          safeUrl call ++ ": " ++ exc.type.name))
    | .raised exc => .error (.raised exc)

/-- How `request_json` sees an outcome. -/
def jsonPolicy (call : JsonCall) : Policy Outcome HttpRequestError Dict where
  retryable
    | .response r => !isSuccess r.statusCode && decide (r.statusCode = 429 ∨ 500 ≤ r.statusCode)
    | .failed exc =>
      exc.type.isTimeout || exc.type.isNetwork || decide (exc.type = .remoteProtocolError)
    | .raised _ => false
  verdict
    | .response r =>
      if isSuccess r.statusCode then
        match r.json with
        | .ok payload => .ok (jsonPayload payload)
        | .error exc => .error (.raised exc)
      else .error (
        if r.statusCode = 429 then .rateLimit (requested call "request_rate_limited")
        else if 500 ≤ r.statusCode then
          .server (requested call ("request_server_error:" ++ toString r.statusCode))
        else .client (requested call ("request_client_error:" ++ toString r.statusCode)))
    | .failed exc => .error (
        if exc.type.isTimeout then .timeout (requested call "request_timeout")
        else if exc.type.isNetwork ∨ exc.type = .remoteProtocolError then
          .connection (requested call "request_connection_error")
        else .connection (requested call "request_http_error" ++ ":" ++ exc.type.name))
    | .raised exc => .error (.raised exc)

section Following

variable {ε α τ : Type} {p : Policy Outcome ε α} {wait : Nat → Option ε} {last : Int} {k : Nat}
  {o : Outcome} {c₀ c : Calls τ}

def Answers (p : Policy Outcome ε α) (wait : Nat → Option ε) (last : Int) (k : Nat) (o : Outcome)
    (c : Calls τ) (r : Except ε (Option α)) (c' : Calls τ) : Prop :=
  c'.issued = c.issued ∧ c'.exhausted = c.exhausted ∧ r = p.attempt wait last k o

theorem ends_final {x : Attempts ε τ (Option α)} (hx : x c = ((p.verdict o).map some, c))
    (h : p.retryable o = false ∨ last ≤ k) : Ends x c (Answers p wait last k o c) := by
  rw [Ends, hx]
  refine ⟨rfl, rfl, ?_⟩
  rw [Policy.attempt, if_neg]
  rintro ⟨hretryable, hdue⟩
  rcases h with h | h
  · rw [hretryable] at h
    cases h
  · omega

theorem ends_pause (hretryable : p.retryable o = true) (hdue : (k : Int) < last) :
    Ends (do
      pause (wait k)
      pure none) c (Answers p wait last k o c) := by
  rw [Ends, Answers, Policy.attempt, if_pos ⟨hretryable, hdue⟩]
  cases wait k <;> exact ⟨rfl, rfl, rfl⟩

end Following

section Clients

variable (env : Environment)

theorem onResponse_ends (sleep : Nat → Option PyError) (call : RetryCall) (k : Nat) (r : Response)
    (c : Calls (Option HttpxError)) :
    Ends (onResponse env sleep call k r) c
      (Answers (retryPolicy call) (sleepForRetry sleep) (maxRetries env call.retries) k
        (.response r) c) := by
  unfold onResponse
  dsimp only
  by_cases hallowed : statusAllowed call r.statusCode = true
  · rw [if_pos hallowed]
    exact ends_final (by simp [retryPolicy, hallowed, Except.map]) (by simp [retryPolicy, hallowed])
  · rw [if_neg hallowed]
    rw [Bool.not_eq_true] at hallowed
    by_cases hsuccess : isSuccess r.statusCode = true
    · rw [if_pos hsuccess]
      exact ends_final (by simp [retryPolicy, hsuccess, Except.map])
        (by simp [retryPolicy, hsuccess])
    · rw [if_neg hsuccess]
      rw [Bool.not_eq_true] at hsuccess
      by_cases hagain : r.statusCode ∈ retryableStatusCodes ∧
          (k : Int) < maxRetries env call.retries
      · rw [if_pos hagain]
        exact ends_pause (by simp [retryPolicy, hallowed, hsuccess, hagain.1]) hagain.2
      · rw [if_neg hagain]
        refine ends_final (by simp [retryPolicy, hallowed, hsuccess, Except.map]) ?_
        by_cases hstatus : r.statusCode ∈ retryableStatusCodes
        · exact .inr (Int.not_lt.mp fun hdue => hagain ⟨hstatus, hdue⟩)
        · exact .inl (by simp [retryPolicy, hstatus])

theorem onException_ends (sleep : Nat → Option PyError) (call : RetryCall) (k : Nat)
    (exc : HttpxError) (c : Calls (Option HttpxError)) :
    Ends (onException env sleep call k exc) c
      (Answers (retryPolicy call) (sleepForRetry sleep) (maxRetries env call.retries) k
        (.failed exc) c) := by
  rw [onException]
  by_cases hretryable : exc.type ∈ retryableExceptions
  · rw [if_pos hretryable]
    refine keep_ends ?_
    by_cases hlast : maxRetries env call.retries ≤ k
    · rw [if_pos hlast]
      exact ends_final (by simp [retryPolicy, hretryable, Except.map]) (.inr hlast)
    · rw [if_neg hlast]
      exact ends_pause (by simp [retryPolicy, hretryable]) (Int.not_le.mp hlast)
  · rw [if_neg hretryable]
    exact ends_final (by simp [retryPolicy, hretryable, Except.map])
      (.inl (by simp [retryPolicy, hretryable]))

theorem attemptRequest_follows (sleep : Nat → Option PyError) (call : RetryCall)
    (outcomes : Nat → Outcome) :
    Follows (retryPolicy call) (sleepForRetry sleep) outcomes (maxRetries env call.retries)
      (attemptRequest env sleep call outcomes) := by
  intro k c
  refine issue_ends ?_
  cases outcomes c.issued with
  | response r => exact onResponse_ends env sleep call k r _
  | failed exc => exact onException_ends env sleep call k exc _
  | raised exc => exact ends_final rfl (.inl rfl)

theorem tryAgain_ends (clock : Clock) (call : JsonCall) (k : Nat) {o : Outcome}
    {error : HttpRequestError} (hretryable : (jsonPolicy call).retryable o = true)
    (hverdict : (jsonPolicy call).verdict o = .error error) (c : Calls Unit) :
    Ends (tryAgain env clock call k error) c
      (Answers (jsonPolicy call) (sleepBackoff clock (backoffBase env call))
        (maxRetries env call.retries) k o c) := by
  rw [tryAgain]
  by_cases hlast : maxRetries env call.retries ≤ k
  · rw [if_pos hlast]
    exact ends_final (by simp [hverdict, Except.map]) (.inr hlast)
  · rw [if_neg hlast]
    exact ends_pause hretryable (Int.not_le.mp hlast)

theorem onJsonResponse_ends (clock : Clock) (call : JsonCall) (k : Nat) (r : Response)
    (c : Calls Unit) :
    Ends (onJsonResponse env clock call k r) c
      (Answers (jsonPolicy call) (sleepBackoff clock (backoffBase env call))
        (maxRetries env call.retries) k (.response r) c) := by
  unfold onJsonResponse
  dsimp only
  by_cases hsuccess : isSuccess r.statusCode = true
  · rw [if_pos hsuccess]
    cases hjson : r.json with
    | ok payload =>
      exact ends_final (by simp [jsonPolicy, hsuccess, hjson, Except.map])
        (.inl (by simp [jsonPolicy, hsuccess]))
    | error exc =>
      exact ends_final (by simp [jsonPolicy, hsuccess, hjson, Except.map])
        (.inl (by simp [jsonPolicy, hsuccess]))
  · rw [if_neg hsuccess]
    rw [Bool.not_eq_true] at hsuccess
    by_cases hlimited : r.statusCode = 429
    · rw [if_pos hlimited]
      have hfailed : isSuccess 429 = false := by decide
      exact tryAgain_ends env clock call k (by simp [jsonPolicy, hfailed, hlimited])
        (by simp [jsonPolicy, hfailed, hlimited]) c
    · rw [if_neg hlimited]
      by_cases hserver : 500 ≤ r.statusCode
      · rw [if_pos hserver]
        exact tryAgain_ends env clock call k (by simp [jsonPolicy, hsuccess, hserver])
          (by simp [jsonPolicy, hsuccess, hlimited, hserver]) c
      · rw [if_neg hserver]
        exact ends_final (by simp [jsonPolicy, hsuccess, hlimited, hserver, Except.map])
          (.inl (by simp [jsonPolicy, hsuccess, hlimited, hserver]))

theorem onJsonException_ends (clock : Clock) (call : JsonCall) (k : Nat) (exc : HttpxError)
    (c : Calls Unit) :
    Ends (onJsonException env clock call k exc) c
      (Answers (jsonPolicy call) (sleepBackoff clock (backoffBase env call))
        (maxRetries env call.retries) k (.failed exc) c) := by
  rw [onJsonException]
  by_cases htimeout : exc.type.isTimeout = true
  · rw [if_pos htimeout]
    exact tryAgain_ends env clock call k (by simp [jsonPolicy, htimeout])
      (by simp [jsonPolicy, htimeout]) c
  · rw [if_neg htimeout]
    rw [Bool.not_eq_true] at htimeout
    by_cases hnetwork : exc.type.isNetwork ∨ exc.type = .remoteProtocolError
    · rw [if_pos hnetwork]
      exact tryAgain_ends env clock call k (by simpa [jsonPolicy, htimeout] using hnetwork)
        (by simp [jsonPolicy, htimeout, hnetwork]) c
    · rw [if_neg hnetwork]
      exact ends_final (by simp [jsonPolicy, htimeout, hnetwork, Except.map])
        (.inl (by simpa [jsonPolicy, htimeout] using hnetwork))

theorem attemptJson_follows (clock : Clock) (call : JsonCall) (outcomes : Nat → Outcome) :
    Follows (jsonPolicy call) (sleepBackoff clock (backoffBase env call)) outcomes
      (maxRetries env call.retries) (attemptJson env clock call outcomes) := by
  intro k c
  refine issue_ends ?_
  cases outcomes c.issued with
  | response r => exact onJsonResponse_ends env clock call k r _
  | failed exc => exact onJsonException_ends env clock call k exc _
  | raised exc => exact ends_final rfl (.inl rfl)

theorem requested_max (retries : Option Int) :
    max 0 (requestedRetries env retries) = max 0 (maxRetries env retries) := by
  cases retries with
  | none => rfl
  | some n =>
    simp only [requestedRetries, maxRetries, Option.getD_some]
    omega

def NotNegative (retries : Option Int) : Prop :=
  retries.isSome = true ∨ 0 ≤ getIntEnv env "BENJAMIN_HTTP_RETRIES" 2

theorem maxRetries_nonneg_iff (retries : Option Int) :
    0 ≤ maxRetries env retries ↔ NotNegative env retries := by
  unfold NotNegative maxRetries
  cases retries with
  | none => simp
  | some n =>
    simp only [Option.isSome_some, true_or, iff_true]
    omega

theorem tries_of_ran {ε α τ : Type} {p : Policy Outcome ε α} {wait : Nat → Option ε}
    {outcomes : Nat → Outcome} {retries : Option Int} {r : Except ε α} {c : Calls τ}
    (h : Ran p wait outcomes (maxRetries env retries) r c) :
    Tries p outcomes (requestedRetries env retries) r c ↔
      NotNegative env retries ∧ Unbroken p wait outcomes (maxRetries env retries) := by
  rw [tries_congr (requested_max env retries), tries_iff h, maxRetries_nonneg_iff]

/-- When the clients do what is expected of them: no negative number of retries comes from
the environment, and no wait that is followed by an attempt raises. -/
theorem clients_try_iff (sleep : Nat → Option PyError) (clock : Clock) (call : RetryCall)
    (jsonCall : JsonCall) (outcomes : Nat → Outcome) :
    (Tries (retryPolicy call) outcomes (requestedRetries env call.retries)
          (requestWithRetry env sleep call outcomes (start none)).1
          (requestWithRetry env sleep call outcomes (start none)).2 ↔
        NotNegative env call.retries ∧ Unbroken (retryPolicy call) (sleepForRetry sleep) outcomes
          (maxRetries env call.retries)) ∧
      (Tries (jsonPolicy jsonCall) outcomes (requestedRetries env jsonCall.retries)
          (requestJson env clock jsonCall outcomes (start ())).1
          (requestJson env clock jsonCall outcomes (start ())).2 ↔
        NotNegative env jsonCall.retries ∧ Unbroken (jsonPolicy jsonCall)
          (sleepBackoff clock (backoffBase env jsonCall)) outcomes
          (maxRetries env jsonCall.retries)) :=
  ⟨tries_of_ran env (loop_ran (attemptRequest_follows env sleep call outcomes)),
    tries_of_ran env (loop_ran (attemptJson_follows env clock jsonCall outcomes))⟩

end Clients

def negativeRetries : Environment where
  getenv name := if name = "BENJAMIN_HTTP_RETRIES" then some "-1" else none
  int s := if s = "-1" then some (-1) else none

/-- No request is issued, although the server would have answered. -/
theorem nothing_requested :
    let call : RetryCall := ⟨"http://service.local/test", false, none, none⟩
    let jsonCall : JsonCall := ⟨"GET", "http://service.local/test", none, none⟩
    let clock : Clock := ⟨fun _ => 0, fun _ => none⟩
    let outcomes := fun _ => Outcome.response ⟨200, .ok .null⟩
    let (r, c) := requestWithRetry negativeRetries (fun _ => none) call outcomes (start none)
    let (r', c') := requestJson negativeRetries clock jsonCall outcomes (start ())
    r = .error (.network "HTTP request failed for http://service.local/test: None") ∧
      c = ⟨0, true, none⟩ ∧
      ¬ Tries (retryPolicy call) outcomes (requestedRetries negativeRetries none) r c ∧
      r' = .error (.request "request_unknown_error:GET:http://service.local/test") ∧
      c' = ⟨0, true, ()⟩ ∧
      ¬ Tries (jsonPolicy jsonCall) outcomes (requestedRetries negativeRetries none) r' c' := by
  refine ⟨rfl, rfl, fun h => ?_, rfl, rfl, fun h => ?_⟩
  · exact absurd h.within (by decide)
  · exact absurd h.within (by decide)

end HttpRetries
