import Benjamin.Orchestrator

/-!
# The gate of the web app

`auth_middleware` and the routes behind it. The gate looks at the path of the URL and the router
at the path of the request; what the web framework makes of a request is a parameter. In the
token mode a request without the token reaches the reads, the login, and the chat unless that is
exposed, as long as its Host header does not change the path that the gate sees.
-/
namespace ApiGate

open PyBase PlanSchemas
open Orchestration (startsWith)

structure AuthEnv where
  authMode : Option String
  authToken : Option String
  exposePublic : Option String

structure Request where
  method : String
  path : String
  query : String
  host : Option String
  headerToken : Option String
  cookieToken : Option String
  correlationHeader : Option String

section Auth

variable (rt : Runtime) (env : AuthEnv)

def getAuthMode : String := rt.casefold (strip (env.authMode.getD "token"))

def isAuthEnabled : Bool := decide (getAuthMode rt env = "token")

def getRequiredToken : Except PyError String :=
  let token := env.authToken.getD ""
  if isAuthEnabled rt env ∧ token = "" then
    .error (.other "BENJAMIN_AUTH_TOKEN must be set when BENJAMIN_AUTH_MODE=token")
  else .ok token

def extractToken (r : Request) : Option String :=
  (truthy r.headerToken).or (truthy r.cookieToken)

def isAscii (s : String) : Bool := s.toList.all fun c => decide (c.toNat < 128)

/-- `hmac.compare_digest` of two strings. -/
def compareDigest (a b : String) : Except PyError Bool :=
  if isAscii a && isAscii b then .ok (decide (a = b))
  else .error (.typeError "comparing strings with non-ASCII characters is not supported")

def isRequestAuthenticated (r : Request) : Except PyError Bool :=
  if isAuthEnabled rt env then
    match getRequiredToken rt env with
    | .error e => .error e
    | .ok required =>
      match extractToken r with
      | none => .ok false
      | some provided => compareDigest provided required
  else .ok true

def shouldProtectChatPost : Bool :=
  decide (rt.casefold (strip (env.exposePublic.getD "off")) = "on")

end Auth

def upper (s : String) : String := String.ofList (s.toList.map Char.toUpper)

inductive Gate where
  | callNext
  | redirectToLogin
  | unauthorized
  deriving DecidableEq

def protectedPrefixes : List String :=
  ["/approvals", "/jobs", "/rules", "/memory", "/v1/security", "/v1/ops"]

def writeMethods : List String := ["POST", "PUT", "PATCH", "DELETE"]

def unlessAuthenticated (rt : Runtime) (env : AuthEnv) (r : Request)
    (refusal : Gate) (next : Except PyError Gate) : Except PyError Gate :=
  match isRequestAuthenticated rt env r with
  | .error e => .error e
  | .ok true => next
  | .ok false => .ok refusal

inductive Endpoint where
  | openapi | swaggerUi | oauth2Redirect | redoc
  | chat
  | createTask
  | listSemantic | upsertSemantic | listEpisodic
  | listJobs | createReminder | upsertDailyBriefing | deleteJob
  | integrationsStatus
  | listApprovals | approveApproval | rejectApproval
  | listRules | createRule | rulesFromText | updateRule | enableRule | disableRule | deleteRule
  | resetRuleState | evaluateNow | testExistingRule | testDraftRule
  | getScopes | enableScopes | disableScopes | setRulesAllowedScopes | resetRulesAllowedScopes
  | getDoctorReport
  | getSafeMode | enableSafeMode | disableSafeMode
  | getMaintenanceStatus | runDoctorNow | runCompactNow
  | uiRoot | uiLogin | uiLoginPost | uiLogout | uiChat | uiChatPost | uiOps | uiOpsRunDoctor
  | uiOpsRunCompact | uiDoctor | uiApprovals | uiApprove | uiReject | uiJobs | uiJobsReminder
  | uiJobsBriefing | uiRules | uiCreateRule | uiEnableRule | uiDisableRule | uiDeleteRule
  | uiResetRuleState | uiRulesEval | uiMemory | uiMemoryUpsert | uiScopes | uiScopesSave | uiRuns
  | uiCorrelationView | uiRunChatDetail | uiRunApprovalDetail | uiRunRuleDetail
  | runsSearch | health | healthz | healthzFull
  deriving DecidableEq

structure Route where
  method : String
  path : String
  endpoint : Endpoint
  deriving DecidableEq

def chatRoutes : List Route :=
  [⟨"POST", "/chat/", .chat⟩]

def tasksRoutes : List Route :=
  [⟨"POST", "/tasks/", .createTask⟩]

def memoryRoutes : List Route :=
  [⟨"GET", "/memory/semantic", .listSemantic⟩,
    ⟨"POST", "/memory/semantic", .upsertSemantic⟩,
    ⟨"GET", "/memory/episodic", .listEpisodic⟩]

def jobsRoutes : List Route :=
  [⟨"GET", "/jobs", .listJobs⟩,
    ⟨"POST", "/jobs/reminder", .createReminder⟩,
    ⟨"POST", "/jobs/daily-briefing", .upsertDailyBriefing⟩,
    ⟨"DELETE", "/jobs/{job_id}", .deleteJob⟩]

def integrationsRoutes : List Route :=
  [⟨"GET", "/integrations/status", .integrationsStatus⟩]

def approvalsRoutes : List Route :=
  [⟨"GET", "/approvals", .listApprovals⟩,
    ⟨"POST", "/approvals/{approval_id}/approve", .approveApproval⟩,
    ⟨"POST", "/approvals/{approval_id}/reject", .rejectApproval⟩]

def rulesRoutes : List Route :=
  [⟨"GET", "/rules", .listRules⟩,
    ⟨"POST", "/rules", .createRule⟩,
    ⟨"POST", "/rules/from-text", .rulesFromText⟩,
    ⟨"PUT", "/rules/{rule_id}", .updateRule⟩,
    ⟨"POST", "/rules/{rule_id}/enable", .enableRule⟩,
    ⟨"POST", "/rules/{rule_id}/disable", .disableRule⟩,
    ⟨"DELETE", "/rules/{rule_id}", .deleteRule⟩,
    ⟨"POST", "/rules/{rule_id}/reset-state", .resetRuleState⟩,
    ⟨"POST", "/rules/evaluate-now", .evaluateNow⟩,
    ⟨"POST", "/rules/{rule_id}/test", .testExistingRule⟩,
    ⟨"POST", "/rules/test", .testDraftRule⟩]

def securityRoutes : List Route :=
  [⟨"GET", "/v1/security/scopes", .getScopes⟩,
    ⟨"POST", "/v1/security/scopes/enable", .enableScopes⟩,
    ⟨"POST", "/v1/security/scopes/disable", .disableScopes⟩,
    ⟨"POST", "/v1/security/rules/allowed-scopes", .setRulesAllowedScopes⟩,
    ⟨"POST", "/v1/security/rules/allowed-scopes/reset", .resetRulesAllowedScopes⟩]

def opsRoutes : List Route :=
  [⟨"GET", "/v1/ops/doctor", .getDoctorReport⟩]

def opsSafeRoutes : List Route :=
  [⟨"GET", "/v1/ops/safe-mode", .getSafeMode⟩,
    ⟨"POST", "/v1/ops/safe-mode/enable", .enableSafeMode⟩,
    ⟨"POST", "/v1/ops/safe-mode/disable", .disableSafeMode⟩]

def opsMaintRoutes : List Route :=
  [⟨"GET", "/v1/ops/maintenance", .getMaintenanceStatus⟩,
    ⟨"POST", "/v1/ops/maintenance/run-doctor-now", .runDoctorNow⟩,
    ⟨"POST", "/v1/ops/maintenance/run-compact-now", .runCompactNow⟩]

def uiRoutes : List Route :=
  [⟨"GET", "/ui/", .uiRoot⟩,
    ⟨"GET", "/ui/login", .uiLogin⟩,
    ⟨"POST", "/ui/login", .uiLoginPost⟩,
    ⟨"POST", "/ui/logout", .uiLogout⟩,
    ⟨"GET", "/ui/chat", .uiChat⟩,
    ⟨"POST", "/ui/chat", .uiChatPost⟩,
    ⟨"GET", "/ui/ops", .uiOps⟩,
    ⟨"POST", "/ui/ops/run-doctor-now", .uiOpsRunDoctor⟩,
    ⟨"POST", "/ui/ops/run-compact-now", .uiOpsRunCompact⟩,
    ⟨"GET", "/ui/doctor", .uiDoctor⟩,
    ⟨"GET", "/ui/approvals", .uiApprovals⟩,
    ⟨"POST", "/ui/approvals/{approval_id}/approve", .uiApprove⟩,
    ⟨"POST", "/ui/approvals/{approval_id}/reject", .uiReject⟩,
    ⟨"GET", "/ui/jobs", .uiJobs⟩,
    ⟨"POST", "/ui/jobs/reminder", .uiJobsReminder⟩,
    ⟨"POST", "/ui/jobs/daily-briefing", .uiJobsBriefing⟩,
    ⟨"GET", "/ui/rules", .uiRules⟩,
    ⟨"POST", "/ui/rules/create", .uiCreateRule⟩,
    ⟨"POST", "/ui/rules/{rule_id}/enable", .uiEnableRule⟩,
    ⟨"POST", "/ui/rules/{rule_id}/disable", .uiDisableRule⟩,
    ⟨"POST", "/ui/rules/{rule_id}/delete", .uiDeleteRule⟩,
    ⟨"POST", "/ui/rules/{rule_id}/reset-state", .uiResetRuleState⟩,
    ⟨"POST", "/ui/rules/evaluate-now", .uiRulesEval⟩,
    ⟨"GET", "/ui/memory", .uiMemory⟩,
    ⟨"POST", "/ui/memory/semantic", .uiMemoryUpsert⟩,
    ⟨"GET", "/ui/scopes", .uiScopes⟩,
    ⟨"POST", "/ui/scopes/save", .uiScopesSave⟩,
    ⟨"GET", "/ui/runs", .uiRuns⟩,
    ⟨"GET", "/ui/correlation/{correlation_id}", .uiCorrelationView⟩,
    ⟨"GET", "/ui/runs/chat/{task_id}", .uiRunChatDetail⟩,
    ⟨"GET", "/ui/runs/approvals/{approval_id}", .uiRunApprovalDetail⟩,
    ⟨"GET", "/ui/runs/rules/{rule_id}", .uiRunRuleDetail⟩]

def appRoutes : List Route :=
  [⟨"GET", "/runs/search", .runsSearch⟩,
    ⟨"GET", "/health", .health⟩,
    ⟨"GET", "/healthz", .healthz⟩,
    ⟨"GET", "/healthz/full", .healthzFull⟩]

/-- In the order in which the app has included them. -/
def routes : List Route :=
  chatRoutes ++ tasksRoutes ++ memoryRoutes ++ jobsRoutes ++ integrationsRoutes ++
    approvalsRoutes ++ rulesRoutes ++ securityRoutes ++ opsRoutes ++ opsSafeRoutes ++
    opsMaintRoutes ++ uiRoutes ++ appRoutes

/-- The pages that FastAPI adds. -/
def docsEndpoints : List Endpoint := [.openapi, .swaggerUi, .oauth2Redirect, .redoc]

/-- What the framework makes of a request: `request.url.path`, which it puts together from the
Host header and the path and parses again, and the endpoint that its router calls, with what
stands for the parameters of the pattern. -/
structure Framework where
  urlPath : Request → Except PyError String
  routed : Request → Option (Endpoint × List String)

def front (pattern : String) : List Char := pattern.toList.takeWhile fun c => decide (c ≠ '{')

def isLiteral (pattern : String) : Bool := decide ('{' ∉ pattern.toList)

/-- A route is called for its method and a path that its pattern matches. The pattern ends with
`$`, which also matches before a last line feed. -/
structure RouteMatches (route : Route) (r : Request) : Prop where
  method : route.method = r.method
  front : front route.path <+: r.path.toList
  literal : isLiteral route.path = true → r.path = route.path ∨ r.path = route.path ++ "\n"

def RoutesApp (fw : Framework) : Prop :=
  ∀ r endpoint params, fw.routed r = some (endpoint, params) →
    endpoint ∈ docsEndpoints ∨ ∃ route ∈ routes, route.endpoint = endpoint ∧ RouteMatches route r

def staysInPath (c : Char) : Bool := decide (c ∉ ['\t', '\n', '\r', '?', '#'])

/-- The URL has the path of the request, up to a character that ends the path of a URL. This
depends on the Host header: with the host `x/healthz` every path of a URL begins with `/healthz`. -/
def PathKept (fw : Framework) (r : Request) : Prop :=
  ∀ path, fw.urlPath r = .ok path →
    ∀ kept rest, kept.all staysInPath = true → r.path.toList = kept ++ rest →
      ∃ rest', path.toList = kept ++ rest' ∧ (rest = ['\n'] ∨ rest = [] → rest' = [])

def authMiddleware (fw : Framework) (rt : Runtime) (env : AuthEnv) (r : Request) :
    Except PyError Gate := do
  let path ← fw.urlPath r
  let method := upper r.method
  if startsWith "/healthz" path then .ok .callNext
  else if !isAuthEnabled rt env then .ok .callNext
  else if startsWith "/ui" path then
    if path = "/ui/login" ∧ method ∈ ["GET", "POST"] then .ok .callNext
    else unlessAuthenticated rt env r .redirectToLogin (.ok .callNext)
  else
    let chatChecked : Except PyError Gate :=
      if shouldProtectChatPost rt env && decide (method = "POST") && startsWith "/chat" path then
        unlessAuthenticated rt env r .unauthorized (.ok .callNext)
      else .ok .callNext
    if decide (method ∈ writeMethods) &&
        protectedPrefixes.any fun front => startsWith front path then
      unlessAuthenticated rt env r .unauthorized chatChecked
    else chatChecked

section Paths

variable {fw : Framework} {r : Request} {route : Route} {path : String}

theorem urlPath_front (hkept : PathKept fw r) (hmatch : RouteMatches route r)
    (hstays : (front route.path).all staysInPath = true) (hpath : fw.urlPath r = .ok path) :
    front route.path <+: path.toList := by
  obtain ⟨rest, hrest⟩ := hmatch.front
  obtain ⟨rest', hurl, -⟩ := hkept path hpath _ rest hstays hrest.symm
  exact ⟨rest', hurl.symm⟩

theorem urlPath_literal (hkept : PathKept fw r) (hmatch : RouteMatches route r)
    (hliteral : isLiteral route.path = true) (hstays : route.path.toList.all staysInPath = true)
    (hpath : fw.urlPath r = .ok path) : path = route.path := by
  have hsplit : ∃ rest, r.path.toList = route.path.toList ++ rest ∧
      (rest = ['\n'] ∨ rest = []) := by
    rcases hmatch.literal hliteral with hsame | hbroken
    · exact ⟨[], by rw [hsame, List.append_nil], .inr rfl⟩
    · exact ⟨['\n'], by rw [hbroken, String.toList_append]; rfl, .inl rfl⟩
  obtain ⟨rest, hrest, hblank⟩ := hsplit
  obtain ⟨rest', hurl, hnone⟩ := hkept path hpath _ rest hstays hrest
  rw [hnone hblank, List.append_nil] at hurl
  exact String.toList_inj.mp hurl

end Paths

def openEndpoints : List Endpoint :=
  [.openapi, .swaggerUi, .oauth2Redirect, .redoc, .chat, .createTask, .listSemantic, .listEpisodic,
    .listJobs, .integrationsStatus, .listApprovals, .listRules, .getScopes, .getDoctorReport,
    .getSafeMode, .getMaintenanceStatus, .uiLogin, .uiLoginPost, .runsSearch, .health, .healthz,
    .healthzFull]

def apart (a b : List Char) : Bool := !a.isPrefixOf b && !b.isPrefixOf a

def behindLogin (route : Route) : Bool :=
  "/ui".toList.isPrefixOf (front route.path) &&
    (apart "/ui/login".toList (front route.path) ||
      isLiteral route.path && route.path.toList.all staysInPath &&
        decide (route.path ≠ "/ui/login"))

/-- The route writes under one of the protected prefixes. -/
def behindPrefix (route : Route) : Bool :=
  apart "/ui".toList (front route.path) && decide (route.method ∈ writeMethods) &&
    protectedPrefixes.any fun p => p.toList.isPrefixOf (front route.path)

/-- What the gate recognizes of a route that is not open. -/
def guarded (route : Route) : Bool :=
  (front route.path).all staysInPath && apart "/healthz".toList (front route.path) &&
    (behindLogin route || behindPrefix route)

theorem routes_guarded :
    routes.all (fun route => decide (route.endpoint ∈ openEndpoints) || guarded route) = true := by
  decide +kernel

theorem chat_route :
    routes.all (fun route => decide (route.endpoint = .chat → route = ⟨"POST", "/chat/", .chat⟩)) =
      true := by
  decide

section Refusing

variable {rt : Runtime} {env : AuthEnv} {r : Request} {marker path : String} {f : List Char}

theorem startsWith_front (hmarker : marker.toList.isPrefixOf f = true) (h : f <+: path.toList) :
    startsWith marker path = true :=
  List.isPrefixOf_iff_prefix.mpr ((List.isPrefixOf_iff_prefix.mp hmarker).trans h)

theorem startsWith_apart (hmarker : apart marker.toList f = true) (h : f <+: path.toList) :
    startsWith marker path = false := by
  rw [apart, Bool.and_eq_true, Bool.not_eq_true', Bool.not_eq_true'] at hmarker
  rw [← Bool.not_eq_true]
  intro hstarts
  have hprefix := List.isPrefixOf_iff_prefix.mp hstarts
  rcases List.prefix_or_prefix_of_prefix hprefix h with hbegins | hbegins
  · have hno := hmarker.1
    rw [List.isPrefixOf_iff_prefix.mpr hbegins] at hno
    cases hno
  · have hno := hmarker.2
    rw [List.isPrefixOf_iff_prefix.mpr hbegins] at hno
    cases hno

theorem unlessAuthenticated_refuses {refusal : Gate} {next : Except PyError Gate}
    (hnone : isRequestAuthenticated rt env r ≠ .ok true) (hrefusal : refusal ≠ .callNext) :
    unlessAuthenticated rt env r refusal next ≠ .ok .callNext := by
  unfold unlessAuthenticated
  split
  · intro h
    cases h
  · contradiction
  · intro h
    cases h
    exact hrefusal rfl

theorem upper_writeMethod {method : String} (h : method ∈ writeMethods) :
    upper method = method := by
  have hall : writeMethods.all (fun m => decide (upper m = m)) = true := by decide
  exact of_decide_eq_true (List.all_eq_true.mp hall method h)

variable {fw : Framework} {route : Route} {url : String}

theorem authMiddleware_url (hurl : fw.urlPath r = .ok url)
    (hnohealth : startsWith "/healthz" url = false) (henabled : isAuthEnabled rt env = true) :
    authMiddleware fw rt env r =
      if startsWith "/ui" url then
        if url = "/ui/login" ∧ upper r.method ∈ ["GET", "POST"] then .ok .callNext
        else unlessAuthenticated rt env r .redirectToLogin (.ok .callNext)
      else
        let chatChecked : Except PyError Gate :=
          if shouldProtectChatPost rt env && decide (upper r.method = "POST") &&
              startsWith "/chat" url then
            unlessAuthenticated rt env r .unauthorized (.ok .callNext)
          else .ok .callNext
        if decide (upper r.method ∈ writeMethods) &&
            protectedPrefixes.any fun front => startsWith front url then
          unlessAuthenticated rt env r .unauthorized chatChecked
        else chatChecked := by
  unfold authMiddleware
  rw [hurl]
  change (if startsWith "/healthz" url = true then _ else _) = _
  simp only [hnohealth, henabled, Bool.not_true, Bool.false_eq_true, if_false]

theorem guarded_refused (henabled : isAuthEnabled rt env = true)
    (hnone : isRequestAuthenticated rt env r ≠ .ok true) (hguarded : guarded route = true)
    (hkept : PathKept fw r) (hmatch : RouteMatches route r) (hurl : fw.urlPath r = .ok url) :
    authMiddleware fw rt env r ≠ .ok .callNext := by
  simp only [guarded, Bool.and_eq_true, Bool.or_eq_true] at hguarded
  obtain ⟨⟨hstays, hhealth⟩, hguarded⟩ := hguarded
  have hfront := urlPath_front hkept hmatch hstays hurl
  rw [authMiddleware_url hurl (startsWith_apart hhealth hfront) henabled]
  rcases hguarded with hlogin | hprefix
  · simp only [behindLogin, Bool.and_eq_true, Bool.or_eq_true, decide_eq_true_eq] at hlogin
    obtain ⟨hui, hlogin⟩ := hlogin
    have hnologin : url ≠ "/ui/login" := by
      rcases hlogin with hapart | ⟨⟨hliteral, hplain⟩, hother⟩
      · rintro rfl
        cases startsWith_apart hapart hfront
      · rwa [urlPath_literal hkept hmatch hliteral hplain hurl]
    rw [if_pos (startsWith_front hui hfront), if_neg fun h => hnologin h.1]
    exact unlessAuthenticated_refuses hnone (by decide)
  · simp only [behindPrefix, Bool.and_eq_true, decide_eq_true_eq] at hprefix
    obtain ⟨⟨hui, hwrites⟩, hany⟩ := hprefix
    have hstarts : protectedPrefixes.any (fun p => startsWith p url) = true := by
      obtain ⟨p, hp, hbegins⟩ := List.any_eq_true.mp hany
      exact List.any_eq_true.mpr ⟨p, hp, startsWith_front hbegins hfront⟩
    rw [hmatch.method] at hwrites
    have hupper : upper r.method ∈ writeMethods := (upper_writeMethod hwrites).symm ▸ hwrites
    simp only [startsWith_apart hui hfront, Bool.false_eq_true, if_false, hupper, hstarts,
      decide_true, Bool.and_self, if_true]
    exact unlessAuthenticated_refuses hnone (by decide)

theorem chat_refused (henabled : isAuthEnabled rt env = true)
    (hnone : isRequestAuthenticated rt env r ≠ .ok true)
    (hexposed : shouldProtectChatPost rt env = true) (hkept : PathKept fw r)
    (hmatch : RouteMatches ⟨"POST", "/chat/", .chat⟩ r) (hurl : fw.urlPath r = .ok url) :
    authMiddleware fw rt env r ≠ .ok .callNext := by
  have hfront : front "/chat/" <+: url.toList := urlPath_front hkept hmatch (by decide) hurl
  have hupper : upper r.method = "POST" := by
    rw [← hmatch.method]
    decide
  have hnoui : startsWith "/ui" url = false := startsWith_apart (by decide) hfront
  have hchat : startsWith "/chat" url = true := startsWith_front (by decide) hfront
  rw [authMiddleware_url hurl (startsWith_apart (by decide) hfront) henabled]
  simp only [hnoui, hchat, hexposed, hupper, Bool.false_eq_true, if_false, decide_true,
    Bool.and_self, if_true]
  split
  · exact unlessAuthenticated_refuses hnone (by decide)
  · exact unlessAuthenticated_refuses hnone (by decide)

theorem docs_open {endpoint : Endpoint} (h : endpoint ∈ docsEndpoints) :
    endpoint ∈ openEndpoints ∧ endpoint ≠ .chat := by
  simp only [docsEndpoints, List.mem_cons, List.not_mem_nil, or_false] at h
  rcases h with rfl | rfl | rfl | rfl <;> decide

/-- Without the token a request reaches an open endpoint, and the chat unless it is exposed. -/
theorem reached_open (hroutes : RoutesApp fw) (hkept : PathKept fw r) {endpoint : Endpoint}
    {params : List String} (henabled : isAuthEnabled rt env = true)
    (hnone : isRequestAuthenticated rt env r ≠ .ok true)
    (hpassed : authMiddleware fw rt env r = .ok .callNext)
    (hrouted : fw.routed r = some (endpoint, params)) :
    endpoint ∈ openEndpoints ∧ (endpoint = .chat → shouldProtectChatPost rt env = false) := by
  obtain ⟨url, hurl⟩ : ∃ url, fw.urlPath r = .ok url := by
    cases hurl : fw.urlPath r with
    | ok url => exact ⟨url, rfl⟩
    | error e =>
      rw [authMiddleware, hurl] at hpassed
      cases hpassed
  rcases hroutes r endpoint params hrouted with hdocs | ⟨route, hroute, rfl, hmatch⟩
  · exact ⟨(docs_open hdocs).1, fun hchat => absurd hchat (docs_open hdocs).2⟩
  have hone := List.all_eq_true.mp routes_guarded route hroute
  refine ⟨?_, ?_⟩
  · rw [Bool.or_eq_true, decide_eq_true_eq] at hone
    rcases hone with hopen | hguarded
    · exact hopen
    · exact absurd hpassed (guarded_refused henabled hnone hguarded hkept hmatch hurl)
  · intro hchat
    obtain rfl := of_decide_eq_true (List.all_eq_true.mp chat_route route hroute) hchat
    rw [← Bool.not_eq_true]
    intro hexposed
    exact chat_refused henabled hnone hexposed hkept hmatch hurl hpassed

end Refusing

end ApiGate
