import Benjamin.ApiGate
import Benjamin.ApprovalLifecycle

/-!
# Requests without a token

The web app serves the assistant behind its gate. Whatever requests come in without the token,
they make the assistant answer chats and drop what has expired, and they never run a write or
decide an approval.
-/
namespace TokenlessRequests

open PyBase PlanSchemas SkillRegistry AssistantState ApprovalStore ApprovalService Planner
  Orchestration AcceptedPlan Effect WriteMediation ApprovalLifecycle ApiGate

structure Form where
  message : String
  note : Option String

/-- A request, the settings and the clock when it comes in, its form unless FastAPI turns it
down, and the replies of the language model while it is served. -/
structure Arrival where
  request : Request
  surroundings : Surroundings
  form : Option Form
  llm : LanguageModel

/-- The other endpoints may do to the state whatever they do. -/
structure Site where
  framework : Framework
  env : AuthEnv
  orchestrator : Orchestrator
  others : Endpoint → List String → Arrival → World → World

def opOf (site : Site) (llm : LanguageModel) (form : Form) : Endpoint → List String → Option Op
  | .chat, _ | .uiChatPost, _ => some (.handle site.orchestrator llm form.message)
  | .listApprovals, _ | .uiApprovals, _ => some .cleanupExpired
  | .approveApproval, [id] => some (.approve id form.note builtinRegistry)
  | .uiApprove, [id] => some (.approve id (truthy form.note) builtinRegistry)
  | .rejectApproval, [id] => some (.reject id form.note)
  | .uiReject, [id] => some (.reject id (truthy form.note))
  | _, _ => none

section Serving

variable (lib : Libraries) (site : Site)

def serveEndpoint (endpoint : Endpoint) (params : List String) (a : Arrival) (w : World) : World :=
  match a.form with
  | none => w
  | some form =>
    match opOf site a.llm form endpoint params with
    | some op => apply lib w op
    | none => if endpoint ∈ openEndpoints then w else site.others endpoint params a w

/-- `request_context_middleware` around the endpoint. -/
def inContext (rt : Runtime) (r : Request) (w : World) : World :=
  match truthy r.correlationHeader with
  | some given => { w with correlationId := some given }
  | none => { w with correlationId := some (rt.uuid4 w.uuids), uuids := w.uuids + 1 }

def serve (w : World) (a : Arrival) : World :=
  let outside := { w with toSurroundings := a.surroundings }
  if authMiddleware site.framework lib.toRuntime site.env a.request = .ok .callNext then
    let inside := inContext lib.toRuntime a.request outside
    let after :=
      match site.framework.routed a.request with
      | some (endpoint, params) => serveEndpoint lib site endpoint params a inside
      | none => inside
    { after with correlationId := a.surroundings.correlationId }
  else outside

end Serving

def RunsWrite : Event → Prop
  | .skillRun skill .. => skill.IsWrite
  | _ => False

/-- What becomes of the record under an identifier: a pending one lapses when it is due, and
one may be added. -/
inductive Spares (added : Prop) (due : PendingApproval → Prop) :
    Option PendingApproval → Option PendingApproval → Prop
  | kept (stored : Option PendingApproval) : Spares added due stored stored
  | lapsed (record : PendingApproval) (left : Option PendingApproval)
      (pending : record.status = .pending) (isDue : due record)
      (gone : left = none ∨ left = some { record with status := .expired }) :
      Spares added due (some record) left
  | created (record : PendingApproval) (fresh : added)
      (undecided : record.status = .pending ∨ record.status = .expired) :
      Spares added due none (some record)

/-- No write has run and no approval has been decided but by the clock. Where the chat is
exposed, none has been added. -/
structure Spared (rt : Runtime) (exposed : Bool) (due : PendingApproval → Prop) (w w' : World) :
    Prop where
  uuids : w.uuids ≤ w'.uuids
  sound : Sound rt w'
  events : ∃ more, w'.disk.events = w.disk.events ++ more ∧ ∀ e ∈ more, ¬ RunsWrite e
  records : ∀ id, Spares (exposed = false ∧ ¬ Known rt w id) due (get w.disk.approvals id)
    (get w'.disk.approvals id)

def DueFor (rt : Runtime) (arrivals : List Arrival) (record : PendingApproval) : Prop :=
  ∃ a ∈ arrivals, isExpired rt a.surroundings.now record = .ok true

section Spared

variable {lib : Libraries} {rt : Runtime} {site : Site} {exposed : Bool}
  {due due' : PendingApproval → Prop} {w w₁ w₂ : World} {a : Arrival}

theorem Spared.of_same (hsound : Sound rt w) (huuids : w.uuids ≤ w₁.uuids)
    (hdisk : w₁.disk = w.disk) : Spared rt exposed due w w₁ := by
  refine ⟨huuids, hsound.of_same huuids (by rw [hdisk]), ⟨[], by simp [hdisk], by simp⟩, ?_⟩
  intro id
  rw [hdisk]
  exact .kept _

theorem Spared.mono (h : Spared rt exposed due w w₁) (hdue : ∀ record, due record → due' record) :
    Spared rt exposed due' w w₁ := by
  refine ⟨h.uuids, h.sound, h.events, fun id => ?_⟩
  have hrecord := h.records id
  generalize get w.disk.approvals id = before at hrecord ⊢
  generalize get w₁.disk.approvals id = after at hrecord ⊢
  cases hrecord with
  | kept => exact .kept _
  | lapsed record _ pending isDue gone => exact .lapsed record _ pending (hdue record isDue) gone
  | created record fresh undecided => exact .created record fresh undecided

theorem Spared.trans (hsound : Sound rt w) (h : Spared rt exposed due w w₁)
    (h' : Spared rt exposed due w₁ w₂) : Spared rt exposed due w w₂ := by
  obtain ⟨more, hmore, hquiet⟩ := h.events
  obtain ⟨more', hmore', hquiet'⟩ := h'.events
  refine ⟨h.uuids.trans h'.uuids, h'.sound, ⟨more ++ more', ?_, ?_⟩, fun id => ?_⟩
  · rw [hmore', hmore, List.append_assoc]
  · exact List.forall_mem_append.mpr ⟨hquiet, hquiet'⟩
  have hknown : Known rt w id → Known rt w₁ id := fun hid => hid.mono h.uuids
  have hstored : ∀ record, get w.disk.approvals id = some record → Known rt w id :=
    fun record hrecord => hsound.held hrecord
  have hfirst := h.records id
  have hsecond := h'.records id
  generalize get w.disk.approvals id = before at hfirst hstored ⊢
  generalize get w₁.disk.approvals id = middle at hfirst hsecond
  generalize get w₂.disk.approvals id = after at hsecond ⊢
  cases hfirst with
  | kept =>
    cases hsecond with
    | kept => exact .kept _
    | lapsed record _ pending isDue gone => exact .lapsed record _ pending isDue gone
    | created record fresh undecided =>
      exact .created record ⟨fresh.1, fun hid => fresh.2 (hknown hid)⟩ undecided
  | lapsed record _ pending isDue gone =>
    cases hsecond with
    | kept => exact .lapsed record _ pending isDue gone
    | lapsed other _ pending' isDue' gone' =>
      -- What the first step has left is expired, and no pending record lapses twice.
      rcases gone with hnone | hexpired
      · cases hnone
      · cases hexpired
        cases pending'
    | created other fresh undecided =>
      exact absurd (hknown (hstored record rfl)) fresh.2
  | created record fresh undecided =>
    cases hsecond with
    | kept => exact .created record fresh undecided
    | lapsed _ _ pending isDue gone =>
      rcases gone with rfl | rfl
      · exact .kept _
      · exact .created _ fresh (.inr rfl)

theorem cleanup_absent {id : String} (habsent : get w.disk.approvals id = none) :
    get (apply lib w .cleanupExpired).disk.approvals id = none := by
  have hends := cleanupExpired_becomes lib.toRuntime w
  rw [Ends] at hends
  rcases hends with hsame | became
  · change get (cleanupExpired lib.toRuntime w).2.disk.approvals id = none
    rwa [hsame]
  · change get (cleanupExpired lib.toRuntime w).2.disk.approvals id = none
    rw [congrArg Stores.approvals became.stores]
    exact KeyedList.get_filterMap_none afterCleanup_id habsent

theorem op_spared (huuid : Function.Injective lib.uuid4) (hsound : Sound lib.toRuntime w) {op : Op}
    (hop : (∃ o llm message, op = .handle o llm message) ∧ exposed = false ∨
      op = .cleanupExpired) :
    Spared lib.toRuntime exposed (fun record => isExpired lib.toRuntime w.now record = .ok true) w
      (apply lib w op) := by
  have hmoved := op_moved huuid w op hsound
  have hcurrent : UpToDate w op := by
    rcases hop with ⟨⟨o, llm, message, rfl⟩, -⟩ | rfl <;> trivial
  obtain ⟨more, hmore, hmediated⟩ := op_mediated huuid hcurrent
  refine ⟨hmoved.uuids, hmoved.sound, ⟨more, hmore, fun e he hwrites => ?_⟩, fun id => ?_⟩
  · cases e with
    | skillRun skill step requester outcome =>
      obtain ⟨id, note, registry, record, hcalled, -⟩ := hmediated _ he hwrites
      rcases hop with ⟨⟨o, llm, message, rfl⟩, -⟩ | rfl <;> cases hcalled
    | approvalCreated origin record => exact hwrites
    | notified title body ruleId correlationId failure => exact hwrites
  · have hmove := hmoved.moves id
    have habsent : get w.disk.approvals id = none → op = .cleanupExpired →
        get (apply lib w op).disk.approvals id = none := by
      rintro hnone rfl
      exact cleanup_absent hnone
    generalize get w.disk.approvals id = before at hmove habsent ⊢
    generalize get (apply lib w op).disk.approvals id = after at hmove habsent ⊢
    cases hmove with
    | kept => exact .kept _
    | created record fresh pending =>
      rcases hop with ⟨-, hexposed⟩ | hcleanup
      · exact .created record ⟨hexposed, fresh⟩ (.inl pending)
      · cases habsent rfl hcleanup
    | decided record record' pending decides =>
      cases decides with
      | cleaned due =>
        refine .lapsed record _ pending due ?_
        split_ifs
        · exact .inl rfl
        · exact .inr rfl
      | _ => rcases hop with ⟨⟨o, llm, message, hop⟩, -⟩ | hop <;> cases hop

theorem inContext_same (rt : Runtime) (r : Request) (w : World) :
    w.uuids ≤ (inContext rt r w).uuids ∧ (inContext rt r w).disk = w.disk ∧
      (inContext rt r w).now = w.now := by
  unfold inContext
  split
  · exact ⟨le_refl _, rfl, rfl⟩
  · exact ⟨Nat.le_succ _, rfl, rfl⟩

theorem opOf_open {endpoint : Endpoint} (hopen : endpoint ∈ openEndpoints) (llm : LanguageModel)
    (form : Form) (params : List String) {op : Op}
    (h : opOf site llm form endpoint params = some op) :
    (endpoint = .chat ∧ op = .handle site.orchestrator llm form.message) ∨
    op = .cleanupExpired := by
  simp only [openEndpoints, List.mem_cons, List.not_mem_nil, or_false] at hopen
  rcases hopen with rfl | rfl | rfl | rfl | rfl | rfl | rfl | rfl | rfl | rfl | rfl | rfl | rfl |
    rfl | rfl | rfl | rfl | rfl | rfl | rfl | rfl | rfl <;> simp [opOf] at h <;> simp [h]

theorem serveEndpoint_spared (huuid : Function.Injective lib.uuid4) (hsound : Sound lib.toRuntime w)
    {endpoint : Endpoint} (hopen : endpoint ∈ openEndpoints)
    (hchat : endpoint = .chat → exposed = false) (params : List String) :
    Spared lib.toRuntime exposed (fun record => isExpired lib.toRuntime w.now record = .ok true) w
      (serveEndpoint lib site endpoint params a w) := by
  have hsame : Spared lib.toRuntime exposed
      (fun record => isExpired lib.toRuntime w.now record = .ok true) w w :=
    .of_same hsound (le_refl _) rfl
  unfold serveEndpoint
  cases a.form with
  | none => exact hsame
  | some form =>
    cases hop : opOf site a.llm form endpoint params with
    | none =>
      simp only [hop, if_pos hopen]
      exact hsame
    | some op =>
      simp only [hop]
      refine op_spared huuid hsound ?_
      rcases opOf_open hopen a.llm form params hop with ⟨hendpoint, rfl⟩ | rfl
      · exact .inl ⟨⟨_, _, _, rfl⟩, hchat hendpoint⟩
      · exact .inr rfl

theorem serve_spared (huuid : Function.Injective lib.uuid4) (hroutes : RoutesApp site.framework)
    (hkept : PathKept site.framework a.request)
    (henabled : isAuthEnabled lib.toRuntime site.env = true) (hsound : Sound lib.toRuntime w)
    (hnone : isRequestAuthenticated lib.toRuntime site.env a.request ≠ .ok true) :
    Spared lib.toRuntime (shouldProtectChatPost lib.toRuntime site.env)
      (fun record => isExpired lib.toRuntime a.surroundings.now record = .ok true) w
      (serve lib site w a) := by
  let outside : World := { w with toSurroundings := a.surroundings }
  let inside := inContext lib.toRuntime a.request outside
  obtain ⟨huuids, hdisk, hnow⟩ := inContext_same lib.toRuntime a.request outside
  have hentered : ∀ due, Spared lib.toRuntime (shouldProtectChatPost lib.toRuntime site.env) due w
      inside := fun due => .of_same hsound huuids hdisk
  have hinside : Sound lib.toRuntime inside := (hentered fun _ => False).sound
  have hleft : ∀ {due : PendingApproval → Prop} {after : World},
      Spared lib.toRuntime (shouldProtectChatPost lib.toRuntime site.env) due inside after →
      Spared lib.toRuntime (shouldProtectChatPost lib.toRuntime site.env) due w
        { after with correlationId := a.surroundings.correlationId } := by
    intro due after h
    refine ((hentered due).trans hsound h).trans hsound ?_
    exact .of_same h.sound (le_refl _) rfl
  unfold serve
  dsimp only
  split
  · rename_i hpassed
    cases hrouted : site.framework.routed a.request with
    | none => exact hleft (.of_same hinside (le_refl _) rfl)
    | some reached =>
      obtain ⟨hopen, hchat⟩ := reached_open hroutes hkept henabled hnone hpassed hrouted
      have hserved := @serveEndpoint_spared lib site _ inside a huuid hinside reached.1 hopen hchat
        reached.2
      have hsameNow : inside.now = a.surroundings.now := hnow
      rw [hsameNow] at hserved
      exact hleft hserved
  · exact .of_same hsound (le_refl _) rfl

end Spared

/-- In the token mode, whatever requests come in without the token, in any order, while the gate
sees their paths: they reach the open endpoints only, no write runs, and no approval is decided
but by the clock. If the chat is exposed, none is added either. -/
theorem tokenless_runs_decide_nothing (lib : Libraries) (huuid : Function.Injective lib.uuid4)
    (site : Site) (hroutes : RoutesApp site.framework)
    (henabled : isAuthEnabled lib.toRuntime site.env = true) (w : World)
    (hsound : Sound lib.toRuntime w) (arrivals : List Arrival)
    (hkept : ∀ a ∈ arrivals, PathKept site.framework a.request)
    (hnone : ∀ a ∈ arrivals,
      isRequestAuthenticated lib.toRuntime site.env a.request ≠ .ok true) :
    (∀ a ∈ arrivals,
      authMiddleware site.framework lib.toRuntime site.env a.request = .ok .callNext →
        ∀ endpoint params, site.framework.routed a.request = some (endpoint, params) →
          endpoint ∈ openEndpoints) ∧
      Spared lib.toRuntime (shouldProtectChatPost lib.toRuntime site.env)
        (DueFor lib.toRuntime arrivals) w (SerialRun.final (serve lib site) w arrivals) := by
  refine ⟨fun a ha hpassed endpoint params hrouted =>
    (reached_open hroutes (hkept a ha) henabled (hnone a ha) hpassed hrouted).1, ?_⟩
  induction arrivals generalizing w with
  | nil => exact .of_same hsound (le_refl _) rfl
  | cons a rest ih =>
    have hfirst : Spared lib.toRuntime (shouldProtectChatPost lib.toRuntime site.env)
        (fun record => isExpired lib.toRuntime a.surroundings.now record = .ok true) w
        (serve lib site w a) :=
      serve_spared huuid hroutes (hkept a List.mem_cons_self) henabled hsound
        (hnone a List.mem_cons_self)
    have hrest := ih (serve lib site w a) hfirst.sound
      (fun b hb => hkept b (List.mem_cons_of_mem _ hb))
      fun b hb => hnone b (List.mem_cons_of_mem _ hb)
    have hlater : ∀ record, DueFor lib.toRuntime rest record →
        DueFor lib.toRuntime (a :: rest) record := by
      rintro record ⟨b, hb, hexpired⟩
      exact ⟨b, List.mem_cons_of_mem _ hb, hexpired⟩
    have hnow : ∀ record, isExpired lib.toRuntime a.surroundings.now record = .ok true →
        DueFor lib.toRuntime (a :: rest) record :=
      fun record hexpired => ⟨a, List.mem_cons_self, hexpired⟩
    rw [SerialRun.final_cons]
    exact (hfirst.mono hnow).trans hsound (hrest.mono hlater)

def threeRoutes : Framework where
  urlPath r := .ok (String.ofList (r.path.toList.takeWhile staysInPath))
  routed r :=
    if r.method = "POST" ∧ r.path = "/approvals/1/approve" then some (.approveApproval, ["1"])
    else if r.method = "POST" ∧ r.path = "/chat/" then some (.chat, [])
    else if r.method = "GET" ∧ r.path = "/approvals" then some (.listApprovals, [])
    else none

theorem threeRoutes_keepPath (r : Request) : PathKept threeRoutes r := by
  rintro path hpath kept rest hkept hsplit
  cases hpath
  refine ⟨rest.takeWhile staysInPath, ?_, ?_⟩
  · rw [String.toList_ofList, hsplit, List.takeWhile_append_of_pos (List.all_eq_true.mp hkept)]
  · rintro (rfl | rfl)
    · rfl
    · rfl

theorem threeRoutes_routesApp : RoutesApp threeRoutes := by
  intro r endpoint params hrouted
  refine .inr ?_
  simp only [threeRoutes] at hrouted
  split_ifs at hrouted with happrove hchat hlist
  · obtain ⟨hmethod, hpath⟩ := happrove
    cases hrouted
    refine ⟨⟨"POST", "/approvals/{approval_id}/approve", .approveApproval⟩, by decide, rfl,
      hmethod.symm, ?_, fun hliteral => absurd hliteral (by decide)⟩
    rw [hpath]
    decide
  · obtain ⟨hmethod, hpath⟩ := hchat
    cases hrouted
    refine ⟨⟨"POST", "/chat/", .chat⟩, by decide, rfl, hmethod.symm, ?_, fun _ => .inl hpath⟩
    rw [hpath]
    decide
  · obtain ⟨hmethod, hpath⟩ := hlist
    cases hrouted
    refine ⟨⟨"GET", "/approvals", .listApprovals⟩, by decide, rfl, hmethod.symm, ?_,
      fun _ => .inl hpath⟩
    rw [hpath]
    decide

def tokenSite : Site where
  framework := threeRoutes
  env := ⟨none, some "secret-token", none⟩
  orchestrator := ⟨⟨plainLibraries, "UTC"⟩, 500, false, "/"⟩
  others _ _ _ w := w

def guess (method path : String) (headerToken cookieToken : Option String) (message : String) :
    Arrival :=
  ⟨⟨method, path, "", some "localhost", headerToken, cookieToken, none⟩, exampleSurroundings,
    some ⟨message, none⟩, ⟨none, none⟩⟩

def guesses : List Arrival :=
  [guess "POST" "/approvals/1/approve" (some "guess") none "",
    guess "POST" "/chat/" none (some "guess") "reminders.create tea",
    guess "GET" "/approvals" none none ""]

theorem guesses_decide_nothing :
    (∀ a ∈ guesses,
      authMiddleware threeRoutes plainLibraries.toRuntime tokenSite.env a.request =
        .ok .callNext →
        ∀ endpoint params, threeRoutes.routed a.request = some (endpoint, params) →
          endpoint ∈ openEndpoints) ∧
      Spared plainLibraries.toRuntime
        (shouldProtectChatPost plainLibraries.toRuntime tokenSite.env)
        (DueFor plainLibraries.toRuntime guesses) (freshWorld exampleSurroundings)
        (SerialRun.final (serve plainLibraries tokenSite) (freshWorld exampleSurroundings)
          guesses) := by
  have hsound : Sound plainLibraries.toRuntime (freshWorld exampleSurroundings) :=
    ⟨fun _ hmem => (List.not_mem_nil hmem).elim, List.nodup_nil⟩
  have henabled : isAuthEnabled plainLibraries.toRuntime tokenSite.env = true := by decide
  have hnone : ∀ a ∈ guesses,
      isRequestAuthenticated plainLibraries.toRuntime tokenSite.env a.request ≠ .ok true := by
    simp only [guesses, List.forall_mem_cons]
    exact ⟨by decide, by decide, by decide, by simp⟩
  exact tokenless_runs_decide_nothing plainLibraries plainLibraries_uuid4_injective tokenSite
    threeRoutes_routesApp henabled (freshWorld exampleSurroundings) hsound guesses
    (fun a _ => threeRoutes_keepPath a.request) hnone

/-- The paths that the gate sees with the Host header `x/healthz`. -/
def healthHost : Framework :=
  { threeRoutes with urlPath := fun r => .ok ("/healthz" ++ r.path) }

-- The gate does not recognize the request, and the router calls the endpoint.
example :
    let request := (guess "POST" "/approvals/1/approve" none none "").request
    authMiddleware healthHost plainLibraries.toRuntime tokenSite.env request = .ok .callNext ∧
      healthHost.routed request = some (.approveApproval, ["1"]) :=
  ⟨rfl, rfl⟩

end TokenlessRequests
