import Benjamin.AssistantState
import Benjamin.RuleMatching
import Benjamin.RuleStore

/-!
# Scheduled jobs

`run_reminder` and `run_daily_briefing`. The state of a job is the world with the
rules, the semantic facts and the notifications that jobs have sent. What a
constructor, a connector or the router raises is an input.
-/
namespace SchedulerJobs

open PyBase PlanSchemas ExecutionLedger LedgerKeys AssistantState RuleMatching RuleStore Effect

structure SemanticFact where
  key : String
  value : String
  scope : String

structure Notification where
  title : String
  body : String
  metadata : Dict
  failure : Option PyError

structure JobState where
  world : World
  rules : RulesFile
  facts : List SemanticFact
  sent : List Notification

abbrev Job := Prog PyError JobState

def onWorld {α : Type} (x : Py α) : Job α :=
  Prog.zoom JobState.world (fun s w => { s with world := w }) x

/-- What raises when a `BenjaminLLM` is built, in the order of its parts: the numbers of the
environment, the managers, and `is_safe_mode_enabled` for a feature of it. -/
structure LlmParts where
  timeoutS : Option PyError
  temperature : Option PyError
  maxTokensJson : Option PyError
  maxTokensText : Option PyError
  memoryManager : Option PyError
  breakerManager : Option PyError
  safeMode : Option PyError

/-- What each constructor raises, if anything; `tasksMax` is what `int` makes of its
variable. Every call of a constructor finds the same environment. -/
structure Constructors where
  ledger : Option PyError
  memoryManager : Option PyError
  schedulerService : Option PyError
  llm : LlmParts
  permissionsPolicy : Option PyError
  tasksMax : Except PyError Int
  taskStore : Option PyError
  approvalStore : Option PyError
  ruleStore : Option PyError
  notificationRouter : Option PyError

def allBuilt : Constructors :=
  ⟨none, none, none, ⟨none, none, none, none, none, none, none⟩, none, .ok 500, none, none, none,
    none⟩

def construct (failure : Option PyError) : Job Unit :=
  match failure with
  | none => pure ()
  | some e => Prog.raise e

def constructAll : List (Option PyError) → Job Unit
  | [] => pure ()
  | failure :: rest => do
    construct failure
    constructAll rest

/-- `BenjaminLLM()`. -/
def LlmParts.benjaminLLM (llm : LlmParts) : List (Option PyError) :=
  [llm.timeoutS, llm.temperature, llm.maxTokensJson, llm.maxTokensText, llm.memoryManager,
    llm.breakerManager]

/-- `Planner()`: its model, its own feature and that of its `Drafter`. -/
def LlmParts.planner (llm : LlmParts) : List (Option PyError) :=
  llm.benjaminLLM ++ [llm.safeMode, llm.safeMode]

/-- `RetrievalHelper()` and `Summarizer()`. -/
def LlmParts.helper (llm : LlmParts) : List (Option PyError) :=
  llm.benjaminLLM ++ [llm.safeMode]

def errorOf : Except PyError Int → Option PyError
  | .ok _ => none
  | .error e => some e

/-- `Orchestrator(...)`: the service and the planner, the policy of the executor, the task
store, the approval service with a ledger of its own, and the skills that use a model. -/
def Constructors.orchestrator (made : Constructors) : List (Option PyError) :=
  made.schedulerService :: made.llm.planner ++
    [made.permissionsPolicy, errorOf made.tasksMax, made.taskStore, made.approvalStore,
      made.ledger, made.permissionsPolicy] ++
    made.llm.helper ++ made.llm.helper ++ made.llm.helper

/-- The arguments that every job has. `sendRaises` is what the router's `send` raises. -/
structure JobCall where
  jobId : Option String
  scheduledRunIso : Option String
  routerGiven : Bool
  sendRaises : Option PyError

/-- `job_id or default`. -/
def JobCall.effectiveId (call : JobCall) (default : String) : String :=
  (truthy call.jobId).getD default

def optional (s : Option String) : Json := (s.map Json.str).getD .null

def JobCall.startMeta (call : JobCall) (default : String) : Dict :=
  [("job_id", .str (call.effectiveId default)),
    ("scheduled_run_iso", optional call.scheduledRunIso)]

def JobCall.notifyMeta (call : JobCall) (correlationId : String) : Dict :=
  match truthy call.jobId with
  | some jobId => [("correlation_id", .str correlationId), ("job_id", .str jobId)]
  | none => [("correlation_id", .str correlationId)]

def JobCall.skippedMeta (call : JobCall) (default correlationId : String) : Dict :=
  [("correlation_id", .str correlationId), ("job_id", .str (call.effectiveId default)),
    ("skipped_idempotent", .bool true)]

/-- `router or build_notification_router()`. -/
def activeRouter (made : Constructors) (call : JobCall) : Job Unit :=
  if call.routerGiven then pure () else construct made.notificationRouter

/-- `active_router.send(...)`. -/
def routerSend (call : JobCall) (title body : String) (metadata : Dict) : Job Unit := fun s =>
  (match call.sendRaises with | none => .ok () | some e => .error e,
    { s with sent := s.sent ++ [⟨title, body, metadata, call.sendRaises⟩] })

/-- The `try` of both jobs: the notification, its episode and the mark. -/
def sendAndMark (call : JobCall) (key title body : String) (metadata : Dict) (episode : Episode) :
    Job Unit :=
  Prog.attempt
    (do
      routerSend call title body metadata
      onWorld (appendEpisode episode.kind episode.summary episode.metadata)
      onWorld (ledgerMark key .succeeded []))
    fun exc => do
      onWorld (ledgerMark key .failed [("error", .str exc.str)])
      Prog.raise exc

def startRun (rt : Runtime) (call : JobCall) (default : String) (extra : Dict)
    (correlationId : String) : Job (String × Bool) := do
  let key ← Prog.read fun s : JobState =>
    jobRunKey rt s.world.now (call.effectiveId default) call.scheduledRunIso extra
  let started ← onWorld <| ledgerTryStart key .jobRun (some correlationId) (call.startMeta default)
  pure (key, started)

def finishReminder (made : Constructors) (call : JobCall) (message correlationId : String)
    (key : String) (started : Bool) : Job Unit := do
  construct made.memoryManager
  if !started then
    onWorld <| appendEpisode "notification" ("Skipped duplicate reminder: " ++ message)
      (call.skippedMeta "reminder" correlationId)
  else do
    activeRouter made call
    sendAndMark call key "Reminder" message (call.notifyMeta correlationId)
      ⟨"notification", "Sent reminder: " ++ message, call.notifyMeta correlationId⟩

def runReminder (rt : Runtime) (made : Constructors) (call : JobCall) (message : String) :
    Job Unit := do
  let correlationId ← onWorld (drawUuid rt)
  construct made.ledger
  let (key, started) ← startRun rt call "reminder" [("message", .str message)] correlationId
  finishReminder made call message correlationId key started

/-- What the briefing is made from besides the memory: the answers of the connectors it
has, what `ZoneInfo` raises for the configured zone, and what the summarizer makes of
the briefing when it is on. -/
structure BriefingSources where
  zone : Option PyError
  events : Option (Except PyError (List CalendarEvent))
  messages : Option (Except PyError (List GmailMessage))
  snippets : Option String → Except PyError (List String)
  summary : Option (Except PyError String)

/-- A reply in which `ServiceDegradedError` stands for nothing found. -/
def degradable {α : Type} (default : α) : Except PyError α → Except PyError (α × Bool)
  | .ok found => .ok (found, false)
  | .error (.serviceDegraded ..) => .ok (default, true)
  | .error e => .error e

def eventLine (event : CalendarEvent) : String :=
  "- " ++ strOption event.startIso ++ " | " ++ event.title

def emailLine (message : GmailMessage) (snippets : List String) : String :=
  "- " ++ message.subject ++ " — " ++ snippets.head?.getD message.snippet

/-- The lines of the first five messages, and whether a thread was degraded. -/
def emailLines (sources : BriefingSources) :
    List GmailMessage → Except PyError (List String × Bool)
  | [] => .ok ([], false)
  | message :: rest =>
    match degradable [] (sources.snippets message.threadId) with
    | .error e => .error e
    | .ok (snippets, degraded) =>
      match emailLines sources rest with
      | .error e => .error e
      | .ok (lines, more) => .ok (emailLine message snippets :: lines, degraded || more)

def headed (heading : String) (lines : List String) : List String :=
  if lines = [] then [] else heading :: lines ++ [""]

def scheduleLines (sources : BriefingSources) : Except PyError (List String × Bool) :=
  match sources.events with
  | none => .ok ([], false)
  | some reply =>
    (degradable [] reply).map fun found => ((found.1.take 5).map eventLine, found.2)

def mailLines (sources : BriefingSources) : Except PyError (List String × Bool) :=
  match sources.messages with
  | none => .ok ([], false)
  | some reply =>
    match degradable [] reply with
    | .error e => .error e
    | .ok (messages, degraded) =>
      (emailLines sources (messages.take 5)).map fun lines => (lines.1, degraded || lines.2)

def orLine (lines : List String) (placeholder : String) : List String :=
  if lines = [] then [placeholder] else lines

def recentEvents (s : JobState) : List Episode :=
  s.world.disk.episodes.drop (s.world.disk.episodes.length - 3)

def preferences (s : JobState) : List SemanticFact :=
  (s.facts.filter fun fact =>
    decide (fact.scope = "global") && "preference:".toList.isPrefixOf fact.key.toList).take 5

def composed (sources : BriefingSources) (s : JobState) : Except PyError (String × List String) :=
  match scheduleLines sources with
  | .error e => .error e
  | .ok (schedule, calendarDegraded) =>
    match mailLines sources with
    | .error e => .error e
    | .ok (email, gmailDegraded) =>
      let degraded := (if calendarDegraded then ["calendar"] else []) ++
        if gmailDegraded then ["gmail"] else []
      let notice := if degraded = [] then []
        else ["Email/Calendar currently degraded; showing memory-only sections", ""]
      let sections := notice ++ headed "Today's schedule:" schedule ++
        headed "Important emails:" email ++ ["Recent episodes:"] ++
        orLine ((recentEvents s).map fun event => "- " ++ event.summary) "- No recent events" ++
        ["", "Top preferences:"] ++
        orLine ((preferences s).map fun fact => "- " ++ fact.key ++ ": " ++ fact.value)
          "- No saved preferences"
      .ok ("\n".intercalate sections, degraded)

/-- The body of the briefing: what the summarizer answers, unless that is blank. -/
def briefingBody (sources : BriefingSources) (s : JobState) :
    Except PyError (String × List String) :=
  match sources.zone with
  | some e => .error e
  | none =>
    match composed sources s, sources.summary with
    | .error e, _ => .error e
    | .ok body, none => .ok body
    | .ok _, some (.error e) => .error e
    | .ok (body, degraded), some (.ok compressed) =>
      .ok (if strip compressed = "" then body else compressed, degraded)

def briefingEpisode (call : JobCall) (sources : BriefingSources) (s : JobState)
    (correlationId : String) (degraded : List String) : Episode :=
  ⟨"briefing", "Sent daily briefing",
    [("job_id", optional call.jobId), ("correlation_id", .str correlationId),
      ("items", .obj
        [("recent_events", strings ((recentEvents s).map Episode.summary)),
          ("preferences", strings ((preferences s).map fun f => f.key ++ ":" ++ f.value))]),
      ("calendar_included", .bool sources.events.isSome),
      ("gmail_included", .bool sources.messages.isSome),
      ("degraded_services", strings degraded)]⟩

def finishBriefing (made : Constructors) (call : JobCall) (correlationId body : String)
    (episode : Episode) (key : String) (started : Bool) : Job Unit :=
  if !started then
    onWorld <| appendEpisode "briefing" "Skipped duplicate daily briefing"
      [("job_id", optional call.jobId), ("correlation_id", .str correlationId),
        ("skipped_idempotent", .bool true)]
  else do
    activeRouter made call
    sendAndMark call key "Daily Briefing" body (call.notifyMeta correlationId) episode

def runDailyBriefing (rt : Runtime) (made : Constructors) (call : JobCall)
    (sources : BriefingSources) : Job Unit := do
  construct made.memoryManager
  let before ← Prog.read fun s : JobState => s
  let (body, degraded) ← Prog.ask fun s => briefingBody sources s
  let correlationId ← onWorld (drawUuid rt)
  construct made.ledger
  let (key, started) ← startRun rt call "daily-briefing" [] correlationId
  finishBriefing made call correlationId body
    (briefingEpisode call sources before correlationId degraded) key started

end SchedulerJobs
