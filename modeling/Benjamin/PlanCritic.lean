import Benjamin.PlanSchemas
import Benjamin.PyJson

/-!
# The plan critic

`review` with its three checks. A check gives the result for its step, the step as
the check leaves it and the warnings it adds. What a check raises ends the review.
The clock does not move during a review.
-/
namespace PlanCritic

open PyBase PlanSchemas

/-- The change of one payload key: the key, its old and its new value. -/
abbrev Change := String × Json × Json

structure CriticNormalization where
  stepId : String
  changes : List Change

structure CriticResult where
  ok : Bool
  plan : Option Plan
  warnings : List String
  errors : List String
  userQuestion : Option String
  normalizations : List CriticNormalization

structure StepReview where
  result : CriticResult
  step : PlanStep
  warnings : List String

structure Critic where
  lib : Libraries
  defaultTimezone : String

def turnedDown (step : PlanStep) (error question : String) : StepReview :=
  ⟨⟨false, none, [], [error], some question, []⟩, step, []⟩

def passed (step : PlanStep) (payload : Dict) (changes : List Change) (warnings : List String) :
    StepReview :=
  match changes with
  | [] => ⟨⟨true, none, [], [], none, []⟩, step, warnings⟩
  | _ :: _ =>
    ⟨⟨true, none, [], [], none, [⟨step.id, changes⟩]⟩, { step with args := dumps (.obj payload) },
      warnings⟩

def warnIf (condition : Bool) (warning : String) : List String :=
  if condition then [warning] else []

/-- The name under which `_parse_iso` looks up the zone of a naive time. -/
def zoneName (c : Critic) (timezoneValue : Json) : String :=
  match timezoneValue with
  | .null => c.defaultTimezone
  | value => strip (pyStr c.lib.toRuntime value)

/-- `_valid_timezone`. -/
def validTimezone (c : Critic) (timezoneName : String) : Except PyError Bool :=
  match c.lib.zoneInfo timezoneName with
  | .zone _ => .ok true
  | .notFound => .ok false
  | .badKey message => .error (.valueError message)

/-- The end of `_parse_iso` for a naive time. -/
def parseNaive (c : Critic) (wall : Int) (timezoneName : String) : Except PyError (Option Int) :=
  match c.lib.zoneInfo timezoneName with
  | .zone instant => (toUtc (instant wall)).map some
  | .notFound => .ok none
  | .badKey message => .error (.valueError message)

/-- `_parse_iso`: the UTC instant. -/
def parseIso (c : Critic) (value timezoneValue : Json) : Except PyError (Option Int) :=
  match value with
  | .str text =>
    if strip text = "" then .ok none
    else
      match c.lib.fromisoformat text with
      | none => .ok none
      | some (.aware utc) => (toUtc utc).map some
      | some (.naive wall) => parseNaive c wall (zoneName c timezoneValue)
  | _ => .ok none

/-- `timezone_name is None or str(timezone_name).strip() == ""`. -/
def blankTimezone (c : Critic) : Json → Bool
  | .null => true
  | value => decide (strip (pyStr c.lib.toRuntime value) = "")

/-- `_review_calendar` from the comparison of the times on. -/
def reviewTimes (now start stop : Int) (step : PlanStep) (payload : Dict)
    (changes : List Change) : Except PyError StepReview :=
  if stop ≤ start then
    .ok <| turnedDown step "Event end time must be after start time."
      "Your event end time is before the start time. What should the correct end time be?"
  else
    match addHours now (365 * 2 * 24) with
    | .error e => .error e
    | .ok horizon =>
      .ok <| passed step payload changes <|
        warnIf (decide (horizon < start))
            "calendar.create_event start time is more than 2 years in the future." ++
          warnIf (decide (8 * 3600000000 < stop - start))
            "calendar.create_event duration exceeds 8 hours."

/-- `_review_calendar` once both times are known. -/
def reviewTimezone (c : Critic) (now start stop : Int) (step : PlanStep) (payload : Dict) :
    Except PyError StepReview :=
  let timezoneName := payload.lookup "timezone"
  if blankTimezone c timezoneName then
    reviewTimes now start stop step (payload.set "timezone" (.str c.defaultTimezone))
      [("timezone", timezoneName, .str c.defaultTimezone)]
  else
    match validTimezone c (pyStr c.lib.toRuntime timezoneName) with
    | .error e => .error e
    | .ok false => .ok <| turnedDown step
        ("Invalid timezone: " ++ pyStr c.lib.toRuntime timezoneName)
        "The timezone looks invalid. What timezone should I use (for example, America/New_York)?"
    | .ok true => reviewTimes now start stop step payload []

def reviewCalendar (c : Critic) (now : Int) (step : PlanStep) (payload : Dict) :
    Except PyError StepReview := do
  let start ← parseIso c (payload.lookup "start_iso") (payload.lookup "timezone")
  let stop ← parseIso c (payload.lookup "end_iso") (payload.lookup "timezone")
  match start, stop with
  | some start, some stop => reviewTimezone c now start stop step payload
  | _, _ =>
    .ok <| turnedDown step "calendar.create_event requires valid start_iso and end_iso."
      "I couldn't understand the event times. Can you provide valid start and end times?"

/-- `payload.get("to") or []`, and the empty list for what is not a list. -/
def recipients : Json → List Json
  | .arr items => items
  | _ => []

/-- The trimmed addresses that are not blank, each once, in the order they first occur. -/
def normalizedRecipients (c : Critic) (addresses : List Json) : List String :=
  ((addresses.map fun address => strip (pyStr c.lib.toRuntime address)).filter (· ≠ "")).eraseDups

def reviewGmail (c : Critic) (step : PlanStep) (payload : Dict) : StepReview :=
  let toList := recipients (payload.lookup "to")
  let deduped := normalizedRecipients c toList
  let subject := strip (pyStr c.lib.toRuntime (payload.lookup "subject").orEmpty)
  let warnings := warnIf (decide (subject = "")) "gmail.draft_email subject is empty."
  if deduped = [] then
    turnedDown step "gmail.draft_email requires at least one recipient."
      "Who should I email? Provide at least one recipient."
  else if toList.map Json.asStr = deduped.map some then passed step payload [] warnings
  else
    passed step (payload.set "to" (.arr (deduped.map .str)))
      [("to", .arr toList, .arr (deduped.map .str))] warnings

/-- `_review_reminder` once the time is known. -/
def reviewRunAt (now runAt : Int) (step : PlanStep) (payload : Dict) : Except PyError StepReview :=
  if runAt ≤ now then
    match addMinutes now 5 with
    | .error e => .error e
    | .ok adjusted => .ok <|
        passed step (payload.set "run_at_iso" (.str (isoformat adjusted)))
          [("run_at_iso", payload.lookup "run_at_iso", .str (isoformat adjusted))] []
  else .ok (passed step payload [] [])

def reviewReminder (c : Critic) (now : Int) (step : PlanStep) (payload : Dict) :
    Except PyError StepReview :=
  if strip (pyStr c.lib.toRuntime (payload.lookup "message").orEmpty) = "" then
    .ok <| turnedDown step "reminders.create requires a non-empty message."
      "What reminder message should I save?"
  else
    match parseIso c (payload.lookup "run_at_iso") (payload.lookup "timezone") with
    | .error e => .error e
    | .ok none => .ok <| turnedDown step "reminders.create requires valid run_at_iso."
        "When should I schedule this reminder? Please provide a valid date/time."
    | .ok (some runAt) => reviewRunAt now runAt step payload

/-- What the three checks share: the payload is read first, and a text that is no JSON
is turned down. A document that is no object has no `get`. -/
def reviewPayload (c : Critic) (step : PlanStep) (error question : String)
    (check : Dict → Except PyError StepReview) : Except PyError StepReview :=
  match jsonLoads c.lib step.args with
  | .error e => .error e
  | .ok none => .ok (turnedDown step error question)
  | .ok (some (.obj payload)) => check payload
  | .ok (some _) => .error noAttribute

/-- One turn of the loop of `review`. -/
def reviewStep (c : Critic) (now : Int) (step : PlanStep) : Except PyError StepReview :=
  if step.skillName = some "calendar.create_event" then
    reviewPayload c step "Invalid calendar.create_event payload JSON."
      "I couldn't parse the event details. Could you resend them in JSON format?"
      (reviewCalendar c now step)
  else if step.skillName = some "gmail.draft_email" then
    reviewPayload c step "Invalid gmail.draft_email payload JSON."
      "I couldn't parse the email draft details. Could you resend them in JSON format?"
      fun payload => .ok (reviewGmail c step payload)
  else if step.skillName = some "reminders.create" then
    reviewPayload c step "Invalid reminders.create payload JSON."
      "I couldn't parse the reminder details. Could you resend them in JSON format?"
      (reviewReminder c now step)
  else .ok (passed step [] [] [])

/-- The loop of `review`, with the steps as it leaves them. -/
def reviewSteps (c : Critic) (now : Int) (warnings : List String)
    (normalizations : List CriticNormalization) :
    List PlanStep → Except PyError (CriticResult × List PlanStep)
  | [] => .ok (⟨true, none, warnings, [], none, normalizations⟩, [])
  | step :: rest =>
    match reviewStep c now step with
    | .error e => .error e
    | .ok reviewed =>
      if reviewed.result.ok then
        (reviewSteps c now (warnings ++ reviewed.warnings)
          (normalizations ++ reviewed.result.normalizations) rest).map
            fun (result, steps) => (result, reviewed.step :: steps)
      else .ok (reviewed.result, reviewed.step :: rest)

/-- `review`, with the plan as the call leaves it. -/
def review (c : Critic) (now : Int) (plan : Plan) : Except PyError (CriticResult × Plan) :=
  (reviewSteps c now [] [] plan.steps).map fun (result, steps) =>
    let reviewed := { plan with steps }
    ({ result with plan := if result.ok then some reviewed else none }, reviewed)

end PlanCritic
