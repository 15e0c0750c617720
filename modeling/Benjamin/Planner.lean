import Benjamin.AssistantState
import Benjamin.PyJson

/-!
# The planner

`plan` with the commands it recognises, the plan of a language model and the plan it
falls back on. What the model answers is an input; the prompts are left out.
-/
namespace Planner

open PyBase PlanSchemas AssistantState Effect

/-- An answer, or one of the exceptions that the callers expect, or another one. -/
inductive LlmReply (α : Type) where
  | reply (a : α)
  | unavailable
  | raised (e : PyError)

/-- What the planner and the drafter would get; `none` where the feature is off. -/
structure LanguageModel where
  planner : Option (LlmReply Dict)
  drafter : Option (LlmReply String)

def textAfter (marker text : String) : Option String :=
  if marker.toList.isPrefixOf text.toList then some (String.ofList (text.toList.drop marker.length))
  else none

/-- `draft_email`. -/
def draftEmail (llm : LanguageModel) (contextText : String) : Except PyError String :=
  match llm.drafter with
  | some (.reply text) => .ok (strip text)
  | some (.raised e) => .error e
  | some .unavailable | none => .ok ("Hi,\n\n" ++ contextText ++ "\n\nBest,\nBenjamin")

/-- `for item in parsed.get("to") or []` does not raise. -/
def iterable : Json → Bool
  | .str _ | .arr _ | .obj _ => true
  | value => !value.isTruthy

def shortBody (lib : Libraries) (payload : Dict) : Bool :=
  decide ((strip (pyStr lib.toRuntime (payload.lookup "body").orEmpty)).length < 12)

def draftContext (lib : Libraries) (payload : Dict) : String :=
  let body := payload.lookup "body"
  if body.isTruthy then pyStr lib.toRuntime body else "Please provide a helpful response."

def draftPayload (lib : Libraries) (llm : LanguageModel) (payload : String) :
    Except PyError String :=
  match jsonLoads lib payload with
  | .error e => .error e
  | .ok (some (.obj parsed)) =>
    if shortBody lib parsed then
      if iterable (Dict.lookup parsed "to") then
        (draftEmail llm (draftContext lib parsed)).map fun body =>
          dumps (.obj (Dict.set parsed "body" (.str body)))
      else .error (.typeError "object is not iterable")
    else .ok payload
  | .ok _ => .ok payload

def commandPlan (rt : Runtime) (goal description skillName args : String) : Py Plan := do
  let id ← drawUuid rt
  pure ⟨goal, [⟨id, description, some skillName, args, true⟩]⟩

/-- `_deterministic_plan`. -/
def deterministicPlan (lib : Libraries) (llm : LanguageModel) (goal : String) :
    Py (Option Plan) :=
  match textAfter "reminders.create " goal with
  | some text => do
    let plan ← commandPlan lib.toRuntime goal "Create reminder" "reminders.create" (strip text)
    pure (some plan)
  | none =>
    match textAfter "calendar.create_event " goal with
    | some text => do
      let plan ← commandPlan lib.toRuntime goal "Create calendar event" "calendar.create_event"
        (strip text)
      pure (some plan)
    | none =>
      match textAfter "gmail.draft_email " goal with
      | some text => do
        let payload ← Prog.ofExcept (draftPayload lib llm (strip text))
        let plan ← commandPlan lib.toRuntime goal "Create Gmail draft" "gmail.draft_email" payload
        pure (some plan)
      | none => pure none

def validSkills : List String :=
  ["reminders.create", "calendar.search", "calendar.create_event", "gmail.search",
    "gmail.read_message", "gmail.thread_summary", "gmail.draft_email"]

/-- A field of type `str` with a default; `none` is a `ValidationError`. -/
def strField (fields : Dict) (key : String) (default : Option String) : Option String :=
  match fields.find? fun kv => kv.1 = key with
  | none => default
  | some kv => kv.2.asStr

/-- A field of type `str | None`. -/
def optionalField (fields : Dict) (key : String) : Option (Option String) :=
  match fields.lookup key with
  | .null => some none
  | .str s => some (some s)
  | _ => none

def readBool (lib : Libraries) : Json → Option Bool
  | .bool b => some b
  | value => lib.boolFrom value

def boolField (lib : Libraries) (fields : Dict) (key : String) : Option Bool :=
  match fields.find? fun kv => kv.1 = key with
  | none => some false
  | some kv => readBool lib kv.2

/-- `PlanStep.model_validate(raw)`, with the identifier that a missing one is given. -/
def validateStep (lib : Libraries) (newId : String) : Json → Option PlanStep
  | .obj fields => do
    let id ← strField fields "id" (some newId)
    let description ← strField fields "description" none
    let skillName ← optionalField fields "skill_name"
    let args ← strField fields "args" (some "")
    let requiresApproval ← boolField lib fields "requires_approval"
    pure ⟨id, description, skillName, args, requiresApproval⟩
  | _ => none

def namesValidSkill (step : PlanStep) : Bool :=
  match truthy step.skillName with
  | none => true
  | some name => decide (name ∈ validSkills)

def freshId (rt : Runtime) (raw : Json) : Py String :=
  match raw with
  | .obj fields => if fields.any fun kv => kv.1 = "id" then pure "" else drawUuid rt
  | _ => pure ""

/-- The loop of `_llm_plan`; `none` when a step is not taken. -/
def llmSteps (lib : Libraries) : List Json → Py (Option (List PlanStep))
  | [] => pure (some [])
  | raw :: rest => do
    let id ← freshId lib.toRuntime raw
    match (validateStep lib id raw).filter namesValidSkill with
    | none => pure none
    | some step => do
      let steps ← llmSteps lib rest
      pure (steps.map fun steps => step :: steps)

/-- The steps of a payload. What is not a list is no list of steps either: iterating over
it raises or gives values that do not validate. -/
def rawSteps (payload : Dict) : List Json :=
  match payload.lookup "steps" with
  | .arr items => items
  | _ => []

/-- `_llm_plan`. -/
def llmPlan (lib : Libraries) (goal : String) : LlmReply Dict → Py (Option Plan)
  | .unavailable => pure none
  | .raised (.valueError _) | .raised (.typeError _) => pure none
  | .raised e => Prog.raise e
  | .reply payload => do
    let steps ← llmSteps lib (rawSteps payload)
    let planGoal := payload.lookup "goal"
    pure <| (steps.filter fun steps => steps ≠ []).map fun steps =>
      ⟨if planGoal.isTruthy then pyStr lib.toRuntime planGoal else goal, steps⟩

def fallbackPlan (rt : Runtime) (goal : String) : Py Plan := do
  let analyze ← drawUuid rt
  let execute ← drawUuid rt
  pure ⟨goal, [⟨analyze, "Analyze: " ++ goal, none, "", false⟩,
    ⟨execute, "Execute: " ++ goal, none, "", false⟩]⟩

/-- `plan` when no command is recognised. -/
def openPlan (lib : Libraries) (llm : LanguageModel) (goal : String) : Py Plan :=
  match llm.planner with
  | none => fallbackPlan lib.toRuntime goal
  | some reply => do
    let planned ← llmPlan lib goal reply
    match planned with
    | some plan => pure plan
    | none => fallbackPlan lib.toRuntime goal

def plan (lib : Libraries) (llm : LanguageModel) (goal : String) : Py Plan := do
  let deterministic ← deterministicPlan lib llm goal
  match deterministic with
  | some plan => pure plan
  | none => openPlan lib llm goal

end Planner
