import Benjamin.IndentedJson
import Benjamin.LlmCalls
import Benjamin.Planner
import Benjamin.RewrittenFiles
import Mathlib.Data.List.DropRight

/-!
# Documents in the replies of the language model

`complete_json` takes what stands between the first and the last brace of a reply. The fence that
it looks for makes no difference, and a document is read in whatever prose it stands, so that a
plan which the model writes is the plan that the planner gets.
-/
namespace LlmReplies

open PyBase RecordModels JsonReader IndentedJson PlanSchemas AssistantState CircuitBreaker
  BreakerManager
open LlmCalls Planner
open StoredRecords (optionalStr)
open RewrittenFiles (quietLibraries noFloats)

def tick : Char := '`'

def cleaned (raw : String) : List Char :=
  let text := (strip raw).toList
  if [tick, tick, tick].isPrefixOf text then
    let inner := (text.dropWhile (· = tick)).rdropWhile (· = tick)
    if ['j', 's', 'o', 'n'].isPrefixOf inner then (strip (String.ofList (inner.drop 4))).toList
    else inner
  else text

/-- From the first opening brace to the last closing one, if that comes behind it. -/
def braced (cs : List Char) : List Char :=
  (cs.dropWhile (· ≠ '{')).rdropWhile (· ≠ '}')

/-- `_parse_json`. -/
def parseJson (lib : Libraries) (raw : String) : Except PyError (Option Dict) :=
  match braced (cleaned raw) with
  | [] => .ok none
  | snippet => (jsonLoads lib (String.ofList snippet)).map fun parsed =>
    match parsed with
    | some (.obj d) => some d
    | _ => none

structure LlmConfig where
  provider : String
  strictJson : Bool

/-- What `complete_json` returns or raises. -/
inductive JsonReply where
  | parsed (d : Dict)
  | unavailable (message : String)
  | malformed
  | raised (exc : PyError)

def jsonUser (config : LlmConfig) (schemaHint : Dict) (user : String) : String :=
  (if config.strictJson then "Return strict JSON only with no markdown fences and no prose."
    else "Return JSON.") ++ "\n" ++
    (if schemaHint.isEmpty then ""
      else
        "Schema hint: " ++ dumpsWith ⟨", ", ": ", false, false⟩ (.obj schemaHint) ++ "\n") ++ user

/-- `complete_json`. -/
def completeJson (net : Connection) (config : LlmConfig) (system user : String)
    (schemaHint : Dict) (p : Provider) : JsonReply × Provider :=
  let (reply, p) := call net config.provider ⟨system, jsonUser config schemaHint user⟩ p
  let answer := match reply with
    | .unavailable message => .unavailable message
    | .raised exc => .raised exc
    | .text raw => match parseJson net.lib raw with
      | .error exc => .raised exc
      | .ok (some d) => .parsed d
      | .ok none => if config.strictJson then .malformed else .parsed []
  (answer, p)

def plannerReply : JsonReply → LlmReply Dict
  | .parsed d => .reply d
  | .unavailable _ | .malformed => .unavailable
  | .raised exc => .raised exc

def planPayload (plan : Plan) : Dict :=
  [("goal", .str plan.goal), ("steps", .arr (plan.steps.map fun step => .obj (dumpStep step)))]

def Unbraced (cs : List Char) : Prop := ∀ c ∈ cs, c ≠ '{' ∧ c ≠ '}'

theorem braced_behind {front : List Char} (h : '{' ∉ front) (cs : List Char) :
    braced (front ++ cs) = braced cs := by
  have hfront : ∀ c ∈ front, decide (c ≠ '{') = true := by
    intro c hc
    have hne : c ≠ '{' := fun heq => h (heq ▸ hc)
    simpa using hne
  rw [braced, List.dropWhile_append_of_pos hfront, braced]

theorem rdropWhile_append_of_pos {p : Char → Bool} {back : List Char} (h : ∀ c ∈ back, p c = true)
    (cs : List Char) : (cs ++ back).rdropWhile p = cs.rdropWhile p := by
  rw [List.rdropWhile, List.reverse_append,
    List.dropWhile_append_of_pos (by simpa using h), ← List.rdropWhile]

theorem braced_before {back : List Char} (h : Unbraced back) (cs : List Char) :
    braced (cs ++ back) = braced cs := by
  have hclosing : ∀ c ∈ back, decide (c ≠ '}') = true := fun c hc => by simpa using (h c hc).2
  have hopening : back.dropWhile (fun c => decide (c ≠ '{')) = [] := by
    rw [List.dropWhile_eq_nil_iff]
    exact fun c hc => by simpa using (h c hc).1
  rw [braced, List.dropWhile_append, braced]
  split
  · rename_i hempty
    rw [hopening, List.isEmpty_iff.mp hempty]
  · rw [rdropWhile_append_of_pos hclosing]

theorem braced_within {front back : List Char} (hfront : Unbraced front) (hback : Unbraced back)
    (cs : List Char) : braced (front ++ cs ++ back) = braced cs := by
  rw [braced_before hback, braced_behind fun h => (hfront _ h).1 rfl]

theorem trimmed (p : Char → Bool) (cs : List Char) : ∃ front back,
    cs = front ++ (cs.dropWhile p).rdropWhile p ++ back ∧ (∀ c ∈ front, p c = true) ∧
      ∀ c ∈ back, p c = true := by
  refine ⟨cs.takeWhile p, (cs.dropWhile p).rtakeWhile p, ?_, ?_, ?_⟩
  · rw [List.append_assoc, List.rdropWhile_append_rtakeWhile, List.takeWhile_append_dropWhile]
  · exact fun c hc => List.mem_takeWhile_imp hc
  · exact fun c hc => List.mem_rtakeWhile_imp hc

theorem braced_trimmed {p : Char → Bool} (h : ∀ c, p c = true → c ≠ '{' ∧ c ≠ '}')
    (cs : List Char) : braced ((cs.dropWhile p).rdropWhile p) = braced cs := by
  obtain ⟨front, back, hcs, hfront, hback⟩ := trimmed p cs
  have hfrontPlain : Unbraced front := fun c hc => h c (hfront c hc)
  have hbackPlain : Unbraced back := fun c hc => h c (hback c hc)
  have hwithin := braced_within hfrontPlain hbackPlain ((cs.dropWhile p).rdropWhile p)
  rw [← hcs] at hwithin
  exact hwithin.symm

theorem toList_strip (s : String) :
    (strip s).toList = (s.toList.dropWhile isSpace).rdropWhile isSpace := by
  rw [strip, String.toList_ofList, List.rdropWhile]

theorem braced_strip (s : String) : braced (strip s).toList = braced s.toList := by
  rw [toList_strip]
  refine braced_trimmed (fun c hc => ?_) _
  constructor
  · rintro rfl
    exact absurd hc (by decide)
  · rintro rfl
    exact absurd hc (by decide)

theorem braced_cleaned (raw : String) : braced (cleaned raw) = braced raw.toList := by
  have htick : ∀ c, decide (c = tick) = true → c ≠ '{' ∧ c ≠ '}' := by
    intro c hc
    obtain rfl : c = tick := by simpa using hc
    decide
  rw [cleaned]
  dsimp only
  split
  · split
    · rename_i hjson
      obtain ⟨inner, hinner⟩ := List.isPrefixOf_iff_prefix.mp hjson
      have hjsonless : braced (['j', 's', 'o', 'n'] ++ inner) = braced inner :=
        braced_behind (by decide) inner
      have hdrop : (['j', 's', 'o', 'n'] ++ inner).drop 4 = inner := rfl
      rw [braced_strip, String.toList_ofList, ← hinner, hdrop, ← hjsonless, hinner,
        braced_trimmed htick, braced_strip]
    · rw [braced_trimmed htick, braced_strip]
  · exact braced_strip raw

theorem parseJson_eq (lib : Libraries) (raw : String) : parseJson lib raw =
    match braced raw.toList with
    | [] => .ok none
    | snippet => (jsonLoads lib (String.ofList snippet)).map fun parsed =>
      match parsed with
      | some (.obj d) => some d
      | _ => none := by
  rw [parseJson, braced_cleaned]

section Documents

variable {floats : Floats} {c : DumpsCall} {d read : Dict}

theorem braced_document (c : DumpsCall) (d : Dict) {before after : List Char}
    (hbefore : '{' ∉ before) (hafter : '}' ∉ after) :
    braced (before ++ (c.text (.obj d)).toList ++ after) = (c.text (.obj d)).toList := by
  obtain ⟨inner, hinner⟩ := c.text_braces d
  have hclosing : ∀ c ∈ after, decide (c ≠ '}') = true := by
    intro c hc
    have hne : c ≠ '}' := fun heq => hafter (heq ▸ hc)
    simpa using hne
  rw [hinner, List.append_assoc, braced_behind hbefore, braced, List.cons_append,
    List.dropWhile_cons_of_neg (by decide), ← List.cons_append,
    rdropWhile_append_of_pos hclosing, ← List.cons_append]
  exact List.rdropWhile_concat_neg _ _ _ (by decide)

/-- A document is read in the midst of any prose. -/
theorem parseJson_document {lib : Libraries} (hloads : lib.loads = loads floats) (hc : c.Spaced)
    (hd : Genuine (IsFloat floats) (.obj d)) (hread : c.arranged (.obj d) = .obj read)
    (hquiet : lib.loadsRaises (c.text (.obj d)) = none) {before after : String}
    (hbefore : '{' ∉ before.toList) (hafter : '}' ∉ after.toList) :
    parseJson lib (before ++ c.text (.obj d) ++ after) = .ok (some read) := by
  obtain ⟨inner, hinner⟩ := c.text_braces d
  have hbraced := braced_document c d hbefore hafter
  have hloaded : jsonLoads lib (c.text (.obj d)) = .ok (some (.obj read)) := by
    rw [jsonLoads, hquiet, hloads, DumpsCall.loads_text hc hd, hread]
  have hsnippet : String.ofList ('{' :: (inner ++ ['}'])) = c.text (.obj d) := by
    rw [← hinner, String.ofList_toList]
  rw [parseJson_eq, String.toList_append, String.toList_append, hbraced, hinner]
  dsimp only
  rw [hsnippet, hloaded]
  rfl

end Documents

theorem optionalStr_genuine (IsFloat : String → Prop) (value : Option String) :
    Genuine IsFloat (optionalStr value) := by
  cases value with
  | none => exact .null
  | some s => exact .str s

theorem planPayload_genuine (IsFloat : String → Prop) (plan : Plan) :
    Genuine IsFloat (.obj (planPayload plan)) := by
  have hstep : ∀ step : PlanStep, Genuine IsFloat (.obj (dumpStep step)) := by
    intro step
    refine .obj (by simp [dumpStep]) ?_
    simp only [dumpStep, List.forall_mem_cons, List.not_mem_nil, false_implies, implies_true,
      and_true]
    exact ⟨.str _, .str _, optionalStr_genuine IsFloat _, .str _, .bool _⟩
  refine .obj (by simp [planPayload]) ?_
  simp only [planPayload, List.forall_mem_cons, List.not_mem_nil, false_implies, implies_true,
    and_true]
  refine ⟨.str _, .arr fun item hitem => ?_⟩
  obtain ⟨step, -, rfl⟩ := List.mem_map.mp hitem
  exact hstep step

def sortedStep (step : PlanStep) : Dict :=
  [("args", .str step.args), ("description", .str step.description), ("id", .str step.id),
    ("requires_approval", .bool step.requiresApproval), ("skill_name", optionalStr step.skillName)]

theorem sortedJson_optionalStr (value : Option String) :
    sortedJson (optionalStr value) = optionalStr value := by
  cases value <;> rfl

theorem sortedJson_dumpStep (step : PlanStep) :
    sortedJson (.obj (dumpStep step)) = .obj (sortedStep step) := by
  rw [sortedJson_obj]
  simp [dumpStep, sortedStep, sortedJson, sortedJson_optionalStr, CanonicalJson.sorted,
    CanonicalJson.byKey]

/-- The steps as `json.loads` gives them back. -/
def stepRead (c : DumpsCall) (step : PlanStep) : Dict :=
  if c.sortKeys then sortedStep step else dumpStep step

def planRead (c : DumpsCall) (plan : Plan) : Dict :=
  [("goal", .str plan.goal), ("steps", .arr (plan.steps.map fun step => .obj (stepRead c step)))]

theorem arranged_planPayload (c : DumpsCall) (plan : Plan) :
    c.arranged (.obj (planPayload plan)) = .obj (planRead c plan) := by
  cases hsort : c.sortKeys with
  | false => simp [DumpsCall.arranged, planRead, stepRead, planPayload, hsort]
  | true =>
    have hsteps : (plan.steps.map fun step => Json.obj (dumpStep step)).map sortedJson =
        plan.steps.map fun step => Json.obj (sortedStep step) := by
      rw [List.map_map]
      exact List.map_congr_left fun step _ => sortedJson_dumpStep step
    rw [DumpsCall.arranged, hsort, if_pos rfl, sortedJson_obj]
    simp only [planPayload, List.map_cons, List.map_nil, sortedJson, sortedItems_map, hsteps]
    simp [planRead, stepRead, hsort, CanonicalJson.sorted, CanonicalJson.byKey]

theorem validateStep_read (lib : Libraries) (newId : String) (c : DumpsCall) (step : PlanStep) :
    Planner.validateStep lib newId (.obj (stepRead c step)) = some step := by
  obtain ⟨id, description, skillName, args, requiresApproval⟩ := step
  rw [stepRead]
  split
  · cases skillName <;> rfl
  · cases skillName <;> rfl

theorem freshId_read (rt : Runtime) (c : DumpsCall) (step : PlanStep) (w : World) :
    freshId rt (.obj (stepRead c step)) w = (.ok "", w) := by
  rw [stepRead]
  split <;> rfl

/-- The steps are read as they were written, and none is given a new identifier. -/
theorem llmSteps_read (lib : Libraries) (c : DumpsCall) {steps : List PlanStep}
    (hvalid : ∀ step ∈ steps, namesValidSkill step = true) (w : World) :
    llmSteps lib (steps.map fun step => .obj (stepRead c step)) w = (.ok (some steps), w) := by
  induction steps with
  | nil => rfl
  | cons step rest ih =>
    have hstep : (Planner.validateStep lib "" (.obj (stepRead c step))).filter namesValidSkill =
        some step := by
      rw [validateStep_read, Option.filter, hvalid step List.mem_cons_self, if_pos rfl]
    have hrest := ih fun other hother => hvalid other (List.mem_cons_of_mem _ hother)
    rw [List.map_cons, llmSteps, Effect.bind_ok (freshId_read _ c step w), hstep]
    dsimp only
    rw [Effect.bind_ok hrest]
    rfl

theorem llmPlan_read (lib : Libraries) (c : DumpsCall) (goal : String) {plan : Plan}
    (hgoal : plan.goal ≠ "") (hsteps : plan.steps ≠ [])
    (hvalid : ∀ step ∈ plan.steps, namesValidSkill step = true) (w : World) :
    llmPlan lib goal (.reply (planRead c plan)) w = (.ok (some plan), w) := by
  have hread := llmSteps_read lib c hvalid w
  have hraw : rawSteps (planRead c plan) =
      plan.steps.map fun step => .obj (stepRead c step) := rfl
  have hname : (planRead c plan).lookup "goal" = .str plan.goal := rfl
  rw [llmPlan, hraw, Effect.bind_ok hread, hname]
  simp [Option.filter, hsteps, Json.isTruthy, hgoal, pyStr]

/-- The breaker, if it is on, lets the next request through. -/
def LetThrough (net : Connection) (p : Provider) : Prop :=
  p.manager.enabled = true → Admitted (p.manager.get "llm") (net.times p.reads)

def Settled (p : Provider) : Prop :=
  p.manager.enabled = true →
    (p.manager.get "llm").state = .closed ∧ (p.manager.get "llm").failureCount = 0

section Answered

variable {net : Connection} {p : Provider} {data : Dict} {raw : String}

theorem chatCompletion_answered (hrequest : (request net p).1 = .ok data)
    (htext : chatText net.lib data = .ok raw) : (chatCompletion net p).1 = .ok raw := by
  rw [chatCompletion, hrequest]
  dsimp only
  rw [htext]
  rfl

theorem wrapChat_answered (hthrough : LetThrough net p) (hrequest : (request net p).1 = .ok data)
    (htext : chatText net.lib data = .ok raw) :
    (wrapChat net p).1 = .ok raw ∧ (wrapChat net p).2.completions = p.completions + 1 ∧
      Settled (wrapChat net p).2 := by
  cases henabled : p.manager.enabled with
  | false =>
    have hanswer := chatCompletion_answered hrequest htext
    simp only [wrapChat, henabled, Bool.not_false, if_true, hanswer]
    refine ⟨rfl, rfl, fun hon => ?_⟩
    cases henabled.symm.trans hon
  | true =>
    obtain ⟨b, hallow⟩ := hthrough henabled
    have hanswer : (chatCompletion net (p.asked b)).1 = .ok raw :=
      chatCompletion_answered hrequest htext
    have hafter := wrapChat_admitted henabled hallow
    rw [hanswer] at hafter
    have hget : ((chatCompletion net (p.asked b)).2.concluded (.ok raw)
        (net.times (p.reads + 1))).manager.get "llm" =
          ((p.asked b).manager.get "llm").recordSuccess.1 := get_put_self _ (get_service _ _)
    refine ⟨?_, ?_, fun _ => ?_⟩
    · have hfirst : (wrapChat net p).1 = (chatCompletion net (p.asked b)).1.mapError .chat := by
        simp [wrapChat, henabled, Manager.ask, hallow, Provider.asked]
      rw [hfirst, hanswer]
      rfl
    · rw [hafter]
      rfl
    · rw [hafter, hget]
      exact ⟨rfl, rfl⟩

theorem call_answered {provider : String} (hprovider : provider ∈ ["vllm", "http"])
    (hthrough : LetThrough net p) (hrequest : (request net p).1 = .ok data)
    (htext : chatText net.lib data = .ok raw) (prompt : Prompt) :
    call net provider prompt p = (.text raw, (wrapChat net p).2) := by
  obtain ⟨hanswer, -⟩ := wrapChat_answered hthrough hrequest htext
  have hon : provider ≠ "off" := by
    rintro rfl
    exact absurd hprovider (by decide)
  rw [call, if_neg hon, if_pos hprovider, attempts]
  simp only [hanswer, tried]

end Answered

/-- A plan that the model writes as a document, however it is laid out and in whatever prose, is
the plan that the planner makes of the reply, on one completion, and the breaker is closed after
it. -/
theorem written_plan_planned {net : Connection} {floats : Floats} {c : DumpsCall}
    {config : LlmConfig} {p : Provider} {data : Dict} {plan : Plan} {before after : String}
    (hloads : net.lib.loads = loads floats) (hc : c.Spaced)
    (hprovider : config.provider ∈ ["vllm", "http"]) (hthrough : LetThrough net p)
    (hrequest : (request net p).1 = .ok data)
    (htext : chatText net.lib data = .ok (before ++ c.text (.obj (planPayload plan)) ++ after))
    (hbefore : '{' ∉ before.toList) (hafter : '}' ∉ after.toList)
    (hquiet : net.lib.loadsRaises (c.text (.obj (planPayload plan))) = none)
    (hgoal : plan.goal ≠ "") (hsteps : plan.steps ≠ [])
    (hvalid : ∀ step ∈ plan.steps, namesValidSkill step = true)
    (system user goal : String) (schemaHint : Dict) (w : World) :
    let reply := completeJson net config system user schemaHint p
    llmPlan net.lib goal (plannerReply reply.1) w = (.ok (some plan), w) ∧
      reply.2.completions = p.completions + 1 ∧ Settled reply.2 := by
  obtain ⟨-, hcompletions, hsettled⟩ := wrapChat_answered hthrough hrequest htext
  have hparsed := parseJson_document hloads hc (planPayload_genuine (IsFloat floats) plan)
    (arranged_planPayload c plan) hquiet hbefore hafter
  intro reply
  have hreply : reply = (.parsed (planRead c plan), (wrapChat net p).2) := by
    simp only [reply, completeJson, call_answered hprovider hthrough hrequest htext, hparsed]
  rw [hreply]
  exact ⟨llmPlan_read net.lib c goal hgoal hsteps hvalid w, hcompletions, hsettled⟩

def searchPlan : Plan := ⟨"Find the tickets", [⟨"s1", "Search", some "gmail.search", "", false⟩]⟩

def fenced : String :=
  "Here it is:\n```json\n" ++ (DumpsCall.indented true).text (.obj (planPayload searchPlan)) ++
    "\n```"

def fencedData : Dict :=
  [("choices", .arr [.obj [("message", .obj [("content", .str fenced)])]])]

def answering : Connection :=
  { unreachable with
    lib := reading quietLibraries noFloats
    outcomes := fun _ => .response ⟨200, .ok (.obj fencedData)⟩ }

theorem fenced_plan_planned :
    let reply := completeJson answering ⟨"vllm", true⟩ "" "" [] ⟨freshManager, 0, 0, 0⟩
    llmPlan answering.lib "tickets" (plannerReply reply.1) (freshWorld exampleSurroundings) =
        (.ok (some searchPlan), freshWorld exampleSurroundings) ∧
      reply.2.completions = 1 ∧ Settled reply.2 := by
  have htext : chatText answering.lib fencedData = .ok fenced := rfl
  exact written_plan_planned (c := .indented true) rfl trivial (by decide)
    (fun _ => ⟨_, rfl⟩) rfl htext
    (by decide) (by decide) rfl (by decide) (by decide) (by decide) "" "" "tickets" []
    (freshWorld exampleSurroundings)

end LlmReplies
