import Benjamin.RulesEvaluator
import Benjamin.SerialRun

/-!
# Edits during an evaluation pass

Evaluation passes and user requests on the rules, interleaved at their reads and
writes of the store. A pass holds the rules of its snapshot and writes each one back
whole, so that the definition it writes is the one it read. The world in which a step
is taken comes from outside.
-/
namespace RuleEdits

open PyBase AssistantState RuleSchemas RuleMatching RuleStore RuleEngine SchedulerJobs
  RulesEvaluator Effect

/-- The body of a `PUT`, and what the user wrote of a rule. -/
structure RuleCreate where
  name : String
  enabled : Bool
  trigger : RuleTrigger
  condition : RuleCondition
  actions : List RuleAction
  maxActionsPerRun : Int
  cooldownMinutes : Int

def definitionOf (rule : Rule) : RuleCreate :=
  ⟨rule.name, rule.enabled, rule.trigger, rule.condition, rule.actions, rule.maxActionsPerRun,
    rule.cooldownMinutes⟩

/-- The rule that `update_rule` writes. -/
def updated (payload : RuleCreate) (existing : Rule) : Rule :=
  { existing with
    name := payload.name
    enabled := payload.enabled
    trigger := payload.trigger
    condition := payload.condition
    actions := payload.actions
    maxActionsPerRun := payload.maxActionsPerRun
    cooldownMinutes := payload.cooldownMinutes }

/-- The rule that `reset_rule_state` writes. -/
def stateReset (existing : Rule) : Rule :=
  { existing with
    state := { existing.state with
      lastRunIso := none
      lastMatchIso := none
      cooldownUntilIso := none
      seenIds := []
      lastCursorIso := none }
    lastRunIso := none
    lastMatchIso := none }

inductive Response where
  | rule (r : Rule)
  | deleted (ruleId : String)

def ruleNotFound : PyError := .httpException 404 "rule not found"

inductive Request where
  | update (ruleId : String) (payload : RuleCreate)
  | setEnabled (ruleId : String) (enabled : Bool)
  | delete (ruleId : String)
  | resetState (ruleId : String)

inductive RequestPc where
  | start
  | writing (rule : Rule)
  | done (answer : Except PyError Response)

structure Pass where
  engine : Engine
  correlationId : String

inductive PassPc where
  | start
  | looping (rest : List Rule) (results : List RuleRunResult)
  | evaluated (read : Rule) (answer : RuleRunResult × Rule) (rest : List Rule)
      (results : List RuleRunResult)
  | failed (e : PyError)

inductive Client where
  | request (request : Request) (pc : RequestPc)
  | pass (pass : Pass) (pc : PassPc)

structure Choice where
  world : World
  feed : Feed

def Choice.nowIso (x : Choice) : String := isoformat x.world.now

def editing (edit : Rule → Rule) : Option Rule → RequestPc
  | some existing => .writing (edit existing)
  | none => .done (.error ruleNotFound)

def advanceRequest (nowIso : String) (file : RulesFile) (request : Request) :
    RequestPc → RulesFile × RequestPc
  | .start =>
    match request with
    | .update ruleId payload => (file, editing (updated payload) (get file ruleId))
    | .resetState ruleId => (file, editing stateReset (get file ruleId))
    | .setEnabled ruleId enabled =>
      let stored := setEnabled nowIso ruleId enabled file
      (stored.2, .done (match stored.1 with
        | some rule => .ok (.rule rule)
        | none => .error ruleNotFound))
    | .delete ruleId =>
      let filtered := delete ruleId file
      (filtered.2, .done (if filtered.1 then .ok (.deleted ruleId) else .error ruleNotFound))
  | .writing rule => (upsert nowIso rule file, .done (.ok (.rule (stamped nowIso rule))))
  | .done answer => (file, .done answer)

def advancePass (rt : Runtime) (pass : Pass) (x : Choice) (file : RulesFile) :
    PassPc → RulesFile × PassPc
  | .start => (file, .looping (listAll file) [])
  | .looping [] results => (file, .looping [] results)
  | .looping (rule :: rest) results =>
    if rule.enabled then
      match (evaluateRule rt pass.engine x.feed (some pass.correlationId) rule x.world).1 with
      | .ok answer => (file, .evaluated rule answer rest results)
      | .error e => (file, .failed e)
    else (file, .looping rest results)
  | .evaluated _ answer rest results =>
    (upsert x.nowIso answer.2 file, .looping rest (results ++ [answer.1]))
  | .failed e => (file, .failed e)

/-- What the store says of each rule. -/
def definitions (file : RulesFile) (ruleId : String) : Option RuleCreate :=
  (get file ruleId).map definitionOf

/-- The rule that a step of a request writes, with its definition, `none` if deleted. -/
def writes (file : RulesFile) (request : Request) :
    RequestPc → Option (String × Option RuleCreate)
  | .start =>
    match request with
    | .setEnabled ruleId enabled => (get file ruleId).map fun rule =>
      (ruleId, some (definitionOf { rule with enabled }))
    | .delete ruleId => (get file ruleId).map fun _ => (ruleId, none)
    | .update _ _ | .resetState _ => none
  | .writing rule => some (rule.id, some (definitionOf rule))
  | .done _ => none

/-- The store, with what the users wrote last of each rule. No step reads the latter. -/
structure Shared where
  rules : RulesFile
  written : String → Option RuleCreate

def recorded (written : String → Option RuleCreate) :
    Option (String × Option RuleCreate) → String → Option RuleCreate
  | some (ruleId, definition) => Function.update written ruleId definition
  | none => written

def advance (rt : Runtime) (x : Choice) (s : Shared) : Client → Shared × Client
  | .request request pc =>
    let moved := advanceRequest x.nowIso s.rules request pc
    (⟨moved.1, recorded s.written (writes s.rules request pc)⟩, .request request moved.2)
  | .pass pass pc =>
    let moved := advancePass rt pass x s.rules pc
    ({ s with rules := moved.1 }, .pass pass moved.2)

/-- Every rule has the definition that its last user gave it, or is gone if deleted. -/
def AsWritten (s : Shared) : Prop := definitions s.rules = s.written

@[simp] theorem definitionOf_migrateRule (rule : Rule) :
    definitionOf (migrateRule rule) = definitionOf rule := rfl

@[simp] theorem definitionOf_migrateLegacyState (rule : Rule) :
    definitionOf (migrateLegacyState rule) = definitionOf rule := rfl

@[simp] theorem definitionOf_stamped (nowIso : String) (rule : Rule) :
    definitionOf (stamped nowIso rule) = definitionOf rule := rfl

theorem loadAll_writeAll (rules : List Rule) :
    loadAll (writeAll rules) =
      rules.map fun rule => migrateRule (migrateLegacyState (migrateRule rule)) := by
  induction rules with
  | nil => rfl
  | cons rule rules ih => exact congrArg (_ :: ·) ih

theorem definitions_writeAll (rules : List Rule) (ruleId : String) :
    definitions (writeAll rules) ruleId =
        (KeyedList.get Rule.id rules ruleId).map definitionOf := by
  have hget : get (writeAll rules) ruleId = (KeyedList.get Rule.id rules ruleId).map
      fun rule => migrateRule (migrateLegacyState (migrateRule rule)) := by
    rw [RuleStore.get, loadAll_writeAll]
    exact KeyedList.get_map (f := fun rule => migrateRule (migrateLegacyState (migrateRule rule)))
      (fun _ => rfl) rules ruleId
  rw [definitions, hget, Option.map_map]
  rfl

theorem definitions_upsert (nowIso : String) (rule : Rule) (file : RulesFile) :
    definitions (upsert nowIso rule file) =
      Function.update (definitions file) rule.id (some (definitionOf rule)) := by
  funext ruleId
  rw [upsert, definitions_writeAll]
  by_cases h : rule.id = ruleId
  · subst h
    have hself : KeyedList.get Rule.id (KeyedList.upsert Rule.id (stamped nowIso rule)
        (loadAll file)) rule.id = some (stamped nowIso rule) :=
      KeyedList.get_upsert_self (stamped nowIso rule) (loadAll file)
    rw [hself, Function.update_self]
    rfl
  · have hne : (stamped nowIso rule).id ≠ ruleId := h
    rw [KeyedList.get_upsert_ne hne, Function.update_of_ne (Ne.symm h)]
    rfl

theorem definitions_delete (deletedId : String) (file : RulesFile) :
    definitions (delete deletedId file).2 = Function.update (definitions file) deletedId none := by
  funext ruleId
  have hfiltered : ((KeyedList.get Rule.id (KeyedList.delete Rule.id deletedId (loadAll file))
      ruleId).map definitionOf) = Function.update (definitions file) deletedId none ruleId := by
    by_cases h : deletedId = ruleId
    · subst h
      rw [KeyedList.get_delete_self, Function.update_self]
      rfl
    · rw [KeyedList.get_delete_ne h, Function.update_of_ne (Ne.symm h)]
      rfl
  rw [delete]
  by_cases hlength : (KeyedList.delete Rule.id deletedId (loadAll file)).length =
      (loadAll file).length
  · -- Nothing was dropped, and the file stays as it is.
    have hsame : KeyedList.delete Rule.id deletedId (loadAll file) = loadAll file :=
      List.filter_sublist.eq_of_length hlength
    rw [if_pos hlength, ← hfiltered, hsame]
    rfl
  · rw [if_neg hlength, ← hfiltered]
    exact definitions_writeAll _ ruleId

theorem get_id {file : RulesFile} {ruleId : String} {rule : Rule}
    (h : get file ruleId = some rule) : rule.id = ruleId := KeyedList.get_key h

theorem advanceRequest_definitions (nowIso : String) (file : RulesFile) (request : Request)
    (pc : RequestPc) :
    definitions (advanceRequest nowIso file request pc).1 =
      recorded (definitions file) (writes file request pc) := by
  cases pc with
  | writing rule => exact definitions_upsert nowIso rule file
  | done answer => rfl
  | start =>
    cases request with
    | update ruleId payload => rfl
    | resetState ruleId => rfl
    | setEnabled ruleId enabled =>
      simp only [advanceRequest, writes, setEnabled]
      cases hget : get file ruleId with
      | none => rfl
      | some rule =>
        have hid : rule.id = ruleId := get_id hget
        subst hid
        exact definitions_upsert nowIso { rule with enabled } file
    | delete ruleId =>
      simp only [advanceRequest, writes, definitions_delete]
      cases hget : get file ruleId with
      | none =>
        have habsent : definitions file ruleId = none := by rw [definitions, hget]; rfl
        exact habsent ▸ Function.update_eq_self ruleId (definitions file)
      | some rule => rfl

section Alone

variable (rt : Runtime)

def alone (pass : Pass) (file : RulesFile) (pc : PassPc) (choices : List Choice) :
    RulesFile × PassPc :=
  choices.foldl (fun c x => advancePass rt pass x c.1 c.2) (file, pc)

theorem evaluateRule_keeps (engine : Engine) (feed : Feed) (ctxCorrelationId : Option String)
    (rule : Rule) (w : World) :
    ∃ answer w', evaluateRule rt engine feed ctxCorrelationId rule w = (.ok answer, w') ∧
      answer.2.id = rule.id ∧ definitionOf answer.2 = definitionOf rule := by
  obtain ⟨answer, w', hrun, hrule, -⟩ := evaluateRule_cases rt engine feed rule ctxCorrelationId w
  refine ⟨answer, w', hrun, ?_, ?_⟩
  · rw [hrule]
    rfl
  · rw [hrule]
    rfl

theorem loop_alone (pass : Pass) (feeds : Rule → Feed) (rules : List Rule) (s : JobState)
    (results : List RuleRunResult) :
    ∃ choices found s', evaluateAll rt pass.engine feeds pass.correlationId rules s =
        (.ok found, s') ∧
      alone rt pass s.rules (.looping rules results) choices =
        (s'.rules, .looping [] (results ++ found)) := by
  induction rules generalizing s results with
  | nil => exact ⟨[], [], s, rfl, by rw [List.append_nil]; rfl⟩
  | cons rule rest ih =>
    by_cases henabled : rule.enabled = true
    · obtain ⟨answer, w', hrun, -, -⟩ :=
        evaluateRule_keeps rt pass.engine (feeds rule) (some pass.correlationId) rule s.world
      have hzoom : onWorld (evaluateRule rt pass.engine (feeds rule) (some pass.correlationId) rule)
          s = (.ok answer, { s with world := w' }) := by
        simp only [onWorld, Prog.zoom, hrun]
      obtain ⟨choices, found, s', hrest, halone⟩ :=
        ih ⟨w', upsert (isoformat w'.now) answer.2 s.rules, s.facts, s.sent⟩ (results ++ [answer.1])
      have hwrite : writeBack answer.2 { s with world := w' } =
          (.ok ⟨⟩, ⟨w', upsert (isoformat w'.now) answer.2 s.rules, s.facts, s.sent⟩) := rfl
      refine ⟨⟨s.world, feeds rule⟩ :: ⟨w', feeds rule⟩ :: choices, answer.1 :: found, s', ?_, ?_⟩
      · rw [evaluateAll, if_pos henabled]
        exact (bind_ok hzoom).trans ((bind_ok hwrite).trans (bind_ok hrest))
      · rw [List.append_assoc] at halone
        have hfirst : advancePass rt pass ⟨s.world, feeds rule⟩ s.rules
            (.looping (rule :: rest) results) = (s.rules, .evaluated rule answer rest results) := by
          simp only [advancePass, henabled, if_true, hrun]
        simp only [alone, List.foldl_cons, hfirst]
        exact halone
    · obtain ⟨choices, found, s', hrest, halone⟩ := ih s results
      refine ⟨⟨s.world, feeds rule⟩ :: choices, found, s', ?_, ?_⟩
      · rw [evaluateAll, if_neg henabled]
        exact hrest
      · have hfirst : advancePass rt pass ⟨s.world, feeds rule⟩ s.rules
            (.looping (rule :: rest) results) = (s.rules, .looping rest results) := by
          simp [advancePass, henabled]
        simp only [alone, List.foldl_cons, hfirst]
        exact halone

/-- So does the pass, from its snapshot on. -/
theorem pass_alone (pass : Pass) (feeds : Rule → Feed) (s : JobState) :
    ∃ choices found s', evaluateAll rt pass.engine feeds pass.correlationId (listAll s.rules) s =
        (.ok found, s') ∧
      alone rt pass s.rules .start choices = (s'.rules, .looping [] found) := by
  obtain ⟨choices, found, s', hrun, halone⟩ := loop_alone rt pass feeds (listAll s.rules) s []
  exact ⟨⟨s.world, ⟨none, none⟩⟩ :: choices, found, s', hrun, halone⟩

end Alone

/-- The store still holds the definition that the pass read of the rule it writes back. -/
def StillRead (s : Shared) : Client → Prop
  | .pass _ (.evaluated read _ _ _) => definitions s.rules read.id = some (definitionOf read)
  | _ => True

/-- A pass carries the definitions that it read. -/
def Carried : Client → Prop
  | .pass _ (.evaluated read answer _ _) =>
    answer.2.id = read.id ∧ definitionOf answer.2 = definitionOf read
  | _ => True

def edits : Interleaving.Assertion Shared Client where
  shared := AsWritten
  local_ _ l := Carried l
  pair _ _ _ := True

section Interleaved

variable {rt : Runtime} {x : Choice} {s : Shared} {l : Client}

theorem advance_carried (rt : Runtime) (x : Choice) (s : Shared) (l : Client) :
    Carried (advance rt x s l).2 := by
  cases l with
  | request request pc => trivial
  | pass pass pc =>
    cases pc with
    | start => trivial
    | failed e => trivial
    | evaluated read answer rest results => trivial
    | looping rest results =>
      cases rest with
      | nil => trivial
      | cons rule rest =>
        obtain ⟨answer, w', hrun, hkept⟩ := evaluateRule_keeps rt pass.engine x.feed
          (some pass.correlationId) rule x.world
        by_cases henabled : rule.enabled = true
        · simp only [advance, advancePass, henabled, if_true, hrun]
          exact hkept
        · simp only [advance, advancePass, henabled]
          trivial

theorem request_writes {request : Request} {pc : RequestPc} (h : AsWritten s) :
    AsWritten (advance rt x s (.request request pc)).1 := by
  have hstep := advanceRequest_definitions x.nowIso s.rules request pc
  rw [AsWritten] at h
  rw [h] at hstep
  exact hstep

/-- A write-back leaves the store as written iff it holds the definition that the pass read. -/
theorem writeBack_iff {pass : Pass} {read : Rule} {answer : RuleRunResult × Rule}
    {rest : List Rule} {results : List RuleRunResult} (h : AsWritten s)
    (hcarried : Carried (.pass pass (.evaluated read answer rest results))) :
    AsWritten (advance rt x s (.pass pass (.evaluated read answer rest results))).1 ↔
      StillRead s (.pass pass (.evaluated read answer rest results)) := by
  have ⟨hid, hdefinition⟩ := hcarried
  have hstored : definitions (upsert x.nowIso answer.2 s.rules) =
      Function.update (definitions s.rules) read.id (some (definitionOf read)) := by
    rw [definitions_upsert, hid, hdefinition]
  have hafter : AsWritten (advance rt x s (.pass pass (.evaluated read answer rest results))).1 ↔
      Function.update (definitions s.rules) read.id (some (definitionOf read)) =
        definitions s.rules := by
    rw [← hstored, AsWritten, h]
    rfl
  rw [hafter, Function.update_eq_self_iff]
  exact eq_comm

theorem advance_writes (hread : StillRead s l) (h : AsWritten s) (hcarried : Carried l) :
    AsWritten (advance rt x s l).1 := by
  cases l with
  | request request pc => exact request_writes h
  | pass pass pc =>
    cases pc with
    | evaluated read answer rest results => exact (writeBack_iff h hcarried).mpr hread
    | start => exact h
    | failed e => exact h
    | looping rest results =>
      have hfile : (advancePass rt pass x s.rules (.looping rest results)).1 = s.rules := by
        cases rest with
        | nil => rfl
        | cons rule rest =>
          simp only [advancePass]
          split
          · split <;> rfl
          · rfl
      rw [AsWritten, advance, hfile]
      exact h

theorem edits_interferenceFree (rt : Runtime) :
    Interleaving.InterferenceFree (advance rt) (fun _ s l => StillRead s l) edits where
  moves x s l hread hs hl := ⟨advance_writes hread hs hl, advance_carried rt x s l⟩
  keeps _ _ _ _ _ _ _ hm _ _ := ⟨hm, trivial, trivial⟩
  spares _ _ _ _ _ _ _ _ _ _ _ _ _ _ _ := trivial

end Interleaved

def Waiting : Client → Prop
  | .request _ .start | .pass _ .start => True
  | _ => False

def Finished : Client → Prop
  | .request _ (.done _) | .pass _ (.looping [] _) => True
  | _ => False

structure Fresh {ι : Type*} (c : Interleaving.Config ι Shared Client) : Prop where
  written : AsWritten c.shared
  waiting : ∀ i, Waiting (c.proc i)

theorem Waiting.carried {l : Client} (h : Waiting l) : Carried l := by
  cases l with
  | request request pc => trivial
  | pass pass pc =>
    cases pc with
    | start => trivial
    | looping rest results => trivial
    | evaluated read answer rest results => exact h.elim
    | failed e => trivial

/-- While every write-back finds the definition that its pass read, the store holds what
the users wrote. -/
theorem passes_keep_edits {ι : Type*} [DecidableEq ι] (rt : Runtime)
    {c : Interleaving.Config ι Shared Client} (hc : Fresh c) {schedule : List (ι × Choice)}
    (hread : ∀ t ∈ Interleaving.steps (advance rt) c schedule,
      StillRead t.before.shared (t.before.proc t.op.1)) :
    (∀ t ∈ Interleaving.steps (advance rt) c schedule, AsWritten t.after.shared) ∧
      AsWritten (Interleaving.run (advance rt) c schedule).shared := by
  have hholds : edits.Holds c :=
    ⟨hc.written, fun i => (hc.waiting i).carried, fun _ _ _ => trivial⟩
  have ⟨hall, hfinal⟩ := (edits_interferenceFree rt).along hread hholds
  exact ⟨fun t ht => (hall t ht).2.1, hfinal.1⟩

def nightly : Rule where
  id := "r"
  name := "nightly"
  enabled := true
  createdAtIso := ""
  updatedAtIso := ""
  trigger := ⟨.schedule, 5, none, 5, 24⟩
  condition := ⟨none, none⟩
  actions := []
  maxActionsPerRun := 3
  cooldownMinutes := 0
  state := .initial
  lastRunIso := none
  lastMatchIso := none

def oneRule (request : Request) : Interleaving.Config Bool Shared Client where
  shared := ⟨[.rule nightly], definitions [.rule nightly]⟩
  proc passing := if passing then .pass ⟨exampleEngine, "c"⟩ .start else .request request .start

theorem oneRule_fresh (request : Request) : Fresh (oneRule request) where
  written := rfl
  waiting passing := by cases passing <;> trivial

def quietChoice : Choice := ⟨freshWorld exampleSurroundings, ⟨none, none⟩⟩

def runOf (request : Request) (schedule : List Bool) : Interleaving.Config Bool Shared Client :=
  Interleaving.run (advance (exampleRuntime (fun _ => .returned "") fun _ => none))
    (oneRule request) (schedule.map fun passing => (passing, quietChoice))

/-- A reset of the state in the middle of the pass writes the definition that both read. -/
theorem reset_kept :
    AsWritten (runOf (.resetState "r") [false, true, true, false, true]).shared := by
  refine (passes_keep_edits _ (oneRule_fresh (.resetState "r")) ?_).2
  intro t ht
  simp only [List.map_cons, List.map_nil, Interleaving.steps, SerialRun.transitions,
    List.mem_cons, List.not_mem_nil, or_false] at ht
  rcases ht with rfl | rfl | rfl | rfl | rfl
  · trivial
  · trivial
  · trivial
  · trivial
  · rfl

/-- A rule deleted, or disabled, while the pass evaluates it is back when all are done. -/
theorem edit_undone :
    (∀ request ∈ [Request.delete "r", .setEnabled "r" false], Fresh (oneRule request)) ∧
      (∀ passing, Finished ((runOf (.delete "r") [true, true, false, true]).proc passing)) ∧
      (∀ passing, Finished ((runOf (.setEnabled "r" false) [true, true, false, true]).proc
        passing)) ∧
      ¬ AsWritten (runOf (.delete "r") [true, true, false, true]).shared ∧
      ¬ AsWritten (runOf (.setEnabled "r" false) [true, true, false, true]).shared := by
  refine ⟨fun request _ => oneRule_fresh request, ?_, ?_, ?_, ?_⟩
  · intro passing
    cases passing <;> trivial
  · intro passing
    cases passing <;> trivial
  · intro h
    have hstored : definitions (runOf (.delete "r") [true, true, false, true]).shared.rules "r" =
        some (definitionOf nightly) := rfl
    have hdeleted : (runOf (.delete "r") [true, true, false, true]).shared.written "r" = none := rfl
    have hsame := congrFun h "r"
    rw [hstored, hdeleted] at hsame
    cases hsame
  · intro h
    have hstored : definitions
        (runOf (.setEnabled "r" false) [true, true, false, true]).shared.rules
        "r" = some (definitionOf nightly) := rfl
    have hdisabled : (runOf (.setEnabled "r" false) [true, true, false, true]).shared.written "r" =
        some (definitionOf { nightly with enabled := false }) := rfl
    have hsame := congrFun h "r"
    rw [hstored, hdisabled] at hsame
    have henabled := congrArg RuleCreate.enabled (Option.some.inj hsame)
    exact absurd henabled (by decide)

end RuleEdits
