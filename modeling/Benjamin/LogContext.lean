import Mathlib.Logic.Function.Basic
import Benjamin.DynamicScope
import Benjamin.Effect
import Benjamin.PyBase

/-!
# The context of the log

Five context variables that `log_context` sets for the time of a block. It sets all five, so
what it is not given is `None` inside the block and not what the blocks around it have
given; the tokens bring back what was there before, however the block is left.
-/
namespace LogContext

open PyBase Effect DynamicScope

inductive ContextVar where
  | correlationId | taskId | approvalId | ruleId | jobId
  deriving DecidableEq, Repr

/-- `_CONTEXT_VARS`. -/
def contextVars : List (String × ContextVar) :=
  [("correlation_id", .correlationId), ("task_id", .taskId), ("approval_id", .approvalId),
    ("rule_id", .ruleId), ("job_id", .jobId)]

abbrev Context := Bindings ContextVar String

structure Logging where
  context : Context
  lines : List (List (String × String))

structure Token where
  oldValue : Option String

abbrev Logged := Prog PyError Logging

namespace ContextVar

def set (var : ContextVar) (value : Option String) : Logged Token := fun s =>
  (.ok ⟨s.context var⟩, { s with context := Function.update s.context var value })

def reset (var : ContextVar) (token : Token) : Logged Unit :=
  Prog.update fun s => { s with context := Function.update s.context var token.oldValue }

end ContextVar

/-- `set_context`; the names are those of keyword arguments. -/
def setContext : List (String × Option String) → Logged (List (String × Token))
  | [] => pure []
  | (key, value) :: rest =>
    match contextVars.lookup key with
    | none => setContext rest
    | some var => do
      let token ← var.set value
      let tokens ← setContext rest
      pure ((key, token) :: tokens)

/-- `reset_context`. -/
def resetContext : List (String × Token) → Logged Unit
  | [] => pure ()
  | (key, token) :: rest =>
    match contextVars.lookup key with
    | none => resetContext rest
    | some var => do
      var.reset token
      resetContext rest

/-- `log_context`; an id that is not given is `None`. -/
def logContext {α : Type} (given : Context) (body : Logged α) : Logged α := do
  let tokens ← setContext
    [("correlation_id", given .correlationId), ("task_id", given .taskId),
      ("approval_id", given .approvalId), ("rule_id", given .ruleId), ("job_id", given .jobId)]
  Prog.ensure body (resetContext tokens)

/-- `get_log_context`. -/
def getLogContext (context : Context) : List (String × String) :=
  contextVars.filterMap fun (key, var) => (context var).map fun value => (key, value)

def logLine : Logged Unit := Prog.update fun s =>
  { s with lines := s.lines ++ [getLogContext s.context] }

/-- The code inside of nested `log_context` blocks. -/
def run : Code ContextVar String PyError → Logged Unit
  | .done => pure ()
  | .look => logLine
  | .raise e => Prog.raise e
  | .seq first second => do
    run first
    run second
  | .block given body => logContext given (run body)
  | .recover body handler => Prog.attempt (run body) fun e => run (handler e)

def tokensOf (context : Context) : List (String × Token) :=
  contextVars.map fun (key, var) => (key, ⟨context var⟩)

theorem setContext_given (given : Context) (s : Logging) :
    setContext [("correlation_id", given .correlationId), ("task_id", given .taskId),
      ("approval_id", given .approvalId), ("rule_id", given .ruleId), ("job_id", given .jobId)] s =
      (.ok (tokensOf s.context), { s with context := given }) := by
  have hgiven : Function.update (Function.update (Function.update (Function.update
      (Function.update s.context .correlationId (given .correlationId)) .taskId (given .taskId))
        .approvalId (given .approvalId)) .ruleId (given .ruleId)) .jobId (given .jobId) =
          given := by
    funext var
    cases var <;> rfl
  rw [← hgiven]
  rfl

theorem resetContext_tokensOf (context : Context) (s : Logging) :
    resetContext (tokensOf context) s = (.ok (), { s with context }) := by
  have hcontext : Function.update (Function.update (Function.update (Function.update
      (Function.update s.context .correlationId (context .correlationId)) .taskId (context .taskId))
        .approvalId (context .approvalId)) .ruleId (context .ruleId)) .jobId (context .jobId) =
      context := by
    funext var
    cases var <;> rfl
  rw [← hcontext]
  rfl

/-- A block runs its body in the context that it is given, and leaves the one that it has
found, whatever the body has left and whether it has returned or raised. -/
theorem logContext_apply {α : Type} (given : Context) (body : Logged α) (s : Logging) :
    logContext given body s =
      ((body { s with context := given }).1,
        { (body { s with context := given }).2 with context := s.context }) := by
  rw [logContext, bind_ok (setContext_given given s), ensure_ok (resetContext_tokensOf _ _)]

theorem run_apply (code : Code ContextVar String PyError) (s : Logging) :
    run code s =
      (code.outcome,
        { s with lines := s.lines ++ (replaced s.context code).map getLogContext }) := by
  induction code generalizing s with
  | done => simp [run, Code.outcome, replaced, Code.reads]
  | look => simp [run, logLine, Code.outcome, replaced, Code.reads]
  | raise e => simp [run, Code.outcome, replaced, Code.reads]
  | seq first second ihfirst ihsecond =>
    rw [run]
    cases hend : first.outcome with
    | ok u =>
      have hfirst := ihfirst s
      rw [hend] at hfirst
      rw [bind_ok hfirst, ihsecond]
      simp [Code.outcome, replaced, Code.reads, hend]
    | error e =>
      have hfirst := ihfirst s
      rw [hend] at hfirst
      rw [bind_error hfirst]
      simp [Code.outcome, replaced, Code.reads, hend]
  | block given body ih =>
    rw [run, logContext_apply, ih]
    rfl
  | recover body handler ihbody ihhandler =>
    rw [run, Prog.attempt, ihbody]
    cases hend : body.outcome with
    | ok u => simp [Code.outcome, replaced, Code.reads, hend]
    | error e =>
      simp only [ihhandler]
      simp [Code.outcome, replaced, Code.reads, hend]

theorem mem_getLogContext {key : String} {var : ContextVar} (hkey : (key, var) ∈ contextVars)
    (context : Context) (value : String) :
    (key, value) ∈ getLogContext context ↔ context var = some value := by
  have hunique : ∀ first ∈ contextVars, ∀ second ∈ contextVars,
      first.1 = second.1 → first = second := by decide
  rw [getLogContext, List.mem_filterMap]
  constructor
  · rintro ⟨⟨key', var'⟩, hmem, hvalue⟩
    obtain ⟨value', hvalue', hsame⟩ := Option.map_eq_some_iff.mp hvalue
    cases hsame
    cases hunique _ hmem _ hkey rfl
    exact hvalue'
  · intro hvalue
    exact ⟨(key, var), hkey, by simp [hvalue]⟩

theorem getLogContext_injective : Function.Injective getLogContext := by
  intro context context' h
  have hnamed : ∀ var, ∃ key, (key, var) ∈ contextVars := by
    intro var
    cases var <;> simp [contextVars]
  funext var
  obtain ⟨key, hkey⟩ := hnamed var
  refine Option.ext fun value => ?_
  rw [← mem_getLogContext hkey, ← mem_getLogContext hkey, h]

/-- Every line shows what the innermost block has given that gives the id, and the run leaves
the context that it has found. -/
structure Composes (code : Code ContextVar String PyError) (s : Logging) : Prop where
  inside : (run code s).2.lines = s.lines ++ (inherited [s.context] code).map getLogContext
  restored : (run code s).2.context = s.context

theorem composes_iff (code : Code ContextVar String PyError) (s : Logging) :
    Composes code s ↔ Regiven [s.context] code := by
  have hown : innermost [s.context] = s.context := by
    funext var
    simp [innermost]
  have hregiven := replaced_eq_iff code s.context [s.context]
  rw [hown, and_iff_right fun _ => rfl] at hregiven
  rw [← hregiven]
  constructor
  · intro h
    have hinside := h.inside
    rw [run_apply] at hinside
    exact (List.map_injective_iff.mpr getLogContext_injective) (List.append_cancel_left hinside)
  · intro h
    constructor
    · rw [run_apply, h]
    · rw [run_apply]

/-- Every block leaves the context that it has found; inside of blocks an id has the value of
the innermost block that gives it iff the blocks in which a line is logged give all the ids
again that have a value around them. -/
theorem nested_contexts_compose_iff {α : Type} (given : Context) (body : Logged α)
    (code : Code ContextVar String PyError) (s : Logging) :
    (logContext given body s).2.context = s.context ∧
      (Composes code s ↔ Regiven [s.context] code) := by
  constructor
  · rw [logContext_apply]
  · exact composes_iff code s

/-- The ids of `run_rules_evaluation`. -/
def jobIds : Context
  | .correlationId => some "run"
  | .jobId => some "rules-evaluator"
  | _ => none

/-- The ids of `evaluate_rule`. -/
def ruleIds : Context
  | .correlationId => some "run"
  | .ruleId => some "r1"
  | _ => none

def evaluation : Code ContextVar String PyError := .block jobIds (.seq .look (.block ruleIds .look))

/-- The lines of the rule do not name the job. -/
theorem job_lost_in_rule :
    (run evaluation ⟨fun _ => none, []⟩).2.lines =
      [[("correlation_id", "run"), ("job_id", "rules-evaluator")],
        [("correlation_id", "run"), ("rule_id", "r1")]] ∧
      ¬ Composes evaluation ⟨fun _ => none, []⟩ := by
  refine ⟨by decide, fun h => ?_⟩
  have hinside := h.inside
  revert hinside
  decide

end LogContext
