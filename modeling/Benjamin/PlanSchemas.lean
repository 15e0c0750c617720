import Benjamin.PyBase

/-!
# Plans, results and requesters

The values that pass between the planner, the executor and the approval service.
-/
namespace PlanSchemas

open PyBase

structure PlanStep where
  id : String
  description : String
  skillName : Option String
  args : String
  requiresApproval : Bool
  deriving DecidableEq, Repr

structure Plan where
  goal : String
  steps : List PlanStep
  deriving DecidableEq, Repr

structure StepResult where
  stepId : String
  ok : Bool
  output : Option String
  error : Option String
  deriving DecidableEq, Repr

/-- The retrieved memory is left out: nothing that executes a plan reads it. -/
structure ContextPack where
  goal : String
  cwd : Option String
  deriving DecidableEq, Repr

/-- A string or `None` that a Python `or` falls through when it is empty. -/
def truthy (s : Option String) : Option String := s.filter fun t => t ≠ ""

@[simp] theorem truthy_none : truthy none = none := rfl

/-- The requester dict; every caller fills it with strings and `None`. -/
abbrev Requester := List (String × Option String)

/-- `requester.get(key)`. -/
def Requester.get (r : Requester) (key : String) : Option String :=
  (r.find? fun kv => kv.1 = key).bind Prod.snd

/-- `requester.setdefault(key, value)`. -/
def Requester.setdefault (r : Requester) (key value : String) : Requester :=
  if r.any fun kv => kv.1 = key then r else r ++ [(key, some value)]

/-- The dict with the key set: `{**requester, key: value}`. -/
def Requester.set (r : Requester) (key value : String) : Requester :=
  match r with
  | [] => [(key, some value)]
  | (k, v) :: rest =>
    if k = key then (k, some value) :: rest else (k, v) :: Requester.set rest key value

end PlanSchemas
