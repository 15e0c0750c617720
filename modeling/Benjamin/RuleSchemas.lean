import Benjamin.PlanSchemas

/-!
# Rules

The data of a rule: what triggers it, what it looks for, what it does and what it
remembers from one evaluation to the next, and the results of an evaluation and of a
preview.
-/
namespace RuleSchemas

open PyBase

inductive TriggerType where
  | schedule | gmail | calendar
  deriving DecidableEq, Repr

structure RuleTrigger where
  type : TriggerType
  everyMinutes : Int
  query : Option String
  maxResults : Int
  hoursAhead : Int
  deriving DecidableEq, Repr

structure RuleCondition where
  contains : Option String
  notContains : Option String
  deriving DecidableEq, Repr

inductive RuleAction where
  | notify (title bodyTemplate : String)
  | proposeStep (skillName : String) (args : Dict) (rationale : String)

structure RuleState where
  lastRunIso : Option String
  lastMatchIso : Option String
  cooldownUntilIso : Option String
  seenIds : List String
  seenIdsMax : Int
  lastCursorIso : Option String
  deriving DecidableEq, Repr

/-- `RuleState()`. -/
def RuleState.initial : RuleState := ⟨none, none, none, [], 200, none⟩

structure Rule where
  id : String
  name : String
  enabled : Bool
  createdAtIso : String
  updatedAtIso : String
  trigger : RuleTrigger
  condition : RuleCondition
  actions : List RuleAction
  maxActionsPerRun : Int
  cooldownMinutes : Int
  state : RuleState
  lastRunIso : Option String
  lastMatchIso : Option String

/-- What a trigger item keeps of the message or event; the raw reply is only shown. -/
structure Item where
  itemId : String
  tsIso : Option String
  text : String
  deriving DecidableEq, Repr

structure RuleRunResult where
  ruleId : String
  ok : Bool
  matched : Bool
  matchCount : Nat
  notes : List String
  error : Option String
  deriving DecidableEq, Repr

inductive RulePlannedAction where
  | notify (title body : String)
  | proposeStep (skillName : String) (args : Dict) (rationale : String)
      (wouldCreateApproval : Bool) (requiredScopes : List String) (blocked : Bool)
      (blockedReason : Option String)

structure RuleTestPreview where
  ruleId : Option String
  ruleName : Option String
  matched : Bool
  matchCount : Nat
  candidateCount : Nat
  matchingItems : List Item
  plannedActions : List RulePlannedAction
  notes : List String

end RuleSchemas
