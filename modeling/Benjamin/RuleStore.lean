import Benjamin.KeyedList
import Benjamin.RuleSchemas

/-!
# The rule store

`rules.jsonl` as a list of lines, each a valid rule or text that `json.loads` or the
rule model rejects. A rule carries an explicit identifier. What is loaded or written
has passed through `migrateRule`.
-/
namespace RuleStore

open PyBase PlanSchemas RuleSchemas

inductive Line where
  | rule (r : Rule)
  | malformed (text : String)

def Line.rule? : Line → Option Rule
  | .rule r => some r
  | .malformed _ => none

abbrev RulesFile := List Line

/-- `new if new and not old else old`, for a deprecated field and the state's. -/
def carriedOver (deprecated current : Option String) : Option String :=
  if (truthy deprecated).isSome ∧ truthy current = none then deprecated else current

/-- `Rule.migrate_legacy_state`: the validator that every loaded rule passes. -/
def migrateLegacyState (rule : Rule) : Rule :=
  { rule with state := { rule.state with
      lastRunIso := carriedOver rule.lastRunIso rule.state.lastRunIso
      lastMatchIso := carriedOver rule.lastMatchIso rule.state.lastMatchIso } }

/-- The window of seen identifiers, with a usable size and no longer than it. -/
def boundSeen (state : RuleState) : RuleState :=
  let size := if state.seenIdsMax ≤ 0 then RuleState.initial.seenIdsMax else state.seenIdsMax
  { state with
    seenIdsMax := size
    seenIds :=
      if size < state.seenIds.length then state.seenIds.drop (state.seenIds.length - size.toNat)
      else state.seenIds }

/-- `_migrate_rule`. -/
def migrateRule (rule : Rule) : Rule :=
  let state := boundSeen (migrateLegacyState rule).state
  { rule with state, lastRunIso := state.lastRunIso, lastMatchIso := state.lastMatchIso }

def loadAll (file : RulesFile) : List Rule :=
  (file.filterMap Line.rule?).map fun rule => migrateRule (migrateLegacyState rule)

/-- `_write_all`: malformed lines are not written back. -/
def writeAll (rules : List Rule) : RulesFile := rules.map fun rule => .rule (migrateRule rule)

def listAll (file : RulesFile) : List Rule := (loadAll file).reverse

def get (file : RulesFile) (ruleId : String) : Option Rule :=
  KeyedList.get Rule.id (loadAll file) ruleId

/-- The rule as `upsert` stores it. -/
def stamped (nowIso : String) (rule : Rule) : Rule :=
  { migrateRule rule with updatedAtIso := nowIso }

def upsert (nowIso : String) (rule : Rule) (file : RulesFile) : RulesFile :=
  writeAll (KeyedList.upsert Rule.id (stamped nowIso rule) (loadAll file))

/-- `delete`: whether a rule was deleted, and the file. -/
def delete (ruleId : String) (file : RulesFile) : Bool × RulesFile :=
  let rules := loadAll file
  let filtered := KeyedList.delete Rule.id ruleId rules
  if filtered.length = rules.length then (false, file) else (true, writeAll filtered)

def setEnabled (nowIso ruleId : String) (enabled : Bool) (file : RulesFile) :
    Option Rule × RulesFile :=
  match get file ruleId with
  | none => (none, file)
  | some rule =>
    (some (stamped nowIso { rule with enabled }), upsert nowIso { rule with enabled } file)

end RuleStore
