import Benjamin.RuleStoreRuns
import Mathlib.Data.List.TakeWhile

/-!
# Writes of the rule store that fail

`_write_all` truncates the file and then writes the rules one by one. The arguments of an
action are any JSON, and some strings of JSON have no UTF-8: the write of such a rule
raises, and the file is closed with the rules written before it.
-/
namespace RuleWriteFailure

open PyBase RuleSchemas RuleStore RuleEdits RuleStoreRuns

section Writing

-- What writing a rule with these actions raises, if it does: an argument that UTF-8 cannot
-- encode, which is no Lean string. All other strings of a rule are validated.
variable (encodeError : List RuleAction → Option PyError)

/-- The loop of `_write_all` over the rules, from the empty file on. -/
def writeRules : List Rule → Except PyError Unit × RulesFile
  | [] => (.ok (), [])
  | rule :: rest =>
    match encodeError rule.actions with
    | some e => (.error e, [])
    | none =>
      let written := writeRules rest
      (written.1, .rule (migrateRule rule) :: written.2)

/-- `upsert`: what it returns or raises, and the file. -/
def upsertRule (nowIso : String) (rule : Rule) (file : RulesFile) :
    Except PyError Rule × RulesFile :=
  let updated := stamped nowIso rule
  let written := writeRules encodeError (KeyedList.upsert Rule.id updated (loadAll file))
  (written.1.map fun _ => updated, written.2)

/-- `update_rule`. -/
def updateRule (nowIso ruleId : String) (payload : RuleCreate) (file : RulesFile) :
    Except PyError Rule × RulesFile :=
  match get file ruleId with
  | none => (.error ruleNotFound, file)
  | some existing => upsertRule encodeError nowIso (updated payload existing) file

def Encodable (rule : Rule) : Prop := encodeError rule.actions = none

instance (rule : Rule) : Decidable (Encodable encodeError rule) :=
  decidable_of_iff ((encodeError rule.actions).isNone) Option.isNone_iff_eq_none

def writable (rules : List Rule) : List Rule :=
  rules.takeWhile fun rule => decide (Encodable encodeError rule)

variable {encodeError} {rules : List Rule}

theorem writeRules_file :
    (writeRules encodeError rules).2 = writeAll (writable encodeError rules) := by
  induction rules with
  | nil => rfl
  | cons rule rest ih =>
    rw [writeRules, writable]
    cases hrule : encodeError rule.actions with
    | some e => simp [Encodable, hrule, writeAll]
    | none =>
      rw [List.takeWhile_cons_of_pos (by simp [Encodable, hrule])]
      exact congrArg (_ :: ·) ih

theorem writeRules_ok_iff : (writeRules encodeError rules).1 = .ok () ↔
    ∀ rule ∈ rules, Encodable encodeError rule := by
  induction rules with
  | nil => simp [writeRules]
  | cons rule rest ih =>
    rw [List.forall_mem_cons, ← ih, writeRules]
    cases hrule : encodeError rule.actions with
    | some e => simp [Encodable, hrule]
    | none => simp [Encodable, hrule]

theorem writable_of_encodable (h : ∀ rule ∈ rules, Encodable encodeError rule) :
    writable encodeError rules = rules := by
  refine List.takeWhile_eq_self_iff.mpr ?_
  intro rule hrule
  exact decide_eq_true (h rule hrule)

theorem encodable_of_writable {rule : Rule} (h : rule ∈ writable encodeError rules) :
    Encodable encodeError rule := by
  simpa using List.mem_takeWhile_imp h

theorem encodable_of_length (h : (writable encodeError rules).length = rules.length) :
    ∀ rule ∈ rules, Encodable encodeError rule := by
  have hwhole : writable encodeError rules = rules := (List.takeWhile_prefix _).eq_of_length h
  intro rule hrule
  rw [← hwhole] at hrule
  exact encodable_of_writable hrule

theorem writable_append {rule : Rule}
    (h : ¬ ∀ other ∈ rules ++ [rule], Encodable encodeError other) :
    writable encodeError (rules ++ [rule]) = rules ↔
      ∀ other ∈ rules, Encodable encodeError other := by
  constructor
  · intro hsame other hother
    rw [← hsame] at hother
    exact encodable_of_writable hother
  · intro hstored
    have hnew : ¬ Encodable encodeError rule := by
      intro hnew
      refine h ?_
      rw [List.forall_mem_append, List.forall_mem_singleton]
      exact ⟨hstored, hnew⟩
    rw [writable, List.takeWhile_append_of_pos fun other hother =>
      decide_eq_true (hstored other hother), List.takeWhile_cons_of_neg (by simpa using hnew),
      List.append_nil]

/-- Rules that are normal are loaded as they were written. -/
theorem loadAll_written (h : ∀ rule ∈ rules, Normal rule) :
    loadAll (writeRules encodeError rules).2 = writable encodeError rules := by
  rw [writeRules_file]
  refine loadAll_writeAll_normal ?_
  intro rule hrule
  exact h rule ((List.takeWhile_subset _) hrule)

end Writing

def updatedRules (nowIso : String) (rule : Rule) (file : RulesFile) : List Rule :=
  KeyedList.upsert Rule.id (stamped nowIso rule) (loadAll file)

/-- A call that returns leaves the updated rules, one that raises the rules as they were. -/
def Intact (nowIso : String) (rule : Rule) (file : RulesFile)
    (call : Except PyError Rule × RulesFile) :
    Prop :=
  match call.1 with
  | .ok _ => loadAll call.2 = updatedRules nowIso rule file
  | .error _ => loadAll call.2 = loadAll file

section Upserts

variable {encodeError : List RuleAction → Option PyError} {nowIso : String} {rule : Rule}
  {file : RulesFile}

theorem updatedRules_normal : ∀ other ∈ updatedRules nowIso rule file, Normal other := by
  intro other hother
  rcases KeyedList.mem_upsert hother with rfl | hother
  · exact normal_stamped nowIso rule
  · exact loadAll_normal file other hother

theorem upsertRule_encodable
    (h : ∀ other ∈ updatedRules nowIso rule file, Encodable encodeError other) :
    upsertRule encodeError nowIso rule file =
    (.ok (stamped nowIso rule), upsert nowIso rule file) := by
  have hok := writeRules_ok_iff.mpr h
  have hfile : (writeRules encodeError (updatedRules nowIso rule file)).2 =
      upsert nowIso rule file := by
    rw [writeRules_file, writable_of_encodable h]
    rfl
  rw [upsertRule, ← updatedRules, hok, hfile]
  rfl

/-- A failed upsert leaves the rules up to the first that cannot be written. -/
theorem failed_intact_iff
    (h : ¬ ∀ other ∈ updatedRules nowIso rule file, Encodable encodeError other) :
    Intact nowIso rule file (upsertRule encodeError nowIso rule file) ↔
      writable encodeError (updatedRules nowIso rule file) = loadAll file := by
  have hraised : (writeRules encodeError (updatedRules nowIso rule file)).1 ≠ .ok () :=
    mt writeRules_ok_iff.mp h
  have hloaded : loadAll (writeRules encodeError (updatedRules nowIso rule file)).2 =
      writable encodeError (updatedRules nowIso rule file) :=
    loadAll_written updatedRules_normal
  rw [← hloaded, upsertRule, ← updatedRules, Intact]
  cases hwritten : (writeRules encodeError (updatedRules nowIso rule file)).1 with
  | ok value => exact absurd hwritten hraised
  | error e => rfl

/-- An upsert is intact iff every rule of the updated list can be written, or the rule is
new and every stored one can: then it is the last one, and the only one missing. -/
theorem upsert_intact_iff :
    Intact nowIso rule file (upsertRule encodeError nowIso rule file) ↔
      (∀ other ∈ updatedRules nowIso rule file, Encodable encodeError other) ∨
        (get file rule.id = none ∧ ∀ other ∈ loadAll file, Encodable encodeError other) := by
  by_cases hall : ∀ other ∈ updatedRules nowIso rule file, Encodable encodeError other
  · have hintact : Intact nowIso rule file (upsertRule encodeError nowIso rule file) := by
      rw [upsertRule_encodable hall]
      exact loadAll_upsert nowIso rule file
    exact ⟨fun _ => Or.inl hall, fun _ => hintact⟩
  · rw [failed_intact_iff hall]
    simp only [hall, false_or]
    cases hget : get file rule.id with
    | none =>
      have happended : updatedRules nowIso rule file = loadAll file ++ [stamped nowIso rule] :=
        KeyedList.upsert_of_absent (KeyedList.get_none_iff.mp hget)
      rw [happended] at hall ⊢
      rw [writable_append hall]
      exact (and_iff_right rfl).symm
    | some existing =>
      -- As many rules as before, of which not all have been written.
      have hlength : (updatedRules nowIso rule file).length = (loadAll file).length :=
        KeyedList.length_upsert_of_get hget
      have hshorter : writable encodeError (updatedRules nowIso rule file) ≠ loadAll file := by
        intro hsame
        exact hall (encodable_of_length (by rw [hsame, hlength]))
      constructor
      · intro hsame
        exact absurd hsame hshorter
      · rintro ⟨hnone, -⟩
        cases hnone

end Upserts

def surrogateError : PyError :=
  .valueError "'utf-8' codec can't encode character: surrogates not allowed"

/-- The replacement character stands for a lone surrogate. -/
def loneSurrogate (actions : List RuleAction) : Option PyError :=
  actions.findSome? fun action =>
    match action with
    | .proposeStep _ [(_, .str "\uFFFD")] _ => some surrogateError
    | _ => none

def weekly : Rule := { nightly with id := "s", name := "weekly" }

def twoRules : RulesFile := [.rule nightly, .rule weekly]

def unwritable : RuleCreate :=
  { definitionOf nightly with actions := [.proposeStep "memory" [("text", .str "\uFFFD")] ""] }

/-- The request is refused with an error, and both rules are gone. -/
theorem failed_edit_loses_rules :
    let call := updateRule loneSurrogate "t" "r" unwritable twoRules
    call = (.error surrogateError, []) ∧ loadAll twoRules = [nightly, weekly] ∧
      call = upsertRule loneSurrogate "t" (updated unwritable nightly) twoRules ∧
      ¬ Intact "t" (updated unwritable nightly) twoRules call := by
  intro call
  have hcall : call = (.error surrogateError, []) := rfl
  refine ⟨hcall, rfl, rfl, ?_⟩
  rw [hcall]
  intro h
  cases h

end RuleWriteFailure
