import Benjamin.RuleEdits

/-!
# Runs of the rule store

Serial runs of the operations on the rules, from any file, its rules from older versions
included. What is loaded is normal: the window of seen identifiers is within a usable
bound, and the deprecated fields repeat the state. Normal rules pass through
`migrateRule` unchanged.
-/
namespace RuleStoreRuns

open PyBase AssistantState RuleSchemas RuleMatching RuleStore RuleEngine RuleEdits

structure Normal (rule : Rule) : Prop where
  usable : 1 ≤ rule.state.seenIdsMax
  bounded : (rule.state.seenIds.length : Int) ≤ rule.state.seenIdsMax
  lastRun : rule.lastRunIso = rule.state.lastRunIso
  lastMatch : rule.lastMatchIso = rule.state.lastMatchIso

theorem carriedOver_self (value : Option String) : carriedOver value value = value := by
  rw [carriedOver]
  split <;> rfl

theorem boundSeen_usable (state : RuleState) : 1 ≤ (boundSeen state).seenIdsMax := by
  simp only [boundSeen, RuleState.initial]
  split <;> omega

theorem boundSeen_bounded (state : RuleState) :
    ((boundSeen state).seenIds.length : Int) ≤ (boundSeen state).seenIdsMax := by
  have husable := boundSeen_usable state
  simp only [boundSeen] at husable ⊢
  generalize (if state.seenIdsMax ≤ 0 then RuleState.initial.seenIdsMax else state.seenIdsMax) =
    size at husable ⊢
  split
  · rw [List.length_drop]
    omega
  · omega

theorem boundSeen_of_bounded {state : RuleState} (husable : 1 ≤ state.seenIdsMax)
    (hbounded : (state.seenIds.length : Int) ≤ state.seenIdsMax) : boundSeen state = state := by
  have hsize : ¬ state.seenIdsMax ≤ 0 := by omega
  have hfits : ¬ state.seenIdsMax < state.seenIds.length := by omega
  simp [boundSeen, hsize, hfits]

theorem normal_migrateRule (rule : Rule) : Normal (migrateRule rule) where
  usable := boundSeen_usable _
  bounded := boundSeen_bounded _
  lastRun := rfl
  lastMatch := rfl

section Fixed

variable {rule : Rule}

theorem Normal.migrateLegacyState (h : Normal rule) : migrateLegacyState rule = rule := by
  have hrun : carriedOver rule.lastRunIso rule.state.lastRunIso = rule.state.lastRunIso := by
    rw [h.lastRun, carriedOver_self]
  have hmatch : carriedOver rule.lastMatchIso rule.state.lastMatchIso =
      rule.state.lastMatchIso := by
    rw [h.lastMatch, carriedOver_self]
  simp only [RuleStore.migrateLegacyState, hrun, hmatch]

theorem Normal.migrateRule (h : Normal rule) : migrateRule rule = rule := by
  have hstate : boundSeen (RuleStore.migrateLegacyState rule).state = rule.state := by
    rw [h.migrateLegacyState, boundSeen_of_bounded h.usable h.bounded]
  simp only [RuleStore.migrateRule, hstate]
  rw [← h.lastRun, ← h.lastMatch]

end Fixed

theorem normal_stamped (nowIso : String) (rule : Rule) : Normal (stamped nowIso rule) :=
  let h := normal_migrateRule rule
  ⟨h.usable, h.bounded, h.lastRun, h.lastMatch⟩

theorem loadAll_normal (file : RulesFile) : ∀ rule ∈ loadAll file, Normal rule := by
  intro rule hrule
  obtain ⟨read, -, rfl⟩ := List.mem_map.mp hrule
  exact normal_migrateRule _

theorem loadAll_writeAll_normal {rules : List Rule} (h : ∀ rule ∈ rules, Normal rule) :
    loadAll (writeAll rules) = rules := by
  have hsame : ∀ rule ∈ rules, migrateRule (migrateLegacyState (migrateRule rule)) = rule := by
    intro rule hrule
    have hnormal := h rule hrule
    rw [hnormal.migrateRule, hnormal.migrateLegacyState, hnormal.migrateRule]
  rw [loadAll_writeAll]
  exact (List.map_congr_left hsame).trans (List.map_id rules)

theorem loadAll_upsert (nowIso : String) (rule : Rule) (file : RulesFile) :
    loadAll (upsert nowIso rule file) =
      KeyedList.upsert Rule.id (stamped nowIso rule) (loadAll file) := by
  refine loadAll_writeAll_normal ?_
  intro other hother
  rcases KeyedList.mem_upsert hother with rfl | hother
  · exact normal_stamped nowIso rule
  · exact loadAll_normal file other hother

theorem loadAll_delete (ruleId : String) (file : RulesFile) :
    loadAll (delete ruleId file).2 = KeyedList.delete Rule.id ruleId (loadAll file) := by
  unfold RuleStore.delete
  dsimp only
  split
  · rename_i hlength
    exact (List.filter_sublist.eq_of_length hlength).symm
  · refine loadAll_writeAll_normal ?_
    intro rule hrule
    exact loadAll_normal file rule (List.mem_of_mem_filter hrule)

/-- A rule that has been written is loaded as the store has normalised it. -/
theorem get_upsert (nowIso : String) (rule : Rule) (file : RulesFile) :
    get (upsert nowIso rule file) rule.id = some (stamped nowIso rule) := by
  rw [RuleStore.get, loadAll_upsert]
  exact KeyedList.get_upsert_self (stamped nowIso rule) (loadAll file)

inductive Op where
  | upsert (rule : Rule)
  | delete (ruleId : String)
  | setEnabled (ruleId : String) (enabled : Bool)
  | update (ruleId : String) (payload : RuleCreate)
  | resetState (ruleId : String)
  /-- A pass evaluates a rule of its snapshot and writes it back. -/
  | writeBack (pass : Pass) (choice : Choice) (snapshot : Rule)

def Op.target : Op → String
  | .upsert rule => rule.id
  | .delete ruleId | .setEnabled ruleId _ | .update ruleId _ | .resetState ruleId => ruleId
  | .writeBack _ _ snapshot => snapshot.id

def editStored (nowIso ruleId : String) (edit : Rule → Rule) (file : RulesFile) : RulesFile :=
  match get file ruleId with
  | none => file
  | some existing => upsert nowIso (edit existing) file

def apply (rt : Runtime) (file : RulesFile) (op : String × Op) : RulesFile :=
  match op.2 with
  | .upsert rule => upsert op.1 rule file
  | .delete ruleId => (delete ruleId file).2
  | .setEnabled ruleId enabled => (setEnabled op.1 ruleId enabled file).2
  | .update ruleId payload => editStored op.1 ruleId (updated payload) file
  | .resetState ruleId => editStored op.1 ruleId stateReset file
  | .writeBack pass choice snapshot =>
    match (evaluateRule rt pass.engine choice.feed (some pass.correlationId) snapshot
        choice.world).1 with
    | .ok answer => upsert op.1 answer.2 file
    | .error _ => file

/-- How an operation on a rule leaves the file. -/
inductive Change (before after : RulesFile) (ruleId : String) : Prop where
  | same (h : after = before)
  | written (nowIso : String) (rule : Rule) (hid : rule.id = ruleId)
      (h : after = upsert nowIso rule before)
  | deleted (h : after = (delete ruleId before).2)

theorem editStored_change (nowIso ruleId : String) (edit : Rule → Rule)
    (hedit : ∀ rule, (edit rule).id = rule.id) (file : RulesFile) :
    Change file (editStored nowIso ruleId edit file) ruleId := by
  rw [editStored]
  cases hget : get file ruleId with
  | none => exact .same rfl
  | some existing =>
    exact .written nowIso (edit existing) ((hedit existing).trans (get_id hget)) rfl

theorem apply_change (rt : Runtime) (file : RulesFile) (nowIso : String) (op : Op) :
    Change file (apply rt file (nowIso, op)) op.target := by
  cases op with
  | upsert rule => exact .written nowIso rule rfl rfl
  | delete ruleId => exact .deleted rfl
  | update ruleId payload =>
    exact editStored_change nowIso ruleId (updated payload) (fun _ => rfl) file
  | resetState ruleId => exact editStored_change nowIso ruleId stateReset (fun _ => rfl) file
  | setEnabled ruleId enabled =>
    have hstored : apply rt file (nowIso, .setEnabled ruleId enabled) =
        editStored nowIso ruleId (fun rule => { rule with enabled }) file := by
      simp only [apply, setEnabled, editStored]
      cases get file ruleId <;> rfl
    rw [hstored]
    exact editStored_change nowIso ruleId (fun rule => { rule with enabled }) (fun _ => rfl) file
  | writeBack pass choice snapshot =>
    obtain ⟨answer, w', hrun, hid, -⟩ := evaluateRule_keeps rt pass.engine choice.feed
      (some pass.correlationId) snapshot choice.world
    have hstored : apply rt file (nowIso, .writeBack pass choice snapshot) =
        upsert nowIso answer.2 file := by
      simp only [apply, hrun]
    exact .written nowIso answer.2 hid hstored

def others (ruleId : String) (file : RulesFile) : List Rule :=
  (loadAll file).filter fun rule => decide (rule.id ≠ ruleId)

theorem Change.others {before after : RulesFile} {ruleId : String}
    (h : Change before after ruleId) : others ruleId after = others ruleId before := by
  change KeyedList.delete Rule.id ruleId (loadAll after) =
    KeyedList.delete Rule.id ruleId (loadAll before)
  cases h with
  | same h => rw [h]
  | written nowIso rule hid h =>
    subst hid
    rw [h, loadAll_upsert]
    exact KeyedList.delete_upsert (stamped nowIso rule) (loadAll before)
  | deleted h => rw [h, loadAll_delete, KeyedList.delete_delete]

/-- What is loaded is normal, and no two rules have one identifier. -/
structure Sound (file : RulesFile) : Prop where
  normal : ∀ rule ∈ loadAll file, Normal rule
  distinct : ((loadAll file).map Rule.id).Nodup

theorem Change.sound {before after : RulesFile} {ruleId : String}
    (h : Change before after ruleId) (hbefore : Sound before) : Sound after := by
  refine ⟨loadAll_normal after, ?_⟩
  cases h with
  | same h => exact h ▸ hbefore.distinct
  | written nowIso rule hid h =>
    rw [h, loadAll_upsert]
    exact KeyedList.nodup_upsert hbefore.distinct
  | deleted h =>
    rw [h, loadAll_delete]
    exact KeyedList.nodup_delete hbefore.distinct

structure Forgotten (rule : Rule) : Prop where
  lastRun : rule.state.lastRunIso = none
  lastMatch : rule.state.lastMatchIso = none
  cooldown : rule.state.cooldownUntilIso = none
  cursor : rule.state.lastCursorIso = none
  seen : rule.state.seenIds = []
  oldRun : rule.lastRunIso = none
  oldMatch : rule.lastMatchIso = none

theorem stateReset_forgotten (nowIso : String) (existing : Rule) :
    Forgotten (stamped nowIso (stateReset existing)) where
  lastRun := rfl
  lastMatch := rfl
  cooldown := rfl
  cursor := rfl
  seen := by
    simp [stamped, migrateRule, boundSeen, migrateLegacyState, stateReset]
  oldRun := rfl
  oldMatch := rfl

theorem get_resetState (rt : Runtime) {file : RulesFile} {nowIso ruleId : String} {existing : Rule}
    (h : get file ruleId = some existing) :
    ∃ rule, get (apply rt file (nowIso, .resetState ruleId)) ruleId = some rule ∧
      Forgotten rule := by
  have hread : existing.id = ruleId := get_id h
  have hid : (stateReset existing).id = ruleId := hread
  have hget := get_upsert nowIso (stateReset existing) file
  rw [hid] at hget
  refine ⟨stamped nowIso (stateReset existing), ?_, stateReset_forgotten nowIso existing⟩
  simp only [apply, editStored, h]
  exact hget

/-- What an operation owes: the other rules as they were and in their order; a rule that
was upserted, normalised and with a new `updated_at_iso` only; a rule that was reset,
without a memory. -/
structure Served (t : SerialRun.Transition RulesFile (String × Op)) : Prop where
  others : others t.op.2.target t.after = others t.op.2.target t.before
  upserted : ∀ rule, t.op.2 = .upsert rule →
    get t.after rule.id = some { migrateRule rule with updatedAtIso := t.op.1 }
  reset : ∀ ruleId existing, t.op.2 = .resetState ruleId → get t.before ruleId = some existing →
    ∃ rule, get t.after ruleId = some rule ∧ Forgotten rule

theorem apply_served (rt : Runtime) (file : RulesFile) (op : String × Op) :
    Served ⟨file, op, apply rt file op⟩ := by
  obtain ⟨nowIso, op⟩ := op
  refine ⟨(apply_change rt file nowIso op).others, ?_, ?_⟩
  · intro rule hop
    cases hop
    exact get_upsert nowIso rule file
  · intro ruleId existing hop hget
    cases hop
    exact get_resetState rt hget

/-- In every run from a file whose rules have distinct identifiers, what is loaded is
normal with distinct identifiers, and every operation does what it owes. -/
theorem store_runs (rt : Runtime) {file : RulesFile} (hids : ((loadAll file).map Rule.id).Nodup)
    (ops : List (String × Op)) :
    Sound file ∧ (∀ t ∈ SerialRun.transitions (apply rt) file ops, Sound t.after ∧ Served t) ∧
      Sound (SerialRun.final (apply rt) file ops) := by
  have hfile : Sound file := ⟨loadAll_normal file, hids⟩
  have hstep : ∀ s op, True → Sound s → Sound (apply rt s op) :=
    fun s op _ hs => (apply_change rt s op.1 op.2).sound hs
  have hall : ∀ t ∈ SerialRun.transitions (apply rt) file ops, True := fun _ _ => trivial
  have ⟨hsound, hfinal⟩ := SerialRun.invariant_along hstep hall hfile
  refine ⟨hfile, fun t ht => ⟨(hsound t ht).2, ?_⟩, hfinal⟩
  have hserved := apply_served rt t.before t.op
  rwa [← SerialRun.after_eq ht] at hserved

def oldRule : Rule :=
  { nightly with
    state := { RuleState.initial with seenIds := ["a", "b"], seenIdsMax := 0 }
    lastRunIso := some "2024-01-01T00:00:00+00:00" }

def oldFile : RulesFile := [.malformed "", .rule oldRule]

theorem oldFile_distinct : ((loadAll oldFile).map Rule.id).Nodup := by decide

/-- Switched off and reset, it is normal. -/
theorem old_rule_sound : Sound (SerialRun.final
    (apply (exampleRuntime (fun _ => .returned "") fun _ => none)) oldFile
    [("t", .setEnabled "r" false), ("u", .resetState "r")]) :=
  (store_runs _ oldFile_distinct _).2.2

end RuleStoreRuns
