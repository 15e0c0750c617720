import Benjamin.RuleEngine
import Benjamin.SerialRun

/-!
# What repeated evaluations of a rule consider

Evaluations of one rule, one after the other. Only the rule is carried from a call to
the next; the world, the engine and the answers of the connectors are what the call
finds. An item whose identifier is new is considered when it is later than all that
was considered before.
-/
namespace RuleCandidates

open PyBase PlanSchemas AssistantState RuleSchemas RuleMatching RuleEngine Effect

structure Call where
  world : World
  engine : Engine
  feed : Feed
  ctxCorrelationId : Option String

def Call.outcome (rt : Runtime) (c : Call) (rule : Rule) :
    Except PyError (RuleRunResult × Rule) × World :=
  evaluateRule rt c.engine c.feed c.ctxCorrelationId rule c.world

def evaluated (rt : Runtime) (rule : Rule) (c : Call) : Rule :=
  match (c.outcome rt rule).1 with
  | .ok (_, rule') => rule'
  | .error _ => rule

def started (rt : Runtime) (c : Call) : String × World :=
  match ruleCorrelation rt c.ctxCorrelationId c.world with
  | (.ok correlationId, w) => (correlationId, w)
  | (.error _, w) => ("", w)

abbrev Evaluated := SerialRun.Transition Rule Call

def runOf (rt : Runtime) (rule : Rule) (calls : List Call) : List Evaluated :=
  SerialRun.transitions (evaluated rt) rule calls

def nextOf (rt : Runtime) (rule : Rule) (calls : List Call) (c : Call) : Evaluated :=
  let before := SerialRun.final (evaluated rt) rule calls
  ⟨before, c, evaluated rt before c⟩

def returned (t : Evaluated) : List Item :=
  match loadTriggerItems t.op.world.now t.op.feed t.before.trigger with
  | .ok items => items
  | .error _ => []

def matchesOf (rt : Runtime) (t : Evaluated) : Matches :=
  match computeMatches rt t.op.world.now t.op.feed t.before false with
  | .ok found => found
  | .error _ => ⟨[], [], [], []⟩

def candidates (rt : Runtime) (t : Evaluated) : List Item := (matchesOf rt t).candidates

/-- No cooldown, no degraded service and no exception. -/
structure Loads (rt : Runtime) (t : Evaluated) : Prop where
  inactive : isCooldownActive rt t.before t.op.world.now = .ok false
  loaded : ∃ items, loadTriggerItems t.op.world.now t.op.feed t.before.trigger = .ok items
  succeeded : ∃ answer, (t.op.outcome rt t.before).1 = .ok answer ∧ answer.1.ok = true

theorem outcome_cases (rt : Runtime) (c : Call) (rule : Rule) :
    ∃ result state w', c.outcome rt rule = (.ok (result, evaluated rt rule c), w') ∧
      evaluated rt rule c = syncLegacyState { rule with state := state } ∧
      Quiet c.world (started rt c).2 ∧
      EvaluationCase rt c.engine c.feed (started rt c).1 rule (started rt c).2 w' result state := by
  obtain ⟨⟨result, rule'⟩, w', hrun, hrule, correlationId, w₀, hstarted, hquiet, hcase⟩ :=
    evaluateRule_cases rt c.engine c.feed rule c.ctxCorrelationId c.world
  have houtcome : c.outcome rt rule = (.ok (result, rule'), w') := hrun
  have hevaluated : evaluated rt rule c = rule' := by rw [evaluated, houtcome]
  have hstart : started rt c = (correlationId, w₀) := by rw [started, hstarted]
  rw [hevaluated, hstart]
  exact ⟨result, rule'.state, w', houtcome, hrule, hquiet, hcase⟩

theorem Wrote.now_eq {f : Stores → Stores} {w w' : World} (h : Wrote f w w') : w'.now = w.now :=
  congrArg Surroundings.now h.surroundings

/-- What a state has taken in of the items since another state. -/
structure Digested (rt : Runtime) (items : List Item) (state state' : RuleState) : Prop where
  within : ∀ x ∈ state'.seenIds, x ∈ state.seenIds ∨ ∃ item ∈ items, item.itemId = x
  moved : Moved rt items (parseIso rt state.lastCursorIso) (parseIso rt state'.lastCursorIso)

theorem Digested.refl (rt : Runtime) (state : RuleState) : Digested rt [] state state :=
  ⟨fun _ hx => Or.inl hx, Moved.refl rt _⟩

theorem Digested.append {rt : Runtime} {xs ys : List Item} {s s₁ s₂ : RuleState}
    (h : Digested rt xs s s₁) (h' : Digested rt ys s₁ s₂) : Digested rt (xs ++ ys) s s₂ := by
  refine ⟨?_, h.moved.append h'.moved⟩
  intro x hx
  rcases h'.within x hx with hx | ⟨item, hitem, hid⟩
  · rcases h.within x hx with hx | ⟨item, hitem, hid⟩
    · exact Or.inl hx
    · exact Or.inr ⟨item, List.mem_append_left _ hitem, hid⟩
  · exact Or.inr ⟨item, List.mem_append_right _ hitem, hid⟩

theorem loads_reads {rt : Runtime} {t : Evaluated} (h : Loads rt t)
    (hafter : t.after = evaluated rt t.before t.op) :
    (∃ found, computeMatches rt t.op.world.now t.op.feed t.before false = .ok found) ∧
      Digested rt (candidates rt t) t.before.state t.after.state := by
  obtain ⟨result, state, w', houtcome, hrule, hquiet, hcase⟩ := outcome_cases rt t.op t.before
  have hnow : (started rt t.op).2.now = t.op.world.now := Wrote.now_eq hquiet
  have hstate : t.after.state = state := by rw [hafter, hrule, syncLegacyState]
  have hinactive := h.inactive
  have hsuccess : result.ok = true := by
    obtain ⟨answer, hanswer, hok⟩ := h.succeeded
    rw [houtcome] at hanswer
    cases hanswer
    exact hok
  rw [hstate]
  cases hcase with
  | cooling notes active quiet =>
    rw [hnow, hinactive] at active
    cases active
  | interrupted notes exc w₁ state how quiet same => cases hsuccess
  | completed notes found executed w₁ state₁ state inactive read acted quiet same remembered =>
    rw [hnow] at read
    have hcandidates : candidates rt t = found.candidates := by rw [candidates, matchesOf, read]
    have hremembered := updateCursors_remembers remembered
    have hwithin := hremembered.within
    have hmoved := hremembered.moved
    rw [same.seenIds] at hwithin
    rw [same.lastCursorIso] at hmoved
    rw [hcandidates]
    exact ⟨⟨found, read⟩, hwithin, hmoved⟩

theorem mem_candidates {rt : Runtime} {t : Evaluated} {found : Matches}
    (hread : computeMatches rt t.op.world.now t.op.feed t.before false = .ok found) {item : Item}
    (hitem : item ∈ returned t) :
    item ∈ candidates rt t ↔ item.itemId ∉ t.before.state.seenIds ∧
      Later (parseIso rt t.before.state.lastCursorIso) (parseIso rt item.tsIso) := by
  have hcandidates : candidates rt t = found.candidates := by rw [candidates, matchesOf, hread]
  rw [returned] at hitem
  rw [computeMatches] at hread
  cases hload : loadTriggerItems t.op.world.now t.op.feed t.before.trigger with
  | error e => simp [hload] at hitem
  | ok items =>
    simp only [hload] at hitem hread
    cases hfilter : filterNewItems rt t.before.state items with
    | error e => simp [hfilter] at hread
    | ok kept =>
      simp only [hfilter, Bool.false_eq_true, if_false, Except.ok.injEq] at hread
      subst hread
      obtain ⟨new, hnew⟩ := filterNewItems_ok hfilter item hitem
      have hiff := isNew_iff hnew
      rw [hcandidates, mem_filterNewItems hfilter, hnew]
      constructor
      · rintro ⟨_, hok⟩
        cases hok
        exact hiff.mp rfl
      · intro h
        rw [hiff.mpr h]
        exact ⟨hitem, rfl⟩

section Runs

variable {rt : Runtime} {rule : Rule}

@[simp] theorem runOf_cons (c : Call) (calls : List Call) :
    runOf rt rule (c :: calls) =
      ⟨rule, c, evaluated rt rule c⟩ :: runOf rt (evaluated rt rule c) calls := rfl

theorem nextOf_cons (c last : Call) (calls : List Call) :
    nextOf rt rule (c :: calls) last = nextOf rt (evaluated rt rule c) calls last := rfl

/-- A run takes in what its evaluations consider. -/
theorem run_digested {calls : List Call} (h : ∀ t ∈ runOf rt rule calls, Loads rt t) (last : Call) :
    Digested rt ((runOf rt rule calls).flatMap (candidates rt)) rule.state
      (nextOf rt rule calls last).before.state := by
  induction calls generalizing rule with
  | nil => exact Digested.refl rt rule.state
  | cons c rest ih =>
    have hfirst := (loads_reads (h _ List.mem_cons_self) rfl).2
    have hrest := @ih (evaluated rt rule c) fun t ht => h t (List.mem_cons_of_mem _ ht)
    rw [runOf_cons, List.flatMap_cons, nextOf_cons]
    exact hfirst.append hrest

theorem matchesOf_cases (rt : Runtime) (t : Evaluated) :
    ((matchesOf rt t).candidates = [] ∧ (matchesOf rt t).matching = []) ∨
      ∃ items kept, loadTriggerItems t.op.world.now t.op.feed t.before.trigger = .ok items ∧
        filterNewItems rt t.before.state items = .ok kept ∧
        (matchesOf rt t).candidates = kept ∧
        (matchesOf rt t).matching = matchingItems rt t.before.condition kept := by
  rw [matchesOf, computeMatches]
  cases hload : loadTriggerItems t.op.world.now t.op.feed t.before.trigger with
  | error e =>
    left
    cases e <;> exact ⟨rfl, rfl⟩
  | ok items =>
    simp only [Bool.false_eq_true, if_false]
    cases hfilter : filterNewItems rt t.before.state items with
    | error e => exact .inl ⟨rfl, rfl⟩
    | ok kept => exact .inr ⟨items, kept, rfl, hfilter, rfl, rfl⟩

/-- What an evaluation considers, its trigger has returned, and it is new. -/
theorem candidate_new {t : Evaluated} {item : Item} (h : item ∈ candidates rt t) :
    item ∈ returned t ∧ isNew rt t.before.state item = .ok true := by
  rcases matchesOf_cases rt t with ⟨hnone, -⟩ | ⟨items, kept, hload, hfilter, hkept, -⟩
  · rw [candidates, hnone] at h
    cases h
  · rw [candidates, hkept] at h
    rw [returned, hload]
    exact (mem_filterNewItems hfilter).mp h

end Runs

theorem first_returned_is_considered (rt : Runtime) (rule : Rule) (calls : List Call) (last : Call)
    (hloads : ∀ t ∈ runOf rt rule calls, Loads rt t) (hlast : Loads rt (nextOf rt rule calls last))
    (item : Item) (hitem : item ∈ returned (nextOf rt rule calls last))
    (hunseen : item.itemId ∉ rule.state.seenIds)
    (hfirst : ∀ t ∈ runOf rt rule calls, ∀ other ∈ returned t, other.itemId ≠ item.itemId) :
    item ∈ candidates rt (nextOf rt rule calls last) ↔
      Later (parseIso rt rule.state.lastCursorIso) (parseIso rt item.tsIso) ∧
        ∀ t ∈ runOf rt rule calls, ∀ other ∈ candidates rt t,
          Later (parseIso rt other.tsIso) (parseIso rt item.tsIso) := by
  have hdigested := run_digested hloads last
  have hnotSeen : item.itemId ∉ (nextOf rt rule calls last).before.state.seenIds := by
    intro hseen
    rcases hdigested.within _ hseen with hseen | ⟨other, hother, hid⟩
    · exact hunseen hseen
    · obtain ⟨t, ht, hother⟩ := List.mem_flatMap.mp hother
      exact hfirst t ht other (candidate_new hother).1 hid
  obtain ⟨⟨found, hread⟩, _⟩ := loads_reads hlast rfl
  rw [mem_candidates hread hitem, hdigested.moved.later_iff]
  constructor
  · rintro ⟨_, hcursor, hall⟩
    exact ⟨hcursor, fun t ht other hother => hall other (List.mem_flatMap.mpr ⟨t, ht, hother⟩)⟩
  · rintro ⟨hcursor, hall⟩
    refine ⟨hnotSeen, hcursor, fun other hother => ?_⟩
    obtain ⟨t, ht, hother⟩ := List.mem_flatMap.mp hother
    exact hall t ht other hother

def datedRuntime : Runtime :=
  { exampleRuntime (fun _ => .returned "") fun _ => none with
    fromisoformat := fun s =>
      if s = "2026-01-01T00:00:00+00:00" then some (.aware 1767225600000000)
      else if s = "2026-01-02T00:00:00+00:00" then some (.aware 1767312000000000)
      else none }

def inboxRule : Rule where
  id := "r"
  name := "Inbox"
  enabled := true
  createdAtIso := "2026-01-01T00:00:00+00:00"
  updatedAtIso := "2026-01-01T00:00:00+00:00"
  trigger := ⟨.gmail, 5, none, 5, 24⟩
  condition := ⟨none, none⟩
  actions := [.notify "Inbox" "mail"]
  maxActionsPerRun := 3
  cooldownMinutes := 0
  state := .initial
  lastRunIso := none
  lastMatchIso := none

def mailCall (id dateIso : String) : Call where
  world := freshWorld { exampleSurroundings with now := 1767398400000000 }
  engine := exampleEngine
  feed := oneMessage id (some dateIso)
  ctxCorrelationId := some "c"

def mailItem (id dateIso : String) : Item := ⟨id, some dateIso, "a@b hello"⟩

theorem first_returned_later :
    mailItem "m2" "2026-01-02T00:00:00+00:00" ∈ candidates datedRuntime
      (nextOf datedRuntime inboxRule [mailCall "m1" "2026-01-01T00:00:00+00:00"]
        (mailCall "m2" "2026-01-02T00:00:00+00:00")) := by
  refine (first_returned_is_considered datedRuntime inboxRule _ _ ?_ ?_ _ ?_ ?_ ?_).mpr ⟨?_, ?_⟩
  · intro t ht
    cases List.mem_singleton.mp ht
    exact ⟨by decide, ⟨_, rfl⟩, _, rfl, by decide⟩
  · exact ⟨by decide, ⟨_, rfl⟩, _, rfl, by decide⟩
  · decide
  · decide
  · intro t ht
    cases List.mem_singleton.mp ht
    decide
  · rintro cursor ⟨⟩
  · intro t ht other hother
    cases List.mem_singleton.mp ht
    have hsame : other = mailItem "m1" "2026-01-01T00:00:00+00:00" := by
      revert other
      decide
    subst hsame
    intro first hfirst second hsecond
    cases hfirst
    cases hsecond
    decide

/-- A message that arrives with an earlier date than one already processed is passed over. -/
theorem late_mail_not_considered :
    let run := runOf datedRuntime inboxRule [mailCall "m1" "2026-01-02T00:00:00+00:00"]
    let next := nextOf datedRuntime inboxRule [mailCall "m1" "2026-01-02T00:00:00+00:00"]
      (mailCall "m2" "2026-01-01T00:00:00+00:00")
    (∀ t ∈ run, Loads datedRuntime t) ∧ Loads datedRuntime next ∧
      mailItem "m2" "2026-01-01T00:00:00+00:00" ∈ returned next ∧
      "m2" ∉ inboxRule.state.seenIds ∧
      (∀ t ∈ run, ∀ other ∈ returned t, other.itemId ≠ "m2") ∧
      ∀ item ∈ candidates datedRuntime next, item.itemId ≠ "m2" := by
  intro run next
  refine ⟨?_, ⟨by decide, ⟨_, rfl⟩, _, rfl, by decide⟩, by decide, by decide, ?_, by decide⟩
  · intro t ht
    cases List.mem_singleton.mp ht
    exact ⟨by decide, ⟨_, rfl⟩, _, rfl, by decide⟩
  · intro t ht
    cases List.mem_singleton.mp ht
    decide

end RuleCandidates
