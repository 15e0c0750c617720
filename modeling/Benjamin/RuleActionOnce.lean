import Benjamin.RuleEngine
import Benjamin.SerialRun

/-!
# One approval for a rule's action

Evaluations of one rule, resets of its state, changes of the surroundings and crashes.
A process that dies in an evaluation leaves the directory as one of its writes left
it, and the rule as it was saved before. The ledger keys of the rule's actions see to
it that no action creates a second approval while nothing has been trimmed away.
-/
namespace RuleActionOnce

open PyBase ExecutionLedger PlanSchemas SecurityPolicy SkillRegistry AssistantState ApprovalStore
  RuleSchemas RuleMatching RuleEngine Effect

inductive Op where
  | evaluate (engine : Engine) (feed : Feed) (ctxCorrelationId : Option String)
  | crash (engine : Engine) (feed : Feed) (ctxCorrelationId : Option String) (written : Nat)
  | setRuleState (state : RuleState)
  | setSurroundings (s : Surroundings)

structure System where
  world : World
  rule : Rule

/-- A crash comes after some number of the writes that the evaluation makes. The ledger
keeps the limit that it was built with. -/
def apply (rt : Runtime) (s : System) : Op → System
  | .evaluate engine feed ctxCorrelationId =>
    match evaluateRule rt engine feed ctxCorrelationId s.rule s.world with
    | (.ok (_, rule), w) => ⟨w, rule⟩
    | (.error _, w) => ⟨w, s.rule⟩
  | .crash engine feed ctxCorrelationId written =>
    let w := (evaluateRule rt engine feed ctxCorrelationId s.rule s.world).2
    let disk := (w.journal.drop s.world.journal.length)[written]?
    { s with world := { w with disk := disk.getD w.disk } }
  | .setRuleState state => { s with rule := { s.rule with state := state } }
  | .setSurroundings surroundings =>
    { s with world := { s.world with
        toSurroundings := { surroundings with maxRecords := s.world.maxRecords } } }

def CreatedFor (key : String) : Event → Bool
  | .approvalCreated (.ruleAction k) _ => k = key
  | _ => false

def created (key : String) (d : Stores) : Nat := d.events.countP (CreatedFor key)

/-- The ledger holds the newest of the records that it started with and of those added. -/
structure History (bound : Int) (start : List LedgerRecord) (base : Nat) (d : Stores)
    (added : List LedgerRecord) : Prop where
  retains : BoundedLog.Retains bound (readAllRecords d.ledger) (start ++ added)
  counted : d.ledgerAppends = base + added.length

def Bounded (bound : Int) (base : Nat) (d : Stores) : Prop :=
  bound ≤ 0 ∨ (d.ledgerAppends : Int) < base + bound

def Claimed (key : String) (added : List LedgerRecord) : Prop :=
  ∃ r, BoundedLog.latest LedgerRecord.key added key = some r ∧
    (r.status = .started ∨ r.status = .succeeded)

/-- No approval has been created for the key, or one, and the key is claimed. -/
def AtMostOnce (d : Stores) (added : List LedgerRecord) (key : String) : Prop :=
  created key d = 0 ∨ created key d = 1 ∧ Claimed key added

def Once (bound : Int) (start : List LedgerRecord) (base : Nat) (d : Stores) : Prop :=
  Bounded bound base d → ∃ added, History bound start base d added ∧ ∀ key, AtMostOnce d added key

/-- As `Once`, where moreover the key is claimed and nothing is created for it yet. -/
def Opened (bound : Int) (start : List LedgerRecord) (base : Nat) (opened : String) (d : Stores) :
    Prop :=
  Bounded bound base d → ∃ added, History bound start base d added ∧
    (∀ key, AtMostOnce d added key) ∧ created opened d = 0 ∧ Claimed opened added

section Steps

variable {bound : Int} {start : List LedgerRecord} {base : Nat} {d : Stores}

theorem Opened.once {opened : String} (h : Opened bound start base opened d) :
    Once bound start base d := by
  intro hbounded
  obtain ⟨added, hhistory, hall, _⟩ := h hbounded
  exact ⟨added, hhistory, hall⟩

/-- A claimed key is refused while nothing has been trimmed since. -/
theorem refused_of_claimed {added : List LedgerRecord} {key : String}
    (h : History bound start base d added) (hbounded : Bounded bound base d)
    (hclaimed : Claimed key added) : refused d.ledger key = true := by
  obtain ⟨r, hr, hstatus⟩ := hclaimed
  have hall : BoundedLog.latest LedgerRecord.key (start ++ added) key = some r :=
    BoundedLog.latest_of_suffix (List.suffix_append _ _) hr
  have hafter := BoundedLog.after_lt_of_latest (s := start) hr
  have hcounted := h.counted
  have hwindow : bound ≤ 0 ∨
      (BoundedLog.after LedgerRecord.key key (start ++ added) : Int) < bound := by
    rcases hbounded with hle | hlt
    · exact Or.inl hle
    · right
      omega
  have hlatest : latestRecord d.ledger key = some r := by
    rw [latestRecord, h.retains.latest_eq hwindow (by simp [hall]), hall]
  exact refused_iff.mpr ⟨r, hlatest, hstatus⟩

structure Appended (bound : Int) (r : LedgerRecord) (d d' : Stores) : Prop where
  records : readAllRecords d'.ledger = BoundedLog.retain bound (readAllRecords d.ledger ++ [r])
  events : d'.events = d.events
  counted : d'.ledgerAppends = d.ledgerAppends + 1

theorem Appended.history {added : List LedgerRecord} {r : LedgerRecord} {d' : Stores}
    (h : Appended bound r d d') (hhistory : History bound start base d added) :
    History bound start base d' (added ++ [r]) := by
  refine ⟨?_, ?_⟩
  · rw [h.records, ← List.append_assoc]
    exact hhistory.retains.append r
  · rw [h.counted, hhistory.counted, List.length_append]
    rfl

theorem Appended.bounded {r : LedgerRecord} {d' : Stores} (h : Appended bound r d d')
    (hbounded : Bounded bound base d') : Bounded bound base d := by
  have hcounted := h.counted
  rw [Bounded] at hbounded ⊢
  omega

theorem Appended.created {r : LedgerRecord} {d' : Stores} (h : Appended bound r d d')
    (key : String) : created key d' = created key d := by
  rw [RuleActionOnce.created, h.events, RuleActionOnce.created]

theorem AtMostOnce.appended {added : List LedgerRecord} {r : LedgerRecord} {d' : Stores}
    {key : String} (h : AtMostOnce d added key) (happended : Appended bound r d d')
    (hr : r.key = key → r.status = .started ∨ r.status = .succeeded) :
    AtMostOnce d' (added ++ [r]) key := by
  rw [AtMostOnce, happended.created]
  refine h.imp_right ?_
  rintro ⟨hone, latest, hlatest, hstatus⟩
  refine ⟨hone, ?_⟩
  by_cases hkey : r.key = key
  · subst hkey
    exact ⟨r, BoundedLog.latest_append_self added r, hr rfl⟩
  · exact ⟨latest, (BoundedLog.latest_append_ne hkey added).trans hlatest, hstatus⟩

theorem start_appended {s : Surroundings} {t : Turn} {key : String}
    (hbound : s.maxRecords = bound) (hadmitted : refused d.ledger key = false) :
    ∃ r, Appended bound r d (startedAction s t key d) ∧ r.key = key ∧ r.status = .started := by
  refine ⟨startedRecord key .ruleAction (isoformat s.now) (some t.correlationId)
    (actionMeta t), ⟨?_, rfl, ?_⟩, rfl, rfl⟩
  · simp only [startedAction, startKey, tryStart_admitted hadmitted, readAllRecords_trim,
      readAllRecords_append, hbound]
  · simp [startedAction, startKey, hadmitted]

theorem mark_appended {s : Surroundings} (key : String) (status : LedgerStatus) (metaUpdate : Dict)
    (hbound : s.maxRecords = bound) :
    ∃ r, Appended bound r d (markKey s key status metaUpdate d) ∧ r.key = key ∧
      r.status = status := by
  refine ⟨markedRecord d.ledger (isoformat s.now) key status metaUpdate, ⟨?_, rfl, rfl⟩,
    markedRecord_key .., markedRecord_status ..⟩
  rw [markKey, readAllRecords_mark, hbound]

/-- The ledger admits only a key for which nothing has been created. -/
theorem Once.opened {s : Surroundings} {t : Turn} {key : String} (h : Once bound start base d)
    (hbound : s.maxRecords = bound) (hadmitted : refused d.ledger key = false) :
    Opened bound start base key (startedAction s t key d) := by
  obtain ⟨r, happended, hkey, hstatus⟩ := start_appended (t := t) hbound hadmitted
  intro hbounded
  have hbounded' := happended.bounded hbounded
  obtain ⟨added, hhistory, hall⟩ := h hbounded'
  have hnone : created key d = 0 := by
    refine (hall key).resolve_right ?_
    rintro ⟨_, hclaimed⟩
    have hrefused := refused_of_claimed hhistory hbounded' hclaimed
    rw [hadmitted] at hrefused
    cases hrefused
  refine ⟨added ++ [r], happended.history hhistory, ?_, ?_, r, ?_, Or.inl hstatus⟩
  · exact fun k => (hall k).appended happended fun _ => Or.inl hstatus
  · rw [happended.created, hnone]
  · rw [← hkey]
    exact BoundedLog.latest_append_self added r

theorem Opened.failed {s : Surroundings} {key : String} {metaUpdate : Dict}
    (h : Opened bound start base key d) (hbound : s.maxRecords = bound) :
    Once bound start base (markKey s key .failed metaUpdate d) := by
  obtain ⟨r, happended, hkey, _⟩ := mark_appended (d := d) key .failed metaUpdate hbound
  intro hbounded
  obtain ⟨added, hhistory, hall, hnone, _⟩ := h (happended.bounded hbounded)
  refine ⟨added ++ [r], happended.history hhistory, fun k => ?_⟩
  by_cases hk : k = key
  · left
    rw [happended.created, hk, hnone]
  · exact (hall k).appended happended fun hr => absurd (hr.symm.trans hkey) hk

theorem Once.succeeded {s : Surroundings} {key : String} {metaUpdate : Dict}
    (h : Once bound start base d) (hbound : s.maxRecords = bound) :
    Once bound start base (markKey s key .succeeded metaUpdate d) := by
  obtain ⟨r, happended, _, hstatus⟩ := mark_appended (d := d) key .succeeded metaUpdate hbound
  intro hbounded
  obtain ⟨added, hhistory, hall⟩ := h (happended.bounded hbounded)
  exact ⟨added ++ [r], happended.history hhistory,
    fun k => (hall k).appended happended fun _ => Or.inr hstatus⟩

theorem created_addCreated (key opened : String) (record : PendingApproval) :
    created key (addCreated (.ruleAction opened) record d) =
      created key d + if opened = key then 1 else 0 := by
  simp [created, addCreated, Stores.log, List.countP_append, List.countP_cons, CreatedFor]

theorem Opened.create {key : String} (h : Opened bound start base key d)
    (record : PendingApproval) :
    Once bound start base (addCreated (.ruleAction key) record d) := by
  intro hbounded
  obtain ⟨added, hhistory, hall, hnone, hclaimed⟩ := h hbounded
  refine ⟨added, ⟨hhistory.retains, hhistory.counted⟩, fun k => ?_⟩
  rw [AtMostOnce, created_addCreated]
  by_cases hk : key = k
  · subst hk
    right
    rw [hnone, if_pos rfl]
    exact ⟨rfl, hclaimed⟩
  · rw [if_neg hk]
    exact hall k

theorem created_notified (key title body ruleId correlationId : String)
    (failure : Option PyError) :
    created key (d.log (.notified title body ruleId correlationId failure)) = created key d := by
  simp [created, Stores.log, List.countP_append, CreatedFor]

theorem Once.notified (h : Once bound start base d) (title body ruleId correlationId : String)
    (failure : Option PyError) :
    Once bound start base (d.log (.notified title body ruleId correlationId failure)) := by
  intro hbounded
  obtain ⟨added, hhistory, hall⟩ := h hbounded
  refine ⟨added, ⟨hhistory.retains, hhistory.counted⟩, fun k => ?_⟩
  rw [AtMostOnce, created_notified]
  exact hall k

theorem Appended.admitted {r : LedgerRecord} {d' : Stores} {key : String}
    (h : Appended bound r d d') (hown : r.key = key → r.status = .failed)
    (hother : r.key ≠ key → refused d.ledger key = false) : refused d'.ledger key = false := by
  rw [admitted_iff]
  intro latest hlatest
  rw [latestRecord, h.records] at hlatest
  by_cases hkey : r.key = key
  · subst hkey
    rw [latest_retain_self] at hlatest
    obtain rfl := Option.some.inj hlatest
    exact Or.inl (hown rfl)
  · have hall := BoundedLog.latest_of_suffix (BoundedLog.retain_suffix bound _) hlatest
    rw [BoundedLog.latest_append_ne hkey] at hall
    exact admitted_iff.mp (hother hkey) latest hall

/-- An attempt that fails leaves its own key admissible, and every other as it was. -/
theorem failed_admitted {s : Surroundings} {t : Turn} {opened key : String} {metaUpdate : Dict}
    (hopened : refused d.ledger opened = false) (hadmitted : refused d.ledger key = false) :
    refused (markKey s opened .failed metaUpdate (startedAction s t opened d)).ledger key =
      false := by
  obtain ⟨r, hstarted, hkey, _⟩ := start_appended (s := s) (t := t) rfl hopened
  obtain ⟨r', hmarked, hkey', hstatus'⟩ := mark_appended (s := s)
    (d := startedAction s t opened d) opened .failed metaUpdate rfl
  refine hmarked.admitted (fun _ => hstatus') fun hne => ?_
  rw [hkey'] at hne
  refine hstarted.admitted (fun hsame => absurd (hkey.symm.trans hsame) hne) fun _ => hadmitted

end Steps

/-- Every directory that a crash could have left meets the invariant. -/
structure Good (bound : Int) (start : List LedgerRecord) (base : Nat) (w : World) : Prop where
  limit : w.maxRecords = bound
  throughout : Throughout (Once bound start base) w

section Worlds

variable {bound : Int} {start : List LedgerRecord} {base : Nat} {rt : Runtime} {engine : Engine}

theorem Good.wrote {f : Stores → Stores} {w w' : World} (h : Good bound start base w)
    (hwrote : Wrote f w w') (hf : Once bound start base (f w.disk.toStores)) :
    Good bound start base w' :=
  ⟨(congrArg Surroundings.maxRecords hwrote.surroundings).trans h.limit,
    h.throughout.wrote hwrote hf⟩

theorem Good.quiet {w w' : World} (h : Good bound start base w) (hquiet : Quiet w w') :
    Good bound start base w' :=
  h.wrote hquiet h.throughout.1

theorem good_chains : Chains fun w w' => Good bound start base w → Good bound start base w' :=
  ⟨fun _ h => h, fun h h' hw => h' (h hw)⟩

/-- Every action keeps the invariant at each of its writes. -/
theorem action_good {t : Turn} {index : Nat} {action : RuleAction} {w w' : World}
    {r : Except PyError Bool} (hcase : ActionCase rt engine t index w w' action r)
    (h : Good bound start base w) : Good bound start base w' := by
  have hnow : Once bound start base w.disk.toStores := h.throughout.1
  cases hcase with
  | sent wrote => exact h.wrote wrote (hnow.notified _ _ _ _ _)
  | unsent e why wrote => exact h.wrote wrote (hnow.notified _ _ _ _ _)
  | safeMode safe quiet => exact h.quiet quiet
  | deduped unsafe_off refused quiet => exact h.quiet quiet
  | blocked metaUpdate w₁ unsafe_off admitted why started marked =>
    have hopened := hnow.opened (t := t) h.limit admitted
    have h₁ := h.wrote started hopened.once
    rw [← started.stores] at hopened
    exact h₁.wrote marked (hopened.failed h.limit)
  | failed e stepId metaUpdate w₁ unsafe_off admitted allowed why started marked =>
    have hopened := hnow.opened (t := t) h.limit admitted
    have h₁ := h.wrote started hopened.once
    rw [← started.stores] at hopened
    exact h₁.wrote marked (hopened.failed h.limit)
  | created stepId record w₁ w₂ unsafe_off admitted allowed creatable started made marked =>
    have hopened := hnow.opened (t := t) h.limit admitted
    have h₁ := h.wrote started hopened.once
    rw [← started.stores] at hopened
    have h₂ := h₁.wrote made.wrote (hopened.create record)
    exact h₂.wrote marked (h₂.throughout.1.succeeded h.limit)

theorem interrupted_good {feed : Feed} {correlationId : String} {rule : Rule} {w w' : World}
    {exc : PyError} (hcase : Interrupted rt engine feed correlationId rule w w' exc)
    (h : Good bound start base w) : Good bound start base w' := by
  cases hcase with
  | unread why quiet => exact h.quiet quiet
  | aborted found r inactive read acted why =>
    exact acted.ran.chain good_chains (fun _ _ _ _ _ _ => action_good) h

theorem evaluation_good {feed : Feed} {correlationId : String} {rule : Rule} {w w' : World}
    {result : RuleRunResult} {state : RuleState}
    (hcase : EvaluationCase rt engine feed correlationId rule w w' result state)
    (h : Good bound start base w) : Good bound start base w' := by
  cases hcase with
  | cooling notes active quiet => exact h.quiet quiet
  | interrupted notes exc w₁ state how quiet same => exact (interrupted_good how h).quiet quiet
  | completed notes found executed w₁ state₁ state inactive read acted quiet same remembered =>
    exact (acted.ran.chain good_chains (fun _ _ _ _ _ _ => action_good) h).quiet quiet

theorem evaluateRule_good (rt : Runtime) (engine : Engine) (feed : Feed)
    (ctxCorrelationId : Option String) (rule : Rule)
    {w : World} (h : Good bound start base w) :
    Good bound start base (evaluateRule rt engine feed ctxCorrelationId rule w).2 := by
  obtain ⟨answer, w', hrun, _, correlationId, w₀, _, hquiet, hcase⟩ :=
    evaluateRule_cases rt engine feed rule ctxCorrelationId w
  rw [hrun]
  exact evaluation_good hcase (h.quiet hquiet)

theorem apply_good (rt : Runtime) (s : System) (op : Op) (h : Good bound start base s.world) :
    Good bound start base (apply rt s op).world := by
  cases op with
  | evaluate engine feed ctxCorrelationId =>
    have hgood := evaluateRule_good rt engine feed ctxCorrelationId s.rule h
    unfold apply
    dsimp only
    split <;> rename_i heq <;> rw [heq] at hgood <;> exact hgood
  | crash engine feed ctxCorrelationId written =>
    have hgood := evaluateRule_good rt engine feed ctxCorrelationId s.rule h
    refine ⟨hgood.limit, ?_, hgood.throughout.2⟩
    rw [apply]
    dsimp only
    cases hdisk : ((evaluateRule rt engine feed ctxCorrelationId s.rule s.world).2.journal.drop
        s.world.journal.length)[written]? with
    | none => exact hgood.throughout.1
    | some d =>
      exact hgood.throughout.2 d (List.mem_of_mem_drop (List.mem_of_getElem? hdisk))
  | setRuleState state => exact h
  | setSurroundings surroundings => exact ⟨h.limit, h.throughout⟩

end Worlds

/-- What creates nothing for a key leaves it admissible. -/
structure Readmits (key : String) (w w' : World) : Prop where
  created_le : created key w.disk.toStores ≤ created key w'.disk.toStores
  admitted : created key w'.disk.toStores = created key w.disk.toStores →
    refused w.disk.ledger key = false → refused w'.disk.ledger key = false

/-- The allowlist or the policy turns the skill down: the policy that the engine holds, or the
one that `create_pending` reads. -/
def Blocked (engine : Engine) (skillName : String) (w : World) : Prop :=
  ¬ Allowed engine.permissionsPolicy (requiredScopesForSkill engine.registry skillName) ∨
    ∃ scope ∈ requiredScopesForSkill engine.registry skillName,
      w.policy.isScopeEnabled scope = false

section Attempts

variable {rt : Runtime} {engine : Engine} {key : String}

theorem readmits_chains (key : String) : Chains (Readmits key) := by
  constructor
  · intro w
    exact ⟨le_refl _, fun _ h => h⟩
  · intro w w₁ w' h h'
    refine ⟨h.created_le.trans h'.created_le, fun hsame hadmitted => ?_⟩
    have hle := h.created_le
    have hle' := h'.created_le
    exact h'.admitted (by omega) (h.admitted (by omega) hadmitted)

theorem Readmits.quiet {w w' : World} (h : Quiet w w') : Readmits key w w' := by
  constructor
  · rw [h.stores_eq]
  · intro _ hadmitted
    rw [h.stores_eq]
    exact hadmitted

theorem Readmits.notified {title body ruleId correlationId : String} {failure : Option PyError}
    {w w' : World}
    (h : Wrote (fun d => d.log (.notified title body ruleId correlationId failure)) w w') :
    Readmits key w w' := by
  constructor
  · rw [h.stores, created_notified]
  · intro _ hadmitted
    rw [h.stores]
    exact hadmitted

theorem created_failed {s s' : Surroundings} {t : Turn} {opened : String} {metaUpdate : Dict}
    (d : Stores) :
    created key (markKey s' opened .failed metaUpdate (startedAction s t opened d)) =
      created key d := rfl

theorem Readmits.failed {t : Turn} {opened : String} {metaUpdate : Dict} {w w₁ w' : World}
    (hopened : refused w.disk.ledger opened = false)
    (hstarted : Wrote (startedAction w.toSurroundings t opened) w w₁)
    (hmarked : Wrote (markKey w.toSurroundings opened .failed metaUpdate) w₁ w') :
    Readmits key w w' := by
  constructor
  · rw [hmarked.stores, hstarted.stores, created_failed]
  · intro _ hadmitted
    rw [hmarked.stores, hstarted.stores]
    exact failed_admitted hopened hadmitted

theorem action_readmits {t : Turn} {index : Nat} {action : RuleAction} {w w' : World}
    {r : Except PyError Bool} (hcase : ActionCase rt engine t index w w' action r) :
    Readmits key w w' := by
  cases hcase with
  | sent wrote => exact .notified wrote
  | unsent e why wrote => exact .notified wrote
  | safeMode safe quiet => exact .quiet quiet
  | deduped unsafe_off refused quiet => exact .quiet quiet
  | blocked metaUpdate w₁ unsafe_off admitted why started marked =>
    exact .failed admitted started marked
  | failed e stepId metaUpdate w₁ unsafe_off admitted allowed why started marked =>
    exact .failed admitted started marked
  | @created skillName rationale args stepId record w₁ w₂ unsafe_off admitted allowed creatable
      started made marked =>
    have hcount : RuleActionOnce.created key w'.disk.toStores =
        RuleActionOnce.created key w.disk.toStores +
          if actionKey rt t index skillName args rationale = key then 1 else 0 := by
      rw [marked.stores]
      change RuleActionOnce.created key w₂.disk.toStores = _
      rw [made.wrote.stores, created_addCreated, started.stores]
      rfl
    refine ⟨by omega, fun hsame hadmitted => ?_⟩
    have hne : actionKey rt t index skillName args rationale ≠ key := by
      intro hkey
      rw [if_pos hkey] at hcount
      omega
    obtain ⟨r, hstart, hkey, _⟩ := start_appended (t := t) (s := w.toSurroundings) rfl admitted
    obtain ⟨r', hmark, hkey', _⟩ := mark_appended (s := w.toSurroundings)
      (d := w₂.disk.toStores) (actionKey rt t index skillName args rationale) .succeeded
      [("approval_id", .str record.id)] rfl
    rw [marked.stores]
    refine hmark.admitted (fun heq => absurd (hkey'.symm.trans heq) hne) fun _ => ?_
    rw [made.wrote.stores]
    change ExecutionLedger.refused w₁.disk.ledger key = false
    rw [started.stores]
    exact hstart.admitted (fun heq => absurd (hkey.symm.trans heq) hne) fun _ => hadmitted

theorem interrupted_readmits {feed : Feed} {correlationId : String} {rule : Rule} {w w' : World}
    {exc : PyError} (hcase : Interrupted rt engine feed correlationId rule w w' exc) :
    Readmits key w w' := by
  cases hcase with
  | unread why quiet => exact .quiet quiet
  | aborted found r inactive read acted why =>
    exact acted.ran.chain (readmits_chains key) fun _ _ _ _ _ _ => action_readmits

theorem evaluation_readmits {feed : Feed} {correlationId : String} {rule : Rule} {w w' : World}
    {result : RuleRunResult} {state : RuleState}
    (hcase : EvaluationCase rt engine feed correlationId rule w w' result state) :
    Readmits key w w' := by
  cases hcase with
  | cooling notes active quiet => exact .quiet quiet
  | interrupted notes exc w₁ state how quiet same =>
    exact (readmits_chains key).trans (interrupted_readmits how) (.quiet quiet)
  | completed notes found executed w₁ state₁ state inactive read acted quiet same remembered =>
    exact (readmits_chains key).trans
      (acted.ran.chain (readmits_chains key) fun _ _ _ _ _ _ => action_readmits) (.quiet quiet)

theorem evaluateRule_readmits (rt : Runtime) (engine : Engine) (feed : Feed)
    (ctxCorrelationId : Option String) (rule : Rule) (key : String) (w : World) :
    Readmits key w (evaluateRule rt engine feed ctxCorrelationId rule w).2 := by
  obtain ⟨answer, w', hrun, _, correlationId, w₀, _, hquiet, hcase⟩ :=
    evaluateRule_cases rt engine feed rule ctxCorrelationId w
  rw [hrun]
  exact (readmits_chains key).trans (.quiet hquiet) (evaluation_readmits hcase)

theorem evaluate_world (rt : Runtime) (s : System) (engine : Engine) (feed : Feed)
    (ctxCorrelationId : Option String) :
    (apply rt s (.evaluate engine feed ctxCorrelationId)).world =
      (evaluateRule rt engine feed ctxCorrelationId s.rule s.world).2 := by
  rw [apply]
  split <;> rename_i hrun <;> rw [hrun]

theorem requiredScopesForSkill_ne_nil (registry : Registry) (skillName : String) :
    requiredScopesForSkill registry skillName ≠ [] := by
  rw [requiredScopesForSkill]
  split
  · split
    · exact defaultScopesForSkill_ne_nil _ _
    · assumption
  · exact defaultScopesForSkill_ne_nil _ _

theorem approvalScopes_required (skill : Skill) (registry : Registry) (skillName : String) :
    approvalScopes skill (some (requiredScopesForSkill registry skillName)) =
      requiredScopesForSkill registry skillName := by
  obtain ⟨scope, rest, hscopes⟩ :=
    List.exists_cons_of_ne_nil (requiredScopesForSkill_ne_nil registry skillName)
  simp [hscopes, approvalScopes]

/-- `create_pending` makes no record for a skill that the policy in force denies. -/
theorem not_creatable_of_denied {w : World} {step : PlanStep} {skillName scope : String}
    {registry : Registry} (hscope : scope ∈ requiredScopesForSkill registry skillName)
    (h : w.policy.isScopeEnabled scope = false) :
    ¬ Creatable w step registry (some (requiredScopesForSkill registry skillName)) := by
  rintro ⟨⟨⟨skill, scopes⟩, hcheck⟩, _⟩
  obtain ⟨_, _, _, rfl, henabled⟩ := checkPending_ok.mp hcheck
  rw [approvalScopes_required] at henabled
  have hon := henabled scope hscope
  rw [h] at hon
  cases hon

theorem blocked_creates_nothing {t : Turn} {index : Nat} {skillName rationale : String}
    {args : Dict} {w w' : World} {r : Except PyError Bool}
    (hcase : ActionCase rt engine t index w w' (.proposeStep skillName args rationale) r)
    (hblocked : Blocked engine skillName w) :
    created key w'.disk.toStores = created key w.disk.toStores := by
  cases hcase with
  | safeMode safe quiet => rw [quiet.stores_eq]
  | deduped unsafe_off refused quiet => rw [quiet.stores_eq]
  | blocked metaUpdate w₁ unsafe_off admitted why started marked =>
    rw [marked.stores, started.stores, created_failed]
  | failed e stepId metaUpdate w₁ unsafe_off admitted allowed why started marked =>
    rw [marked.stores, started.stores, created_failed]
  | created stepId record w₁ w₂ unsafe_off admitted allowed creatable started made marked =>
    rcases hblocked with hdenied | ⟨scope, hscope, hdenied⟩
    · exact absurd allowed hdenied
    · exact absurd creatable (not_creatable_of_denied hscope hdenied)

end Attempts

def reminderRule : Rule where
  id := "r"
  name := "Remind"
  enabled := true
  createdAtIso := "2026-01-01T00:00:00+00:00"
  updatedAtIso := "2026-01-01T00:00:00+00:00"
  trigger := ⟨.gmail, 5, none, 5, 24⟩
  condition := ⟨none, none⟩
  actions := [.proposeStep "reminders.create" [("text", .str "later")] "because"]
  maxActionsPerRun := 3
  cooldownMinutes := 0
  state := .initial
  lastRunIso := none
  lastMatchIso := none

def unlimited : System :=
  ⟨freshWorld { exampleSurroundings with maxRecords := 0 }, reminderRule⟩

def reminderKey : String :=
  actionKey (exampleRuntime (fun _ => .returned "") fun _ => none)
    ⟨reminderRule, [⟨"m", none, ""⟩], "c", ""⟩ 0 "reminders.create"
    [("text", .str "later")] "because"

def unlistedEngine : Engine :=
  { exampleEngine with permissionsPolicy :=
      { exampleEngine.permissionsPolicy with rulesAllowedScopes := [] } }

end RuleActionOnce
