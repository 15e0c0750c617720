import Benjamin.Effect
import Benjamin.ExecutionLedger
import Benjamin.LedgerKeys
import Benjamin.SkillRegistry

/-!
# The state directory and what surrounds it

The files that the approval, chat and rule paths write, the environment they
read, and a chronological record of the outward actions. Every write of a file
first adds the directory as it was to a journal: a process that dies leaves one of
the journal's entries or the last directory. Reads and writes succeed.
-/
namespace AssistantState

open PyBase ExecutionLedger PlanSchemas SecurityPolicy SkillRegistry Effect

inductive ApprovalStatus where
  | pending | approved | rejected | expired
  deriving DecidableEq, Repr

def ApprovalStatus.str : ApprovalStatus → String
  | .pending => "pending"
  | .approved => "approved"
  | .rejected => "rejected"
  | .expired => "expired"

structure PendingApproval where
  id : String
  createdAtIso : String
  expiresAtIso : String
  status : ApprovalStatus
  requester : Requester
  step : PlanStep
  context : ContextPack
  rationale : String
  result : Option StepResult
  error : Option String
  requiredScopes : List String
  policySnapshot : PolicySnapshot
  policySnapshotAtApprove : Option PolicySnapshot
  deriving DecidableEq, Repr

structure Episode where
  kind : String
  summary : String
  metadata : Dict

/-- The trace events of a task are left out. -/
structure TaskRecord where
  taskId : String
  tsIso : String
  userMessage : String
  plan : Plan
  stepResults : List StepResult
  approvalsCreated : List String
  answer : String
  correlationId : String

/-- Who asked for an approval. A rule asks for an action with a ledger key. -/
inductive Origin where
  | step
  | ruleAction (actionKey : String)
  deriving DecidableEq, Repr

inductive Event where
  | skillRun (skill : Skill) (step : PlanStep) (requester : Requester) (outcome : SkillOutcome)
  | approvalCreated (origin : Origin) (record : PendingApproval)
  | notified (title body ruleId correlationId : String) (failure : Option PyError)
  deriving DecidableEq, Repr

/-- The approval file, the ledger file, the events so far and how many records the
ledger has been given. The last two are not in the source. -/
structure Stores where
  approvals : List PendingApproval
  ledger : LedgerFile
  events : List Event
  ledgerAppends : Nat

structure StateDir extends Stores where
  episodes : List Episode
  tasks : List TaskRecord

/-- `policy` is the value that `PermissionsPolicy()` would have now, `ttlHours` what
`int` makes of its environment variable. -/
structure Surroundings where
  safeMode : Bool
  policy : PermissionsPolicy
  autoclean : Bool
  ttlHours : Except PyError Int
  maxRecords : Int
  now : Int
  correlationId : Option String

structure World extends Surroundings where
  disk : StateDir
  uuids : Nat
  journal : List StateDir

abbrev Py := Prog PyError World

def World.write (w : World) (f : StateDir → StateDir) : World :=
  { w with disk := f w.disk, journal := w.journal ++ [w.disk] }

def World.writeStores (w : World) (f : Stores → Stores) : World :=
  w.write fun d => { d with toStores := f d.toStores }

def onDisk (f : StateDir → StateDir) : Py Unit := Prog.update fun w => w.write f

def onStores (f : Stores → Stores) : Py Unit := Prog.update fun w => w.writeStores f

def Stores.log (d : Stores) (e : Event) : Stores := { d with events := d.events ++ [e] }

/-- `uuid4()`. -/
def drawUuid (rt : Runtime) : Py String := fun w =>
  (.ok (rt.uuid4 w.uuids), { w with uuids := w.uuids + 1 })

/-- `str(requester.get("correlation_id") or correlation_id_var.get() or uuid4())`. -/
def resolveCorrelation (rt : Runtime) (requester : Requester) : Py String := fun w =>
  match truthy (requester.get "correlation_id"), truthy w.correlationId with
  | some c, _ | none, some c => (.ok c, w)
  | none, none => drawUuid rt w

def appendEpisode (kind summary : String) (metadata : Dict) : Py Unit :=
  onDisk fun d => { d with episodes := d.episodes ++ [⟨kind, summary, metadata⟩] }

/-- The stores after `try_start`. -/
def startKey (s : Surroundings) (key : String) (kind : LedgerKind)
    (correlationId : Option String) (metadata : Dict) (d : Stores) : Stores :=
  { d with
    ledger := (tryStart s.maxRecords (isoformat s.now) d.ledger key kind correlationId metadata).2
    ledgerAppends := d.ledgerAppends + if refused d.ledger key then 0 else 1 }

theorem startKey_refused {s : Surroundings} {key : String} {kind : LedgerKind}
    {correlationId : Option String} {metadata : Dict} {d : Stores}
    (h : refused d.ledger key = true) : startKey s key kind correlationId metadata d = d := by
  simp [startKey, tryStart_refused h, h]

def ledgerTryStart (key : String) (kind : LedgerKind) (correlationId : Option String)
    (metadata : Dict) : Py Bool := fun w =>
  (.ok (tryStart w.maxRecords (isoformat w.now) w.disk.ledger key kind correlationId metadata).1,
    w.writeStores (startKey w.toSurroundings key kind correlationId metadata))

/-- The stores after `mark`. -/
def markKey (s : Surroundings) (key : String) (status : LedgerStatus) (metaUpdate : Dict)
    (d : Stores) : Stores :=
  { d with
    ledger := mark s.maxRecords (isoformat s.now) d.ledger key status metaUpdate
    ledgerAppends := d.ledgerAppends + 1 }

def ledgerMark (key : String) (status : LedgerStatus) (metaUpdate : Dict) : Py Unit := fun w =>
  (.ok (), w.writeStores (markKey w.toSurroundings key status metaUpdate))

/-- `skill.run(step.args)`. -/
def runSkill (rt : Runtime) (skill : Skill) (step : PlanStep) (requester : Requester) :
    Py SkillOutcome := fun w =>
  let outcome := rt.skillRun w.disk.events.length
  (.ok outcome, w.writeStores fun d => d.log (.skillRun skill step requester outcome))

/-- `notifier.send(...)`. -/
def send (rt : Runtime) (title body ruleId correlationId : String) : Py Unit := fun w =>
  let failure := rt.notifierSend w.disk.events.length
  (match failure with | none => .ok () | some e => .error e,
    w.writeStores fun d => d.log (.notified title body ruleId correlationId failure))

def strings (xs : List String) : Json := .arr (xs.map .str)

def bounded (values : List String) : List String :=
  if values.length ≤ 64 then values
  else values.take 64 ++ ["...(+" ++ toString (values.length - 64) ++ " more)"]

/-- `sorted(list)`, duplicates kept. -/
def sortedList (xs : List String) : List String :=
  xs.foldr (fun s acc => acc.takeWhile (· < s) ++ s :: acc.dropWhile (· < s)) []

def logPolicyEvent (correlationId source decision skillName : String)
    (requiredScopes : List String) (snapshot : PolicySnapshot) (reason : String)
    (extraMeta : Dict) : Py Unit :=
  appendEpisode "policy" ("Policy " ++ decision ++ " for " ++ skillName) <|
    Dict.update
      [("correlation_id", .str correlationId), ("source", .str source), ("decision", .str decision),
        ("required_scopes", strings (sortedList requiredScopes)),
        ("enabled_scopes", strings (bounded snapshot.scopesEnabled)),
        ("rules_allowed_scopes", strings (bounded snapshot.rulesAllowedScopes)),
        ("skill_name", .str skillName), ("reason", .str reason)] extraMeta

/-- The stores end as `f` makes them, with no third state in between, and no
program changes its surroundings. -/
structure Wrote (f : Stores → Stores) (w w' : World) : Prop where
  surroundings : w'.toSurroundings = w.toSurroundings
  uuids : w.uuids ≤ w'.uuids
  stores : w'.disk.toStores = f w.disk.toStores
  journal : ∃ more, w'.journal = w.journal ++ more ∧
    ∀ d ∈ more, d.toStores = w.disk.toStores ∨ d.toStores = f w.disk.toStores

abbrev Quiet : World → World → Prop := Wrote id

theorem Quiet.stores_eq {w w' : World} (h : Quiet w w') : w'.disk.toStores = w.disk.toStores :=
  h.stores

theorem Quiet.approvals_eq {w w' : World} (h : Quiet w w') :
    w'.disk.approvals = w.disk.approvals := congrArg Stores.approvals h.stores_eq

theorem Quiet.events_eq {w w' : World} (h : Quiet w w') : w'.disk.events = w.disk.events :=
  congrArg Stores.events h.stores_eq

theorem Quiet.ledger_eq {w w' : World} (h : Quiet w w') : w'.disk.ledger = w.disk.ledger :=
  congrArg Stores.ledger h.stores_eq

theorem Quiet.refl (w : World) : Quiet w w := ⟨rfl, le_refl _, rfl, [], by simp, by simp⟩

theorem Wrote.safeMode_eq {f : Stores → Stores} {w w' : World} (h : Wrote f w w') :
    w'.safeMode = w.safeMode := congrArg Surroundings.safeMode h.surroundings

theorem Wrote.autoclean_eq {f : Stores → Stores} {w w' : World} (h : Wrote f w w') :
    w'.autoclean = w.autoclean := congrArg Surroundings.autoclean h.surroundings

theorem Wrote.after_quiet {f : Stores → Stores} {w w₁ w₂ : World} (h : Quiet w w₁)
    (h' : Wrote f w₁ w₂) : Wrote f w w₂ := by
  obtain ⟨more, hmore, hall⟩ := h.journal
  obtain ⟨more', hmore', hall'⟩ := h'.journal
  refine ⟨h'.surroundings.trans h.surroundings, h.uuids.trans h'.uuids, ?_,
    more ++ more', ?_, ?_⟩
  · rw [h'.stores, h.stores_eq]
  · rw [hmore', hmore, List.append_assoc]
  · intro d hd
    rcases List.mem_append.mp hd with hd | hd
    · exact Or.inl ((hall d hd).elim id id)
    · rw [← h.stores_eq]
      exact hall' d hd

theorem Wrote.then_quiet {f : Stores → Stores} {w w₁ w₂ : World} (h : Wrote f w w₁)
    (h' : Quiet w₁ w₂) : Wrote f w w₂ := by
  obtain ⟨more, hmore, hall⟩ := h.journal
  obtain ⟨more', hmore', hall'⟩ := h'.journal
  refine ⟨h'.surroundings.trans h.surroundings, h.uuids.trans h'.uuids, ?_,
    more ++ more', ?_, ?_⟩
  · rw [h'.stores_eq, h.stores]
  · rw [hmore', hmore, List.append_assoc]
  · intro d hd
    rcases List.mem_append.mp hd with hd | hd
    · exact hall d hd
    · have hd' : d.toStores = w₁.disk.toStores := (hall' d hd).elim id id
      exact Or.inr (hd'.trans h.stores)

theorem Wrote.congr {f g : Stores → Stores} {w w' : World} (h : Wrote f w w')
    (hfg : f w.disk.toStores = g w.disk.toStores) : Wrote g w w' :=
  ⟨h.surroundings, h.uuids, h.stores.trans hfg, hfg ▸ h.journal⟩

theorem quiet_chains : Chains Quiet := ⟨Quiet.refl, fun h h' => Wrote.after_quiet h h'⟩

theorem wrote_writeStores (f : Stores → Stores) (w : World) : Wrote f w (w.writeStores f) :=
  ⟨rfl, le_refl _, rfl, [w.disk], rfl, fun d hd => by simp_all⟩

theorem drawUuid_returns (rt : Runtime) (w : World) :
    Returns (drawUuid rt) w fun id w' =>
      id = rt.uuid4 w.uuids ∧ w'.uuids = w.uuids + 1 ∧ Quiet w w' :=
  ⟨_, _, rfl, rfl, rfl, rfl, Nat.le_succ _, rfl, [], by simp, by simp⟩

theorem resolveCorrelation_returns (rt : Runtime) (requester : Requester) (w : World) :
    Returns (resolveCorrelation rt requester) w fun correlationId w' =>
      (∃ other, correlationId = (truthy (requester.get "correlation_id")).getD other) ∧
        Quiet w w' := by
  rw [Returns, resolveCorrelation]
  cases howner : truthy (requester.get "correlation_id") with
  | some own => exact ⟨_, _, rfl, ⟨own, rfl⟩, Quiet.refl w⟩
  | none =>
    cases hcurrent : truthy w.correlationId with
    | some current => exact ⟨_, _, rfl, ⟨current, rfl⟩, Quiet.refl w⟩
    | none =>
      obtain ⟨id, w', hrun, _, _, hquiet⟩ := drawUuid_returns rt w
      exact ⟨id, w', hrun, ⟨id, rfl⟩, hquiet⟩

theorem appendEpisode_returns (kind summary : String) (metadata : Dict) (w : World) :
    Returns (appendEpisode kind summary metadata) w fun _ w' => Quiet w w' :=
  ⟨_, _, rfl, rfl, le_refl _, rfl, [w.disk], rfl, fun d hd => Or.inl (by simp_all)⟩

theorem logPolicyEvent_returns (correlationId source decision skillName : String)
    (requiredScopes : List String) (snapshot : PolicySnapshot) (reason : String)
    (extraMeta : Dict) (w : World) :
    Returns (logPolicyEvent correlationId source decision skillName requiredScopes snapshot reason
      extraMeta) w fun _ w' => Quiet w w' :=
  appendEpisode_returns _ _ _ w

theorem onStores_returns (f : Stores → Stores) (w : World) :
    Returns (onStores f) w fun _ w' => Wrote f w w' :=
  ⟨_, _, rfl, wrote_writeStores f w⟩

theorem ledgerTryStart_returns (key : String) (kind : LedgerKind) (correlationId : Option String)
    (metadata : Dict) (w : World) :
    Returns (ledgerTryStart key kind correlationId metadata) w fun started w' =>
      started = (!refused w.disk.ledger key) ∧
        Wrote (startKey w.toSurroundings key kind correlationId metadata) w w' :=
  ⟨_, _, rfl, tryStart_result, wrote_writeStores _ w⟩

theorem ledgerMark_returns (key : String) (status : LedgerStatus) (metaUpdate : Dict) (w : World) :
    Returns (ledgerMark key status metaUpdate) w fun _ w' =>
      Wrote (markKey w.toSurroundings key status metaUpdate) w w' :=
  ⟨_, _, rfl, wrote_writeStores _ w⟩

theorem runSkill_returns (rt : Runtime) (skill : Skill) (step : PlanStep) (requester : Requester)
    (w : World) :
    Returns (runSkill rt skill step requester) w fun outcome w' =>
      Wrote (fun d => d.log (.skillRun skill step requester outcome)) w w' :=
  ⟨_, _, rfl, wrote_writeStores _ w⟩

/-- The stores had the property in every directory a crash could have left, and have it now. -/
def Throughout (P : Stores → Prop) (w : World) : Prop :=
  P w.disk.toStores ∧ ∀ d ∈ w.journal, P d.toStores

theorem Throughout.wrote {P : Stores → Prop} {f : Stores → Stores} {w w' : World}
    (hw : Throughout P w) (h : Wrote f w w') (hf : P (f w.disk.toStores)) : Throughout P w' := by
  obtain ⟨more, hmore, hall⟩ := h.journal
  refine ⟨h.stores ▸ hf, ?_⟩
  intro d hd
  rw [hmore] at hd
  rcases List.mem_append.mp hd with hd | hd
  · exact hw.2 d hd
  · rcases hall d hd with heq | heq <;> rw [heq]
    · exact hw.1
    · exact hf

/-- Identifiers are numerals, no text is JSON, and one date parses: the expiry of an
approval created at the epoch. -/
def exampleRuntime (skillRun : Nat → SkillOutcome) (notifierSend : Nat → Option PyError) :
    Runtime where
  uuid4 n := toString n
  sha256 s := s
  loads _ := none
  str _ := ""
  casefold s := s
  fromisoformat s :=
    if s = "1970-01-04T00:00:00+00:00" then some (.aware 259200000000) else none
  skillRun := skillRun
  notifierSend := notifierSend

theorem exampleRuntime_uuid4_injective (skillRun : Nat → SkillOutcome)
    (notifierSend : Nat → Option PyError) :
    Function.Injective (exampleRuntime skillRun notifierSend).uuid4 :=
  fun _ _ h => LedgerKeys.toString_inj h

def exampleSurroundings : Surroundings where
  safeMode := false
  policy := ⟨.default, ["reminders.write"], ["reminders.write"], true⟩
  autoclean := true
  ttlHours := .ok 72
  maxRecords := 5000
  now := 0
  correlationId := none

def freshWorld (s : Surroundings) : World :=
  { s with disk := ⟨⟨[], [], [], 0⟩, [], []⟩, uuids := 0, journal := [] }

def reminderSkill : Skill := ⟨"reminders.create", "write", ["reminders.write"]⟩

def exampleRegistry : Registry := Registry.empty.register reminderSkill

def reminderStep : PlanStep := ⟨"s", "Remind", some "reminders.create", "later", true⟩

end AssistantState
