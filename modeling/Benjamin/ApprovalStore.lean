import Benjamin.AssistantState

/-!
# The approval store and new approvals

`approvals.jsonl` as the list of its valid records, and `create_pending`, the only
place that adds one. Its checks come first and change nothing.
-/
namespace ApprovalStore

open PyBase PlanSchemas SecurityPolicy SkillRegistry AssistantState Effect

abbrev get (records : List PendingApproval) (id : String) : Option PendingApproval :=
  KeyedList.get PendingApproval.id records id

abbrev upsert (record : PendingApproval) (records : List PendingApproval) : List PendingApproval :=
  KeyedList.upsert PendingApproval.id record records

abbrev delete (id : String) (records : List PendingApproval) : List PendingApproval :=
  KeyedList.delete PendingApproval.id id records

/-- `datetime.fromisoformat(expires_at_iso) <= now`. -/
def isExpired (rt : Runtime) (now : Int) (record : PendingApproval) : Except PyError Bool :=
  match rt.fromisoformat record.expiresAtIso with
  | some t => t.le (.aware now)
  | none => .error (.valueError ("Invalid isoformat string: '" ++ record.expiresAtIso ++ "'"))

/-- Whether `cleanup_expired` counts the record; the date is parsed for pending ones only. -/
def staleRecord (rt : Runtime) (now : Int) (record : PendingApproval) : Except PyError Bool :=
  if record.status = .pending then isExpired rt now record else .ok false

/-- What `cleanup_expired` keeps of a stale record. -/
def cleaned (autoclean : Bool) (record : PendingApproval) : Option PendingApproval :=
  if autoclean then none else some { record with status := .expired }

def cleanupRecords (rt : Runtime) (autoclean : Bool) (now : Int) :
    List PendingApproval → Except PyError (Nat × List PendingApproval)
  | [] => .ok (0, [])
  | record :: rest =>
    match staleRecord rt now record with
    | .error e => .error e
    | .ok stale =>
      match cleanupRecords rt autoclean now rest with
      | .error e => .error e
      | .ok (changed, rewritten) =>
        if stale then .ok (changed + 1, (cleaned autoclean record).toList ++ rewritten)
        else .ok (changed, record :: rewritten)

/-- `cleanup_expired`: nothing is written when no record is stale. -/
def cleanupExpired (rt : Runtime) : Py Nat := fun w =>
  match cleanupRecords rt w.autoclean w.now w.disk.approvals with
  | .error e => (.error e, w)
  | .ok (0, _) => (.ok 0, w)
  | .ok (changed, rewritten) =>
    (.ok changed, w.writeStores fun d => { d with approvals := rewritten })

/-- `list(required_scopes or skill.required_scopes or [])`, or the defaults. -/
def approvalScopes (skill : Skill) (requiredScopes : Option (List String)) : List String :=
  let scopes := match requiredScopes with
    | some (s :: rest) => s :: rest
    | _ => skill.requiredScopes
  if scopes = [] then defaultScopesForSkill skill.name skill.sideEffect else scopes

/-- The checks of `create_pending`: the skill and the scopes of the new record. -/
def checkPending (w : World) (step : PlanStep) (registry : Registry)
    (requiredScopes : Option (List String)) : Except PyError (Skill × List String) :=
  match truthy step.skillName with
  | none => .error (.valueError "approval requires a skill step")
  | some skillName =>
    if w.safeMode then .error (.valueError "safe_mode_denied")
    else
      match registry.get skillName with
      | .error e => .error e
      | .ok skill =>
        if skill.sideEffect ≠ "write" then
          .error (.valueError "approval can only be created for write skills")
        else
          let scopes := approvalScopes skill requiredScopes
          let (scopesOk, disabled) := w.policy.checkScopes scopes
          if scopesOk then .ok (skill, scopes)
          else .error (.valueError ("policy_denied:" ++ ",".intercalate disabled))

/-- `origin` is not in the source: it tells the events of this record apart. -/
def createPending (rt : Runtime) (origin : Origin) (step : PlanStep) (ctx : ContextPack)
    (requester : Requester) (rationale : String) (registry : Registry)
    (requiredScopes : Option (List String)) : Py PendingApproval := do
  let (_, scopes) ← Prog.ask fun w => checkPending w step registry requiredScopes
  let activePolicy ← Prog.read fun w : World => w.policy
  let createdAt ← Prog.read fun w : World => w.now
  let ttlHours ← Prog.ask fun w : World => w.ttlHours
  let correlationId ← resolveCorrelation rt requester
  let id ← drawUuid rt
  let expiresAt ← Prog.ofExcept (addHours createdAt ttlHours)
  let record : PendingApproval :=
    { id
      createdAtIso := isoformat createdAt
      expiresAtIso := isoformat expiresAt
      status := .pending
      requester := requester.setdefault "correlation_id" correlationId
      step
      context := ctx
      rationale
      result := none
      error := none
      requiredScopes := scopes
      policySnapshot := activePolicy.snapshotModel
      policySnapshotAtApprove := none }
  onStores fun d =>
    { d with approvals := upsert record d.approvals }.log (.approvalCreated origin record)
  pure record

theorem approvalScopes_registered {registry : Registry} {name : String} {skill : Skill}
    (h : registry.get name = .ok skill) :
    approvalScopes skill (some skill.requiredScopes) = skill.requiredScopes := by
  obtain ⟨_, _, hne⟩ := get_registered h
  unfold approvalScopes
  cases hs : skill.requiredScopes with
  | nil => exact absurd hs hne
  | cons s rest => simp

theorem checkPending_ok {w : World} {step : PlanStep} {registry : Registry}
    {requiredScopes : Option (List String)} {skill : Skill} {scopes : List String} :
    checkPending w step registry requiredScopes = .ok (skill, scopes) ↔
      (∃ name, truthy step.skillName = some name ∧ registry.get name = .ok skill) ∧
        w.safeMode = false ∧ skill.IsWrite ∧ scopes = approvalScopes skill requiredScopes ∧
        ∀ scope ∈ scopes, w.policy.isScopeEnabled scope = true := by
  constructor
  · intro h
    rw [checkPending] at h
    split at h
    · cases h
    · rename_i name hname
      split at h
      · cases h
      · rename_i hsafe
        split at h
        · cases h
        · rename_i found hget
          split at h
          · cases h
          · rename_i hwrite
            dsimp only at h
            split at h
            · rename_i hscopes
              cases h
              exact ⟨⟨name, hname, hget⟩, by simpa using hsafe, not_not.mp hwrite, rfl,
                PermissionsPolicy.checkScopes_iff.mp hscopes⟩
            · cases h
  · rintro ⟨⟨name, hname, hget⟩, hsafe, hwrite, rfl, hall⟩
    have hscopes := PermissionsPolicy.checkScopes_iff.mpr hall
    have hside : skill.sideEffect = "write" := hwrite
    simp [checkPending, hname, hsafe, hget, hside, hscopes]

def addCreated (origin : Origin) (record : PendingApproval) (d : Stores) : Stores :=
  { d with approvals := upsert record d.approvals }.log (.approvalCreated origin record)

structure Created (rt : Runtime) (origin : Origin) (step : PlanStep) (rationale : String)
    (registry : Registry) (requiredScopes : Option (List String)) (w w' : World)
    (record : PendingApproval) : Prop where
  checked : ∃ skill, checkPending w step registry requiredScopes =
    .ok (skill, record.requiredScopes)
  fresh : ∃ n, w.uuids ≤ n ∧ n < w'.uuids ∧ record.id = rt.uuid4 n
  pending : record.status = .pending
  unresolved : record.result = none
  step_eq : record.step = step
  rationale_eq : record.rationale = rationale
  wrote : Wrote (addCreated origin record) w w'

/-- The checks of `create_pending` pass and the expiry date is representable. -/
def Creatable (w : World) (step : PlanStep) (registry : Registry)
    (requiredScopes : Option (List String)) : Prop :=
  (∃ checked, checkPending w step registry requiredScopes = .ok checked) ∧
    ∃ ttlHours expiresAt, w.ttlHours = .ok ttlHours ∧ addHours w.now ttlHours = .ok expiresAt

theorem creatable_congr {w w' : World} (h : w'.toSurroundings = w.toSurroundings)
    (step : PlanStep) (registry : Registry) (scopes : Option (List String)) :
    Creatable w' step registry scopes ↔ Creatable w step registry scopes := by
  simp only [Creatable, checkPending, h]

theorem createPending_ends (rt : Runtime) (origin : Origin) (step : PlanStep) (ctx : ContextPack)
    (requester : Requester) (rationale : String) (registry : Registry)
    (requiredScopes : Option (List String)) (w : World) :
    Ends (createPending rt origin step ctx requester rationale registry requiredScopes) w
      fun r w' => match r with
        | .ok record => Creatable w step registry requiredScopes ∧
            Created rt origin step rationale registry requiredScopes w w' record
        | .error _ => ¬ Creatable w step registry requiredScopes ∧ Quiet w w' := by
  rw [createPending]
  refine Ends.ask ?_ ?_
  · rintro ⟨skill, scopes⟩ hcheck
    refine Ends.read (Ends.read (Ends.ask ?_ ?_))
    · intro ttlHours httl
      refine (resolveCorrelation_returns rt requester w).bind fun correlationId w₁ ⟨_, hquiet⟩ => ?_
      refine (drawUuid_returns rt w₁).bind fun id w₂ ⟨hid, hcount, hquiet₂⟩ => ?_
      have hquiet' : Quiet w w₂ := quiet_chains.trans hquiet hquiet₂
      refine Ends.ofExcept ?_ ?_
      · intro expiresAt hadd
        refine (onStores_returns _ w₂).bind fun _ w₃ hwrote => ?_
        refine ⟨⟨⟨_, hcheck⟩, ttlHours, expiresAt, httl, hadd⟩, ?_⟩
        exact
          { checked := ⟨skill, hcheck⟩
            fresh := ⟨w₁.uuids, hquiet.uuids,
              (by omega : w₁.uuids < w₂.uuids).trans_le hwrote.uuids, hid⟩
            pending := rfl
            unresolved := rfl
            step_eq := rfl
            rationale_eq := rfl
            wrote := Wrote.after_quiet hquiet' hwrote }
      · intro e hadd
        refine ⟨?_, hquiet'⟩
        rintro ⟨_, hours, _, hok, hok'⟩
        cases httl.symm.trans hok
        cases hadd.symm.trans hok'
    · intro e httl
      refine ⟨?_, Quiet.refl w⟩
      rintro ⟨_, hours, _, hok, _⟩
      cases httl.symm.trans hok
  · intro e hcheck
    refine ⟨?_, Quiet.refl w⟩
    rintro ⟨⟨checked, hok⟩, _⟩
    cases hcheck.symm.trans hok

end ApprovalStore
