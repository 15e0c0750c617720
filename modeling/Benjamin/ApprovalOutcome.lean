import Benjamin.ApprovalService
import Benjamin.SerialRun

/-!
# Reported success

Serial calls of the approval service from empty stores. A call of `approve` reports
success when it returns or stores an approved record with an `ok` result. Two of
the paths that do so look at no earlier result; the run lemma says when their
answer is right all the same.
-/
namespace ApprovalOutcome

open PyBase ExecutionLedger PlanSchemas SkillRegistry AssistantState ApprovalStore PlanExecutor
  ApprovalService LedgerKeys Effect

/-- The calls of the service; between two calls the surroundings may change at will. -/
inductive Call where
  | createPending (step : PlanStep) (ctx : ContextPack) (requester : Requester)
      (rationale : String) (registry : Registry) (requiredScopes : Option (List String))
  | approve (id : String) (approverNote : Option String) (registry : Registry)
  | reject (id : String) (reason : Option String)
  | cleanupExpired
  | setSurroundings (s : Surroundings)

def apply (rt : Runtime) (w : World) : Call → World
  | .createPending step ctx requester rationale registry requiredScopes =>
    (createPending rt .step step ctx requester rationale registry requiredScopes w).2
  | .approve id approverNote registry => (approve rt id approverNote registry w).2
  | .reject id reason => (reject rt id reason w).2
  | .cleanupExpired => (cleanupExpired rt w).2
  | .setSurroundings s => { w with toSurroundings := s }

/-- A `run` of the step for the approval that returned. -/
def SucceededFor (id : String) (step : PlanStep) : Event → Prop
  | .skillRun _ ran requester (.returned _) =>
    ran = step ∧ requester.get "approval_id" = some id
  | _ => False

instance (id : String) (step : PlanStep) (e : Event) : Decidable (SucceededFor id step e) := by
  unfold SucceededFor; split <;> infer_instance

def Genuine (d : Stores) (id : String) (step : PlanStep) : Prop :=
  ∃ e ∈ d.events, SucceededFor id step e

instance (d : Stores) (id : String) (step : PlanStep) : Decidable (Genuine d id step) :=
  inferInstanceAs (Decidable (∃ e ∈ d.events, _))

def IssuedAs (id : String) (step : PlanStep) : Event → Prop
  | .approvalCreated _ record => record.id = id ∧ record.step = step
  | _ => False

def Issued (d : Stores) (id : String) (step : PlanStep) : Prop := ∃ e ∈ d.events, IssuedAs id step e

def ReportsSuccess (record : PendingApproval) : Prop :=
  record.status = .approved ∧ ∃ result, record.result = some result ∧ result.ok = true

structure Sound (rt : Runtime) (uuids : Nat) (d : Stores) : Prop where
  issued : ∀ r ∈ d.approvals, Issued d r.id r.step
  drawn : ∀ id step, Issued d id step → ∃ n < uuids, id = rt.uuid4 n
  one_step : ∀ id step step', Issued d id step → Issued d id step' → step = step'
  named : ∀ id step, Issued d id step → truthy step.skillName ≠ none
  keys : ∀ l ∈ readAllRecords d.ledger, ∃ id step, Issued d id step ∧
    l.key = approvalExecutionKey rt id step ∧ (l.status = .succeeded → Genuine d id step)
  results : ∀ r ∈ d.approvals, ReportsSuccess r → Genuine d r.id r.step

theorem Genuine.log {d : Stores} {id : String} {step : PlanStep} (h : Genuine d id step)
    (e : Event) : Genuine (d.log e) id step := by
  obtain ⟨e', he', h'⟩ := h
  exact ⟨e', List.mem_append_left _ he', h'⟩

theorem issued_log {d : Stores} {id : String} {step : PlanStep} {e : Event} :
    Issued (d.log e) id step ↔ Issued d id step ∨ IssuedAs id step e := by
  simp [Issued, Stores.log, or_and_right, exists_or]

section Steps

variable {rt : Runtime} {uuids : Nat} {d : Stores}

theorem sound_initial : Sound rt uuids ⟨[], [], [], 0⟩ := by
  constructor <;> simp [Issued, readAllRecords]

theorem Sound.more_uuids {uuids' : Nat} (h : Sound rt uuids d) (hle : uuids ≤ uuids') :
    Sound rt uuids' d := by
  refine { h with drawn := ?_ }
  intro id step hi
  obtain ⟨n, hn, hid⟩ := h.drawn id step hi
  exact ⟨n, hn.trans_le hle, hid⟩

theorem Sound.with_approvals (h : Sound rt uuids d) {records : List PendingApproval}
    (hr : ∀ r ∈ records, Issued d r.id r.step ∧ (ReportsSuccess r → Genuine d r.id r.step)) :
    Sound rt uuids { d with approvals := records } :=
  { h with
    issued := fun r hmem => (hr r hmem).1
    results := fun r hmem => (hr r hmem).2 }

theorem Sound.with_ledger (h : Sound rt uuids d) {f : LedgerFile} {id : String} {step : PlanStep}
    (appends : Nat)
    (hissued : Issued d id step)
    (hf : ∀ l ∈ readAllRecords f, l ∈ readAllRecords d.ledger ∨
      l.key = approvalExecutionKey rt id step ∧ (l.status = .succeeded → Genuine d id step)) :
    Sound rt uuids { d with ledger := f, ledgerAppends := appends } := by
  refine { h with keys := ?_ }
  intro l hl
  rcases hf l hl with hold | ⟨hkey, hg⟩
  · exact h.keys l hold
  · exact ⟨id, step, hissued, hkey, hg⟩

theorem Sound.log_run (h : Sound rt uuids d) (skill : Skill) (step : PlanStep)
    (requester : Requester) (outcome : SkillOutcome) :
    Sound rt uuids (d.log (.skillRun skill step requester outcome)) := by
  have hiff : ∀ id s, Issued (d.log (.skillRun skill step requester outcome)) id s ↔
      Issued d id s := by
    intro id s
    rw [issued_log]
    exact or_iff_left (fun h => h)
  constructor
  · intro r hr
    exact (hiff _ _).mpr (h.issued r hr)
  · intro id s hi
    exact h.drawn id s ((hiff _ _).mp hi)
  · intro id s s' hi hi'
    exact h.one_step id s s' ((hiff _ _).mp hi) ((hiff _ _).mp hi')
  · intro id s hi
    exact h.named id s ((hiff _ _).mp hi)
  · intro l hl
    obtain ⟨id, s, hi, hkey, hg⟩ := h.keys l hl
    exact ⟨id, s, (hiff _ _).mpr hi, hkey, fun hl => (hg hl).log _⟩
  · intro r hr hs
    exact (h.results r hr hs).log _

theorem Sound.addCreated (huuid : Function.Injective rt.uuid4) (h : Sound rt uuids d)
    {uuids' n : Nat} {origin : Origin} {record : PendingApproval} (hn : uuids ≤ n)
    (hn' : n < uuids') (hid : record.id = rt.uuid4 n) (hpending : record.status = .pending)
    (hnamed : truthy record.step.skillName ≠ none) :
    Sound rt uuids' (addCreated origin record d) := by
  have hiff : ∀ {id step}, Issued (ApprovalStore.addCreated origin record d) id step ↔
      Issued d id step ∨ record.id = id ∧ record.step = step := issued_log
  have hnew : ∀ {step}, ¬ Issued d record.id step := by
    intro step hi
    obtain ⟨m, hm, heq⟩ := h.drawn _ _ hi
    have := huuid (hid.symm.trans heq)
    omega
  constructor
  · intro r hr
    rcases KeyedList.mem_upsert hr with rfl | hr
    · exact hiff.mpr (Or.inr ⟨rfl, rfl⟩)
    · exact hiff.mpr (Or.inl (h.issued r hr))
  · intro id step hi
    rcases hiff.mp hi with hi | ⟨rfl, _⟩
    · obtain ⟨m, hm, heq⟩ := h.drawn id step hi
      exact ⟨m, by omega, heq⟩
    · exact ⟨n, hn', hid⟩
  · intro id step step' hi hi'
    rcases hiff.mp hi with hi | ⟨rfl, rfl⟩ <;> rcases hiff.mp hi' with hi' | ⟨heq, rfl⟩
    · exact h.one_step id step step' hi hi'
    · exact absurd (heq ▸ hi) hnew
    · exact absurd hi' hnew
    · rfl
  · intro id step hi
    rcases hiff.mp hi with hi | ⟨_, rfl⟩
    · exact h.named id step hi
    · exact hnamed
  · intro l hl
    obtain ⟨id, step, hi, hkey, hg⟩ := h.keys l hl
    exact ⟨id, step, hiff.mpr (Or.inl hi), hkey, fun hs => (hg hs).log _⟩
  · intro r hr hs
    rcases KeyedList.mem_upsert hr with rfl | hr
    · simp [ReportsSuccess, hpending] at hs
    · exact (h.results r hr hs).log _

theorem Sound.persisted (h : Sound rt uuids d) (autoclean : Bool) {record : PendingApproval}
    (hissued : Issued d record.id record.step)
    (hgenuine : ReportsSuccess record → Genuine d record.id record.step) :
    Sound rt uuids (persisted autoclean record d) := by
  refine h.with_approvals fun r hr => ?_
  split at hr
  · have hmem : r ∈ d.approvals := List.mem_of_mem_filter hr
    exact ⟨h.issued r hmem, h.results r hmem⟩
  · rcases KeyedList.mem_upsert hr with rfl | hmem
    · exact ⟨hissued, hgenuine⟩
    · exact ⟨h.issued r hmem, h.results r hmem⟩

theorem Sound.startKey (h : Sound rt uuids d) (s : Surroundings) {id : String} {step : PlanStep}
    (hissued : Issued d id step) (kind : LedgerKind) (correlationId : Option String)
    (metadata : Dict) :
    Sound rt uuids
      (startKey s (approvalExecutionKey rt id step) kind correlationId metadata d) := by
  refine h.with_ledger _ hissued fun l hl => (mem_tryStart hl).imp_right ?_
  rintro rfl
  exact ⟨rfl, fun hs => by cases hs⟩

theorem Sound.markKey (h : Sound rt uuids d) (s : Surroundings) {id : String} {step : PlanStep}
    (hissued : Issued d id step) {status : LedgerStatus} (metaUpdate : Dict)
    (hgenuine : status = .succeeded → Genuine d id step) :
    Sound rt uuids (markKey s (approvalExecutionKey rt id step) status metaUpdate d) := by
  refine h.with_ledger _ hissued fun l hl => (mem_mark hl).imp_right ?_
  rintro rfl
  exact ⟨markedRecord_key .., fun hs => hgenuine (by rwa [markedRecord_status] at hs)⟩

theorem Sound.cleaned (h : Sound rt uuids d) (autoclean : Bool) (now : Int) :
    Sound rt uuids
      { d with approvals := d.approvals.filterMap (afterCleanup rt autoclean now) } := by
  refine h.with_approvals fun r hr => ?_
  obtain ⟨old, hold, hclean⟩ := List.mem_filterMap.mp hr
  rcases afterCleanup_cases hclean with rfl | rfl
  · exact ⟨h.issued r hold, h.results r hold⟩
  · exact ⟨h.issued old hold, fun hs => by cases hs.1⟩

end Steps

def SoundWorld (rt : Runtime) (w : World) : Prop := Sound rt w.uuids w.disk.toStores

theorem soundWorld_of_became {rt : Runtime} {f : Stores → Stores} {w w' : World}
    (h : Became f w w') (hf : Sound rt w.uuids (f w.disk.toStores)) : SoundWorld rt w' := by
  rw [SoundWorld, h.stores]
  exact hf.more_uuids h.uuids

/-- The call of `approve` does not answer for a run that did not succeed: a stored
approved record has an `ok` result, and an execution that the ledger refuses to
repeat has succeeded. -/
def Replayable (rt : Runtime) (w : World) : Call → Prop
  | .approve id _ _ => ∀ record, get w.disk.approvals id = some record →
      (record.status = .approved → ReportsSuccess record) ∧
      (Passed rt w id record → refused w.disk.ledger (executionKey rt record) = true →
        hasSucceeded w.disk.ledger (executionKey rt record) = true)
  | _ => True

section Calls

variable {rt : Runtime} {w : World}

/-- A succeeded key is that of the record's own step. -/
theorem Sound.genuine_of_succeeded (h : SoundWorld rt w) (hash : Function.Injective rt.sha256)
    (hbar : ∀ n, BarFree (rt.uuid4 n)) {record : PendingApproval}
    (hissued : Issued w.disk.toStores record.id record.step)
    (hs : hasSucceeded w.disk.ledger (executionKey rt record) = true) :
    Genuine w.disk.toStores record.id record.step := by
  obtain ⟨l, hl, hkey, hstatus⟩ := hasSucceeded_mem hs
  obtain ⟨id, step, hi, hkey', hg⟩ := h.keys l hl
  obtain ⟨n, _, hid⟩ := h.drawn id step hi
  obtain ⟨m, _, hid'⟩ := h.drawn record.id record.step hissued
  have heq : record.id = id :=
    approvalExecutionKey_inj hash (hid' ▸ hbar m) (hid ▸ hbar n) (hkey.symm.trans hkey')
  subst heq
  rw [h.one_step record.id record.step step hissued hi]
  exact hg hstatus

/-- The forced execution of a step leaves an `ok` result only after a run that returned. -/
theorem execution_sound (h : SoundWorld rt w) {record : PendingApproval}
    (hissued : Issued w.disk.toStores record.id record.step) {registry : Registry}
    {approverNote : Option String} {correlationId : String} {result : StepResult} {w' : World}
    (hcase : StepCase rt registry (executionRequester record approverNote correlationId) true
      record.step w w' (.ok result)) :
    SoundWorld rt w' ∧ Issued w'.disk.toStores record.id record.step ∧
      (result.ok = true → Genuine w'.disk.toStores record.id record.step) := by
  cases hcase with
  | described unnamed quiet => exact absurd unnamed (h.named _ _ hissued)
  | denied error why quiet =>
    refine ⟨soundWorld_of_became (became_id quiet) h, ?_, fun hok => by cases hok⟩
    rw [quiet.stores_eq]
    exact hissued
  | proposed skill rationale new unforced cleared created => cases unforced
  | ran skill outcome cleared write wrote =>
    refine ⟨soundWorld_of_became (.of_wrote wrote) (Sound.log_run h ..), ?_, ?_⟩
    · rw [wrote.stores]
      exact issued_log.mpr (Or.inl hissued)
    · intro hok
      rw [wrote.stores]
      refine ⟨_, List.mem_append_right _ List.mem_cons_self, ?_⟩
      cases outcome with
      | returned content => exact ⟨rfl, rfl⟩
      | raised e => cases hok

theorem approve_sound (h : SoundWorld rt w) (hash : Function.Injective rt.sha256)
    (hbar : ∀ n, BarFree (rt.uuid4 n)) {id : String} {approverNote : Option String}
    {registry : Registry} {w' : World} {r : Except PyError PendingApproval}
    (hc : Replayable rt w (.approve id approverNote registry))
    (hcase : ApproveCase rt approverNote registry id w w' r) :
    SoundWorld rt w' ∧ ∀ record, r = .ok record → ReportsSuccess record →
      Genuine w'.disk.toStores id record.step := by
  cases hcase with
  | declined e why quiet =>
    exact ⟨soundWorld_of_became (became_id quiet) h, fun record hr => by cases hr⟩
  | duplicate record stored approved quiet =>
    refine ⟨soundWorld_of_became (became_id quiet) h, ?_⟩
    rintro _ ⟨rfl⟩ _
    have hid : record.id = id := KeyedList.get_key stored
    rw [quiet.stores_eq, ← hid]
    exact h.results record (KeyedList.get_mem stored) ((hc record stored).1 approved)
  | closed record record' e stored pending same status why became =>
    refine ⟨soundWorld_of_became became (Sound.persisted h _ ?_ ?_), fun _ hr => by cases hr⟩
    · rw [same.1, same.2]
      exact h.issued record (KeyedList.get_mem stored)
    · rintro ⟨happroved, _⟩
      rcases status with hs | hs <;> rw [hs] at happroved <;> cases happroved
  | skipped record correlationId passed correlated refused became =>
    have hissued := h.issued record (KeyedList.get_mem passed.stored)
    have hg := Sound.genuine_of_succeeded h hash hbar hissued
      ((hc record passed.stored).2 passed refused)
    refine ⟨soundWorld_of_became became (Sound.persisted h _ hissued fun _ => hg), ?_⟩
    rintro _ ⟨rfl⟩ _
    have hid : record.id = id := KeyedList.get_key passed.stored
    rw [became.stores, ← hid]
    exact hg
  | aborted record e correlationId passed admitted why became =>
    have hissued := h.issued record (KeyedList.get_mem passed.stored)
    exact ⟨soundWorld_of_became became (Sound.startKey h _ hissued _ _ _), fun _ hr => by cases hr⟩
  | executed record correlationId result w₁ w₂ passed correlated admitted started ran finished =>
    have hid : record.id = id := KeyedList.get_key passed.stored
    have hissued := h.issued record (KeyedList.get_mem passed.stored)
    have h₁ : SoundWorld rt w₁ :=
      soundWorld_of_became started (Sound.startKey h _ hissued _ _ _)
    have hissued₁ : Issued w₁.disk.toStores record.id record.step := by
      rw [started.stores]
      exact hissued
    obtain ⟨h₂, hissued₂, hg⟩ := execution_sound h₁ hissued₁ ran
    have hmarked : Sound rt w₂.uuids (markedExecution w.toSurroundings (executionKey rt record)
        result w₂.disk.toStores) := by
      rw [markedExecution]
      split
      · rename_i hok
        exact Sound.markKey h₂ _ hissued₂ _ fun _ => hg hok
      · exact Sound.markKey h₂ _ hissued₂ _ fun hs => by cases hs
    have hgenuine : ∀ d : Stores, d.events = w₂.disk.events → result.ok = true →
        Genuine d record.id record.step := by
      intro d hd hok
      obtain ⟨e, he, hs⟩ := hg hok
      exact ⟨e, hd ▸ he, hs⟩
    have hevents : (markedExecution w.toSurroundings (executionKey rt record) result
        w₂.disk.toStores).events = w₂.disk.events := by
      rw [markedExecution]
      split <;> rfl
    refine ⟨soundWorld_of_became finished (Sound.persisted hmarked _ ?_ ?_), ?_⟩
    · obtain ⟨e, he, hs⟩ := hissued₂
      exact ⟨e, hevents ▸ he, hs⟩
    · rintro ⟨_, res, hres, hok⟩
      cases hres
      exact hgenuine _ hevents hok
    · rintro _ ⟨rfl⟩ ⟨_, res, hres, hok⟩
      cases hres
      rw [finished.stores, ← hid]
      exact hgenuine _ hevents hok

theorem created_sound (huuid : Function.Injective rt.uuid4) (h : SoundWorld rt w)
    {origin : Origin} {step : PlanStep} {rationale : String} {registry : Registry}
    {requiredScopes : Option (List String)} {w' : World} {record : PendingApproval}
    (hc : Created rt origin step rationale registry requiredScopes w w' record) :
    SoundWorld rt w' := by
  obtain ⟨n, hn, hn', hid⟩ := hc.fresh
  obtain ⟨skill, hcheck⟩ := hc.checked
  obtain ⟨⟨name, hname, _⟩, _⟩ := checkPending_ok.mp hcheck
  rw [SoundWorld, hc.wrote.stores]
  refine Sound.addCreated huuid h hn hn' hid hc.pending ?_
  rw [hc.step_eq, hname]
  simp

theorem reject_sound (h : SoundWorld rt w) {id : String} {reason : Option String} {w' : World}
    {r : Except PyError PendingApproval} (hcase : RejectCase rt id reason w w' r) :
    SoundWorld rt w' := by
  cases hcase with
  | declined e why quiet => exact soundWorld_of_became (became_id quiet) h
  | closed record record' e stored pending same due expired became =>
    refine soundWorld_of_became became (Sound.persisted h _ ?_ ?_)
    · rw [same.1, same.2]
      exact h.issued record (KeyedList.get_mem stored)
    · rintro ⟨happroved, _⟩
      rw [expired] at happroved
      cases happroved
  | rejected record correlationId stored pending correlated unexpired became =>
    refine soundWorld_of_became became (Sound.persisted h _ ?_ ?_)
    · exact h.issued record (KeyedList.get_mem stored)
    · rintro ⟨happroved, _⟩
      cases happroved

end Calls

theorem sound_step {rt : Runtime} (huuid : Function.Injective rt.uuid4)
    (hbar : ∀ n, BarFree (rt.uuid4 n)) (hash : Function.Injective rt.sha256) (w : World)
    (c : Call) (hc : Replayable rt w c) (h : SoundWorld rt w) : SoundWorld rt (apply rt w c) := by
  cases c with
  | createPending step ctx requester rationale registry requiredScopes =>
    refine (createPending_ends rt .step step ctx requester rationale registry requiredScopes
      w).mono (T := fun _ w' => SoundWorld rt w') ?_
    intro r w' hr
    cases r with
    | error e => exact soundWorld_of_became (became_id hr.2) h
    | ok record => exact created_sound huuid h hr.2
  | approve id approverNote registry =>
    exact (approve_sound h hash hbar hc (approve_cases rt approverNote registry id w)).1
  | reject id reason =>
    exact reject_sound h (reject_cases rt id reason w)
  | cleanupExpired =>
    have hends := cleanupExpired_becomes rt w
    rcases hends with heq | became
    · simp only [apply, heq]
      exact h
    · exact soundWorld_of_became became (Sound.cleaned h _ _)
  | setSurroundings s => exact h

theorem reported_success_is_real (rt : Runtime) (huuid : Function.Injective rt.uuid4)
    (hbar : ∀ n, BarFree (rt.uuid4 n)) (hash : Function.Injective rt.sha256) (w : World)
    (hw : w.disk.toStores = ⟨[], [], [], 0⟩) (calls : List Call)
    (hcalls : ∀ t ∈ SerialRun.transitions (apply rt) w calls, Replayable rt t.before t.op) :
    ∀ t ∈ SerialRun.transitions (apply rt) w calls,
      ∀ id approverNote registry, t.op = .approve id approverNote registry →
        (∀ record, (approve rt id approverNote registry t.before).1 = .ok record →
          ReportsSuccess record → Genuine t.after.disk.toStores id record.step) ∧
        ∀ record ∈ t.after.disk.approvals, ReportsSuccess record →
          Genuine t.after.disk.toStores record.id record.step := by
  have hinit : SoundWorld rt w := by
    rw [SoundWorld, hw]
    exact sound_initial
  obtain ⟨hall, _⟩ := SerialRun.invariant_along (C := fun t => Replayable rt t.before t.op)
    (sound_step huuid hbar hash) hcalls hinit
  intro t ht id approverNote registry hop
  obtain ⟨hbefore, hafter⟩ := hall t ht
  refine ⟨?_, hafter.results⟩
  have hc := hcalls t ht
  rw [hop] at hc
  have heq : t.after = (approve rt id approverNote registry t.before).2 := by
    rw [SerialRun.after_eq ht, hop]
    rfl
  rw [heq]
  exact (approve_sound hbefore hash hbar hc
    (approve_cases rt approverNote registry id t.before)).2

def requestReminder : Call :=
  .createPending reminderStep ⟨"remind me", none⟩
    [("source", some "chat"), ("correlation_id", some "c")] "because" exampleRegistry none

def workingRuntime : Runtime := exampleRuntime (fun _ => .returned "created") fun _ => none

def keepDecided : World := freshWorld { exampleSurroundings with autoclean := false }

def twiceApproved : List Call :=
  [requestReminder, .approve "0" none exampleRegistry, .approve "0" none exampleRegistry]

theorem twiceApproved_replayable :
    ∀ t ∈ SerialRun.transitions (apply workingRuntime) keepDecided twiceApproved,
      Replayable workingRuntime t.before t.op := by
  intro t ht
  rcases List.mem_cons.mp ht with rfl | ht
  · trivial
  rcases List.mem_cons.mp ht with rfl | ht
  · rintro record ⟨⟩
    exact ⟨fun h => (by cases h), fun _ h => absurd h (by decide)⟩
  rcases List.mem_cons.mp ht with rfl | ht
  · rintro record ⟨⟩
    exact ⟨fun _ => ⟨rfl, _, rfl, rfl⟩, fun h _ => (by cases h.pending)⟩
  · cases ht

theorem reported_success_twice :
    Genuine (SerialRun.final (apply workingRuntime) keepDecided twiceApproved).disk.toStores "0"
      reminderStep :=
  (reported_success_is_real workingRuntime (exampleRuntime_uuid4_injective _ _)
    LedgerKeys.barFree_toString Function.injective_id keepDecided rfl twiceApproved
    twiceApproved_replayable _ (List.mem_cons_of_mem _ (List.mem_cons_of_mem _
      List.mem_cons_self)) "0" none exampleRegistry rfl).1 _ rfl ⟨rfl, _, rfl, rfl⟩

def keptFailure : World :=
  SerialRun.final (apply (exampleRuntime (fun _ => .raised (.valueError "bad args")) fun _ => none))
    (freshWorld { exampleSurroundings with autoclean := false })
    [requestReminder, .approve "0" none exampleRegistry]

theorem replayed_failure :
    let again := approve (exampleRuntime (fun _ => .raised (.valueError "bad args")) fun _ => none)
      "0" none exampleRegistry keptFailure
    ∃ record, again.1 = .ok record ∧ ReportsSuccess record ∧
      ¬ Genuine again.2.disk.toStores "0" record.step :=
  ⟨_, rfl, ⟨rfl, _, rfl, rfl⟩, by decide⟩

end ApprovalOutcome
