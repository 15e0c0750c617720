import Benjamin.BreakerManager
import Benjamin.SerialRun

/-!
# Managers that share a file

Any number of managers, created at any time, take turns. Each saves its own copy of all
services with every request, so the file keeps the latest states only as long as the
copies of the manager that saves are up to date.
-/
namespace BreakerSharing

open PyBase CircuitBreaker BreakerManager

/-- The managers in the order of their creation. `latest` is not in the source: the state
of a service after the most recent request for it. -/
structure System where
  file : File
  managers : List Manager
  latest : String → Option Entry

inductive Op where
  | create (settings : Settings)
  | wrap (manager : Nat) (service : String) (now : Int) (outcome : Except PyError Unit)
      (later : Int)

def apply (rt : Runtime) (s : System) : Op → System
  | .create settings => { s with managers := s.managers ++ [Manager.build rt settings s.file] }
  | .wrap i service now outcome later =>
    match s.managers[i]? with
    | none => s
    | some m =>
      let (_, m', file) := m.wrap s.file service now outcome later
      ⟨file, s.managers.set i m',
        fun other => if other = service then some (toEntry (m'.get service)) else s.latest other⟩

def Saves (m : Manager) (service : String) (now : Int) : Prop :=
  m.enabled = true ∧ (m.ask service now).isOk = true

instance (m : Manager) (service : String) (now : Int) : Decidable (Saves m service now) :=
  inferInstanceAs (Decidable (_ ∧ _))

/-- The manager's copies that the request does not renew are those of the file. -/
def UpToDate (file : File) (m : Manager) (service : String) (now : Int) : Prop :=
  if Saves m service now then
    ∀ other, other ≠ service → toEntry (m.get other) = loadedEntry file other
  else toEntry (m.get service) = loadedEntry file service

def Fresh (s : System) : Op → Prop
  | .create _ => True
  | .wrap i service now _ _ => ∀ m, s.managers[i]? = some m → UpToDate s.file m service now

def Latest (s : System) : Prop :=
  ∀ service entry, s.latest service = some entry → loadedEntry s.file service = entry

def Saved (m m' : Manager) (file' : File) (service : String) : Prop :=
  file' = m'.snapshot ∧ ∀ other, other ≠ service → m'.get other = m.get other

theorem conclude_get (m : Manager) (service : String) (outcome : Except PyError Unit) (now : Int)
    {other : String} (h : other ≠ service) :
    (m.conclude service outcome now).get other = m.get other := by
  unfold Manager.conclude
  cases outcome with
  | ok _ =>
    refine get_put_ne m ?_
    rw [show (m.get service).recordSuccess.1.service = service from get_service m service]
    exact Ne.symm h
  | error e =>
    refine get_put_ne m ?_
    rw [recordFailure_service, get_service]
    exact Ne.symm h

section Wraps

variable {m m' : Manager} {file file' : File} {service : String} {now later : Int}
  {outcome result : Except PyError Unit}

theorem wrap_saved (h : m.wrap file service now outcome later = (result, m', file'))
    (hsaves : Saves m service now) : Saved m m' file' service := by
  obtain ⟨henabled, hok⟩ := hsaves
  rw [Manager.wrap, henabled] at h
  cases hasked : m.ask service now with
  | error e =>
    rw [hasked] at hok
    cases hok
  | ok answer =>
    obtain ⟨allowed, m₁⟩ := answer
    have hothers : ∀ other, other ≠ service → m₁.get other = m.get other := by
      intro other hother
      rw [Manager.ask] at hasked
      cases hallow : (m.get service).allowRequest now with
      | error e => simp [hallow] at hasked
      | ok answer =>
        simp only [hallow, Except.ok.injEq, Prod.mk.injEq] at hasked
        rw [← hasked.2]
        refine get_put_ne m ?_
        rw [allowRequest_service hallow, get_service]
        exact Ne.symm hother
    cases allowed with
    | false =>
      simp only [hasked, Bool.not_true, Bool.false_eq_true, if_false, Prod.mk.injEq] at h
      obtain ⟨_, rfl, rfl⟩ := h
      exact ⟨rfl, hothers⟩
    | true =>
      simp only [hasked, Bool.not_true, Bool.false_eq_true, if_false, Prod.mk.injEq] at h
      obtain ⟨_, rfl, rfl⟩ := h
      exact ⟨rfl, fun other hother =>
        (conclude_get m₁ service outcome later hother).trans (hothers other hother)⟩

theorem wrap_unsaved (h : m.wrap file service now outcome later = (result, m', file'))
    (hsaves : ¬ Saves m service now) : m' = m ∧ file' = file := by
  rw [Manager.wrap] at h
  cases henabled : m.enabled with
  | false =>
    simp only [henabled, Bool.not_false, if_true, Prod.mk.injEq] at h
    exact ⟨h.2.1.symm, h.2.2.symm⟩
  | true =>
    cases hasked : m.ask service now with
    | error e =>
      simp only [henabled, hasked, Bool.not_true, Bool.false_eq_true, if_false, Prod.mk.injEq] at h
      exact ⟨h.2.1.symm, h.2.2.symm⟩
    | ok answer => exact absurd ⟨henabled, by rw [hasked]; rfl⟩ hsaves

/-- A request of an up-to-date manager changes the entry of no other service, and leaves
its own in the file. -/
theorem upToDate_wrap (h : UpToDate file m service now)
    (hwrap : m.wrap file service now outcome later = (result, m', file')) :
    loadedEntry file' service = toEntry (m'.get service) ∧
      ∀ other, other ≠ service → loadedEntry file' other = loadedEntry file other := by
  rw [UpToDate] at h
  by_cases hsaves : Saves m service now
  · rw [if_pos hsaves] at h
    obtain ⟨rfl, hothers⟩ := wrap_saved hwrap hsaves
    refine ⟨loadedEntry_snapshot m' service, fun other hother => ?_⟩
    rw [loadedEntry_snapshot, hothers other hother, h other hother]
  · rw [if_neg hsaves] at h
    obtain ⟨rfl, rfl⟩ := wrap_unsaved hwrap hsaves
    exact ⟨h.symm, fun _ _ => rfl⟩

end Wraps

/-- What a step must not do to the services that it does not request. -/
def Spares (t : SerialRun.Transition System Op) : Prop :=
  match t.op with
  | .create _ => t.after.file = t.before.file
  | .wrap _ service .. => ∀ other, other ≠ service →
    loadedEntry t.after.file other = loadedEntry t.before.file other

theorem step_spares (rt : Runtime) {s : System} {op : Op} (h : Fresh s op) :
    Spares ⟨s, op, apply rt s op⟩ := by
  cases op with
  | create settings => rfl
  | wrap i service now outcome later =>
    change ∀ other, other ≠ service →
      loadedEntry (apply rt s (.wrap i service now outcome later)).file other =
        loadedEntry s.file other
    intro other hother
    rw [apply]
    dsimp only
    cases hm : s.managers[i]? with
    | none => rfl
    | some m =>
      cases hwrap : m.wrap s.file service now outcome later with
      | mk result rest =>
        simp only [hwrap]
        exact (upToDate_wrap (h m hm) hwrap).2 other hother

theorem step_latest (rt : Runtime) {s : System} {op : Op} (h : Fresh s op) (hs : Latest s) :
    Latest (apply rt s op) := by
  cases op with
  | create settings => exact hs
  | wrap i service now outcome later =>
    rw [apply]
    dsimp only
    cases hm : s.managers[i]? with
    | none => exact hs
    | some m =>
      cases hwrap : m.wrap s.file service now outcome later with
      | mk result rest =>
        obtain ⟨hown, hothers⟩ := upToDate_wrap (h m hm) hwrap
        intro other entry hlatest
        simp only [hwrap] at hlatest ⊢
        by_cases hother : other = service
        · rw [if_pos hother] at hlatest
          cases hlatest
          rw [hother]
          exact hown
        · rw [if_neg hother] at hlatest
          rw [hothers other hother]
          exact hs other entry hlatest

theorem file_has_the_latest (rt : Runtime) (file : File) (ops : List Op)
    (hfresh : ∀ t ∈ SerialRun.transitions (apply rt) ⟨file, [], fun _ => none⟩ ops,
      Fresh t.before t.op) :
    ∀ t ∈ SerialRun.transitions (apply rt) ⟨file, [], fun _ => none⟩ ops,
      Latest t.after ∧ Spares t := by
  intro t ht
  have hrun := SerialRun.invariant_along (C := fun t => Fresh t.before t.op)
    (fun s op hcond hs => step_latest rt hcond hs) hfresh (I := Latest) (fun _ _ h => by cases h)
  refine ⟨(hrun.1 t ht).2, ?_⟩
  obtain ⟨before, op, after⟩ := t
  have hafter : after = apply rt before op := SerialRun.after_eq ht
  subst hafter
  exact step_spares rt (hfresh _ ht)

def exampleRuntime : Runtime where
  uuid4 n := toString n
  sha256 s := s
  loads _ := none
  str _ := ""
  casefold s := s
  fromisoformat _ := none
  skillRun _ := .returned ""
  notifierSend _ := none

def defaults : Settings := ⟨true, 3, 60, 1⟩

theorem upToDate_of_loaded {m : Manager} {file : File}
    (h : ∀ other, toEntry (m.get other) = loadedEntry file other) (service : String) (now : Int) :
    UpToDate file m service now := by
  rw [UpToDate]
  split
  · exact fun other _ => h other
  · exact h service

/-- A manager made after the other's request has its state. -/
theorem second_manager_created_later :
    (SerialRun.transitions (apply exampleRuntime) ⟨[], [], fun _ => none⟩
      [.create defaults, .wrap 0 "gmail" 0 (.ok ()) 1, .create defaults,
        .wrap 1 "calendar" 2 (.ok ()) 3]).Forall fun t => Latest t.after ∧ Spares t := by
  refine List.forall_iff_forall_mem.mpr (file_has_the_latest exampleRuntime [] _ ?_)
  intro t ht
  simp only [SerialRun.transitions, List.mem_cons, List.not_mem_nil, or_false] at ht
  rcases ht with rfl | rfl | rfl | rfl
  · trivial
  · rintro m ⟨⟩
    exact upToDate_of_loaded (build_loads (by decide) (by decide)) _ _
  · trivial
  · rintro m ⟨⟩
    exact upToDate_of_loaded (build_loads (by decide) (by decide)) _ _

/-- The second manager, made before the failure, writes its older copy back. -/
theorem failure_forgotten :
    let run := SerialRun.final (apply exampleRuntime) ⟨[], [], fun _ => none⟩
      [.create defaults, .create defaults, .wrap 0 "gmail" 0 (.error (.other "e")) 1,
        .wrap 1 "calendar" 2 (.ok ()) 3]
    (run.latest "gmail").map Entry.failureCount = some 1 ∧
      (loadedEntry run.file "gmail").failureCount = 0 := by
  decide

end BreakerSharing
