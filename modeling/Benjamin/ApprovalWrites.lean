import Benjamin.ApprovalCleanup
import Benjamin.ReadModifyWrite

/-!
# Two writers of the approval store

Each operation of the store loads the whole file and then rewrites it, without a lock.
Two operations on different approvals end as if one had followed the other exactly when
neither rewrites a file that the other has changed since it loaded it.
-/
namespace ApprovalWrites

open PyBase AssistantState ApprovalStore ApprovalService ApprovalCleanup ReadModifyWrite

inductive StoreOp where
  | upsert (record : PendingApproval)
  | delete (id : String)
  | cleanupExpired (autoclean : Bool) (now : Int)

/-- What the operation writes of the records it has loaded; `none` if it does not write. -/
def rewriteOf (rt : Runtime) : StoreOp → Rewrite (List PendingApproval)
  | .upsert record, records => some (ApprovalStore.upsert record records)
  | .delete id, records => some (ApprovalStore.delete id records)
  | .cleanupExpired autoclean now, records =>
    match cleanupRecords rt autoclean now records with
    | .error _ => none
    | .ok (0, _) => none
    | .ok (_, rewritten) => some rewritten

abbrev after (rt : Runtime) (op : StoreOp) (records : List PendingApproval) :
    List PendingApproval := effect (rewriteOf rt op) records

/-- The identifiers that an operation touches. A cleanup touches the records that are
stale, and those it cannot read the date of. -/
def Touches (rt : Runtime) (records : List PendingApproval) (op : StoreOp) (id : String) : Prop :=
  match op with
  | .upsert record => record.id = id
  | .delete deletedId => deletedId = id
  | .cleanupExpired _ now =>
    ∃ record ∈ records, record.id = id ∧ staleRecord rt now record ≠ .ok false

structure Apart (rt : Runtime) (records : List PendingApproval) (a b : StoreOp) : Prop where
  together : ∀ id, Touches rt records a id → ¬ Touches rt records b id
  behind : ∀ id, Touches rt (after rt b records) a id → ¬ Touches rt records b id
  ahead : ∀ id, Touches rt records a id → ¬ Touches rt (after rt a records) b id

theorem Apart.symm {rt : Runtime} {records : List PendingApproval} {a b : StoreOp}
    (h : Apart rt records a b) : Apart rt records b a where
  together id hb ha := h.together id ha hb
  behind id hb ha := h.ahead id ha hb
  ahead id hb ha := h.behind id ha hb

section Effects

variable {rt : Runtime} {records : List PendingApproval} {autoclean : Bool} {now : Int}

theorem after_cleanup (h : Readable rt now records) :
    after rt (.cleanupExpired autoclean now) records =
      records.filterMap (afterCleanup rt autoclean now) := by
  have hcleanup : cleanupRecords rt autoclean now records = _ := cleanupRecords_readable h
  simp only [after, effect, rewriteOf, hcleanup]
  cases hcount : records.countP fun record => decide (Stale rt now record) with
  | zero =>
    have hidle : ∀ record ∈ records, ¬ Stale rt now record := by
      intro record hrecord
      simpa using List.countP_eq_zero.mp hcount record hrecord
    exact (filterMap_afterCleanup_idle hidle).symm
  | succ n => rfl

theorem after_cleanup_unreadable (h : ¬ Readable rt now records) :
    after rt (.cleanupExpired autoclean now) records = records := by
  obtain ⟨e, he⟩ : ∃ e, cleanupRecords rt autoclean now records = .error e :=
    cleanupRecords_unreadable h
  simp only [after, effect, rewriteOf, he, Option.getD_none]

theorem untouched_record {id : String}
    (h : ¬ Touches rt records (.cleanupExpired autoclean now) id) {record : PendingApproval}
    (hrecord : record ∈ records) (hid : record.id = id) :
    staleRecord rt now record = .ok false := by
  by_contra hstale
  exact h ⟨record, hrecord, hid, hstale⟩

theorem untouched_kept {id : String}
    (h : ¬ Touches rt records (.cleanupExpired autoclean now) id) {record : PendingApproval}
    (hrecord : record ∈ records) (hid : record.id = id) :
    afterCleanup rt autoclean now record = some record := by
  refine afterCleanup_kept fun hstale => ?_
  cases hstale.symm.trans (untouched_record h hrecord hid)

theorem get_after {op : StoreOp} {id : String} (h : ¬ Touches rt records op id) :
    get (after rt op records) id = get records id := by
  cases op with
  | upsert record => exact KeyedList.get_upsert_ne h records
  | delete deletedId => exact KeyedList.get_delete_ne h records
  | cleanupExpired autoclean now =>
    by_cases hread : Readable rt now records
    · rw [after_cleanup hread]
      cases hget : get records id with
      | none => exact KeyedList.get_filterMap_none afterCleanup_id hget
      | some record =>
        exact KeyedList.get_filterMap afterCleanup_id hget
          (untouched_kept h (KeyedList.get_mem hget) (KeyedList.get_key hget))
    · rw [after_cleanup_unreadable hread]

theorem mem_after {op : StoreOp} {record : PendingApproval} (hrecord : record ∈ records)
    (h : ¬ Touches rt records op record.id) : record ∈ after rt op records := by
  cases op with
  | upsert other => exact KeyedList.mem_upsert_of_ne hrecord (Ne.symm h)
  | delete deletedId =>
    exact List.mem_filter.mpr ⟨hrecord, decide_eq_true (Ne.symm h)⟩
  | cleanupExpired autoclean now =>
    by_cases hread : Readable rt now records
    · rw [after_cleanup hread]
      exact List.mem_filterMap.mpr ⟨record, hrecord, untouched_kept h hrecord rfl⟩
    · rw [after_cleanup_unreadable hread]
      exact hrecord

/-- A pending record that is there after an operation was there before, or it is the one
that the operation has put there. -/
theorem pending_after {op : StoreOp} {record : PendingApproval}
    (hrecord : record ∈ after rt op records) (hpending : record.status = .pending) :
    record ∈ records ∨ Touches rt records op record.id := by
  cases op with
  | upsert other =>
    rcases KeyedList.mem_upsert hrecord with rfl | hold
    · exact Or.inr rfl
    · exact Or.inl hold
  | delete deletedId => exact Or.inl (List.mem_filter.mp hrecord).1
  | cleanupExpired autoclean now =>
    left
    by_cases hread : Readable rt now records
    · rw [after_cleanup hread] at hrecord
      obtain ⟨before, hbefore, hafter⟩ := List.mem_filterMap.mp hrecord
      rcases afterCleanup_cases hafter with rfl | rfl
      · exact hbefore
      · cases hpending
    · rwa [after_cleanup_unreadable hread] at hrecord

theorem cleaned_after (h : Readable rt now records) {record : PendingApproval}
    (hrecord : record ∈ after rt (.cleanupExpired autoclean now) records) :
    ¬ Stale rt now record := by
  rw [after_cleanup h] at hrecord
  exact not_stale_of_cleaned hrecord

end Effects

section Visibility

variable {rt : Runtime} {records : List PendingApproval} {a b : StoreOp}

/-- A serial result that `b` gives alone answers for what `a` touches as the records did
before, and as `a` leaves it. -/
theorem serial_get (h : Apart rt records a b)
    (hserial : Serial (rewriteOf rt a) (rewriteOf rt b) records (after rt b records))
    {id : String} {answer : Option PendingApproval} (htouches : ∀ records, Touches rt records a id)
    (hsets : ∀ records, get (after rt a records) id = answer) : get records id = answer := by
  have hbefore : get (after rt b records) id = get records id :=
    get_after (h.together id (htouches records))
  rcases hserial with hfirst | hsecond
  · have hlast : get (after rt b (after rt a records)) id = get (after rt a records) id :=
      get_after (h.ahead id (htouches records))
    have hsame : get (after rt b records) id = get (after rt b (after rt a records)) id :=
      congrArg (get · id) hfirst
    rw [← hbefore, hsame, hlast, hsets]
  · have hsame : get (after rt b records) id = get (after rt a (after rt b records)) id :=
      congrArg (get · id) hsecond
    rw [← hbefore, hsame, hsets]

theorem cleanup_visible {autoclean : Bool} {now : Int}
    (h : Apart rt records (.cleanupExpired autoclean now) b)
    (hserial : Serial (rewriteOf rt (.cleanupExpired autoclean now)) (rewriteOf rt b) records
      (after rt b records)) :
    after rt (.cleanupExpired autoclean now) records = records := by
  by_cases hread : Readable rt now records
  · rw [after_cleanup hread]
    refine filterMap_afterCleanup_idle ?_
    intro record hrecord hstale
    have htouched : Touches rt records (.cleanupExpired autoclean now) record.id := by
      refine ⟨record, hrecord, rfl, fun hfresh => ?_⟩
      cases hstale.symm.trans hfresh
    have hkept : record ∈ after rt b records := mem_after hrecord (h.together _ htouched)
    rcases hserial with hfirst | hsecond
    · have hlast : record ∈ after rt b (after rt (.cleanupExpired autoclean now) records) := by
        rw [hfirst] at hkept
        exact hkept
      rcases pending_after hlast hstale.pending with hcleaned | htouches
      · exact cleaned_after hread hcleaned hstale
      · exact h.ahead _ htouched htouches
    · have hall : Readable rt now (after rt b records) := by
        intro other hother
        by_cases hclosed : other.status = .pending
        · rcases pending_after hother hclosed with hold | htouches
          · exact hread other hold
          · have huntouched : ¬ Touches rt (after rt b records)
                (.cleanupExpired autoclean now) other.id := fun hyes => h.behind _ hyes htouches
            exact ⟨false, untouched_record huntouched hother rfl⟩
        · exact ⟨false, by rw [staleRecord, if_neg hclosed]⟩
      have hlast : record ∈ after rt (.cleanupExpired autoclean now) (after rt b records) := by
        rw [hsecond] at hkept
        exact hkept
      exact cleaned_after hall hlast hstale
  · exact after_cleanup_unreadable hread

theorem apart_visible (h : Apart rt records a b) :
    Visible (rewriteOf rt a) (rewriteOf rt b) records := by
  intro _ hserial
  cases a with
  | upsert record =>
    have hget : get records record.id = some record := by
      refine serial_get h hserial (fun _ => rfl) ?_
      exact fun others => KeyedList.get_upsert_self record others
    exact KeyedList.upsert_of_get hget
  | delete id =>
    have hget : get records id = none := by
      refine serial_get h hserial (fun _ => rfl) ?_
      exact fun others => KeyedList.get_delete_self id others
    exact KeyedList.delete_of_absent hget
  | cleanupExpired autoclean now => exact cleanup_visible h hserial

end Visibility

/-- Two writers that have not begun; `true` runs `a`. -/
def twoWriters (rt : Runtime) (records : List PendingApproval) (a b : StoreOp) :
    Pair (List PendingApproval) where
  shared := records
  proc i := ⟨rewriteOf rt (if i then a else b), .start⟩

/-- Two operations on different approvals end as one after the other iff each rewrites
the records as it has loaded them. -/
theorem two_writers_serial_iff (rt : Runtime) {records : List PendingApproval} {a b : StoreOp}
    (h : Apart rt records a b) {schedule : List (Bool × Unit)}
    (hend : Finished (run (twoWriters rt records a b) schedule)) :
    Serial (rewriteOf rt a) (rewriteOf rt b) records
        (run (twoWriters rt records a b) schedule).shared ↔
      AllFresh (twoWriters rt records a b) schedule := by
  have hstart : At (fun i => rewriteOf rt (if i then a else b)) true false records .start .start
      (twoWriters rt records a b) := ⟨by decide, rfl, rfl, rfl⟩
  exact serial_iff_fresh (apart_visible h) (apart_visible h.symm) hstart hend

theorem serial_visible {rt : Runtime} {records final : List PendingApproval} {a b : StoreOp}
    (h : Apart rt records a b) (hserial : Serial (rewriteOf rt a) (rewriteOf rt b) records final) :
    (∀ record, a = .upsert record → get final record.id = some record) ∧
      ∀ id, a = .delete id → get final id = none := by
  have hanswer : ∀ {id : String} {answer : Option PendingApproval},
      (∀ records, Touches rt records a id) → (∀ records, get (after rt a records) id = answer) →
        get final id = answer := by
    intro id answer htouches hsets
    rcases hserial with hfirst | hsecond
    · rw [hfirst, ← hsets records]
      exact get_after (h.ahead id (htouches records))
    · rw [hsecond]
      exact hsets _
  refine ⟨?_, ?_⟩
  · rintro record rfl
    exact hanswer (fun _ => rfl) fun others => KeyedList.get_upsert_self record others
  · rintro id rfl
    exact hanswer (fun _ => rfl) fun others => KeyedList.get_delete_self id others

def waiting (id : String) : PendingApproval where
  id
  createdAtIso := "1970-01-01T00:00:00+00:00"
  expiresAtIso := "1970-01-04T00:00:00+00:00"
  status := .pending
  requester := []
  step := ⟨"s", "Remind", some "reminders.create", "{}", true⟩
  context := ⟨"Remind", none⟩
  rationale := ""
  result := none
  error := none
  requiredScopes := ["reminders.write"]
  policySnapshot := exampleSurroundings.policy.snapshotModel
  policySnapshotAtApprove := none

def plainRuntime : Runtime := exampleRuntime (fun _ => .returned "") fun _ => none

/-- `true` stores the new approval "b", `false` deletes the executed "a". -/
def createAndDelete : Pair (List PendingApproval) :=
  twoWriters plainRuntime [waiting "a"] (.upsert (waiting "b")) (.delete "a")

theorem create_delete_apart :
    Apart plainRuntime [waiting "a"] (.upsert (waiting "b")) (.delete "a") := by
  have hdistinct : ∀ id, "b" = id → ¬ "a" = id := by
    rintro id rfl
    decide
  exact ⟨hdistinct, hdistinct, hdistinct⟩

def turns (order : List Bool) : List (Bool × Unit) := order.map fun i => (i, ())

/-- In turn the two end as they should. -/
theorem create_then_delete : Serial (rewriteOf plainRuntime (.upsert (waiting "b")))
    (rewriteOf plainRuntime (.delete "a")) [waiting "a"]
    (run createAndDelete (turns [true, true, false, false])).shared := by
  refine (two_writers_serial_iff plainRuntime create_delete_apart ?_).mpr ?_
  · intro i
    cases i <;> trivial
  · intro t ht
    simp only [turns, List.map_cons, List.map_nil, Interleaving.steps, SerialRun.transitions,
      List.mem_cons, List.not_mem_nil, or_false] at ht
    rcases ht with rfl | rfl | rfl | rfl
    · trivial
    · exact Or.inr rfl
    · trivial
    · exact Or.inr rfl

/-- When both have loaded before either writes, the executed approval comes back or the
new one is lost. -/
theorem writers_lose :
    Apart plainRuntime [waiting "a"] (.upsert (waiting "b")) (.delete "a") ∧
      (∀ order ∈ [[false, true, false, true], [true, false, true, false]],
        Finished (run createAndDelete (turns order)) ∧
          ¬ Serial (rewriteOf plainRuntime (.upsert (waiting "b")))
            (rewriteOf plainRuntime (.delete "a")) [waiting "a"]
            (run createAndDelete (turns order)).shared) ∧
      get (run createAndDelete (turns [false, true, false, true])).shared "a" = some (waiting "a") ∧
      get (run createAndDelete (turns [true, false, true, false])).shared "b" = none := by
  have hback : get (run createAndDelete (turns [false, true, false, true])).shared "a" =
      some (waiting "a") := rfl
  have hlost : get (run createAndDelete (turns [true, false, true, false])).shared "b" = none := rfl
  refine ⟨create_delete_apart, ?_, hback, hlost⟩
  intro order horder
  rcases List.mem_cons.mp horder with rfl | horder
  · refine ⟨?_, ?_⟩
    · intro i
      cases i <;> trivial
    · intro hserial
      have hgone := (serial_visible create_delete_apart.symm hserial.symm).2 "a" rfl
      cases hback.symm.trans hgone
  · rw [List.mem_singleton.mp horder]
    refine ⟨?_, ?_⟩
    · intro i
      cases i <;> trivial
    · intro hserial
      have hthere := (serial_visible create_delete_apart hserial).1 (waiting "b") rfl
      cases hlost.symm.trans hthere

end ApprovalWrites
