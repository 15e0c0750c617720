import Benjamin.ApprovalWrites
import Benjamin.CappedSelection
import Benjamin.IsoReading

/-!
# The approval store as a map with expiry

The file of the store answers as a map from identifiers to approvals would, in which a
cleanup removes or marks what is due. It lists by the texts of the creation dates and
expires by the instants that the expiry dates stand for; timestamps make the two agree.
-/
namespace ApprovalMap

open PyBase PlanSchemas AssistantState ApprovalStore ApprovalService ApprovalCleanup ApprovalWrites
  IsoReading Effect

/-- `list_all`: an empty status selects every record. -/
def listAll (status : Option String) (records : List PendingApproval) : List PendingApproval :=
  let selected := match truthy status with
    | some wanted => records.filter fun record : PendingApproval =>
        decide (record.status.str = wanted)
    | none => records
  selected.mergeSort fun a b => decide (b.createdAtIso ≤ a.createdAtIso)

def Stamped (text : String) (t : Int) : Prop := InRange t ∧ text = isoformat t

def Dated (record : PendingApproval) : Prop :=
  (∃ t, Stamped record.createdAtIso t) ∧ ∃ t, Stamped record.expiresAtIso t

def Due (now : Int) (record : PendingApproval) : Prop :=
  record.status = .pending ∧ ∃ t, Stamped record.expiresAtIso t ∧ t ≤ now

section Reading

variable {rt : Runtime} {now : Int} {record : PendingApproval}

theorem isExpired_stamped (hread : ReadsTimestamps rt) {t : Int}
    (h : Stamped record.expiresAtIso t) :
    isExpired rt now record = .ok (decide (t ≤ now)) := by
  obtain ⟨hrange, htext⟩ := h
  rw [isExpired, htext, hread t hrange]
  rfl

theorem staleRecord_dated (hread : ReadsTimestamps rt) (h : Dated record) (now : Int) :
    ∃ stale, staleRecord rt now record = .ok stale ∧ (stale = true ↔ Due now record) := by
  obtain ⟨-, t, hstamp⟩ := h
  by_cases hpending : record.status = .pending
  · refine ⟨decide (t ≤ now), ?_, ?_⟩
    · rw [staleRecord, if_pos hpending, isExpired_stamped hread hstamp]
    · rw [decide_eq_true_iff]
      constructor
      · intro hle
        exact ⟨hpending, t, hstamp, hle⟩
      · rintro ⟨-, u, hother, hle⟩
        -- One text stands for one instant.
        have hsame : some (Datetime.aware u) = some (.aware t) := by
          rw [← hread u hother.1, ← hread t hstamp.1, ← hother.2, ← hstamp.2]
        cases hsame
        exact hle
  · refine ⟨false, by rw [staleRecord, if_neg hpending], ?_⟩
    simp [Due, hpending]

theorem stale_iff_due (hread : ReadsTimestamps rt) (h : Dated record) :
    Stale rt now record ↔ Due now record := by
  obtain ⟨stale, hstale, hiff⟩ := staleRecord_dated hread h now
  rw [Stale, hstale, ← hiff]
  simp

open Classical in
/-- A cleanup takes what is due and keeps the rest as it is. -/
theorem afterCleanup_dated (hread : ReadsTimestamps rt) (autoclean : Bool) (h : Dated record) :
    afterCleanup rt autoclean now record =
      if Due now record then cleaned autoclean record else some record := by
  by_cases hdue : Due now record
  · rw [if_pos hdue, afterCleanup_stale ((stale_iff_due hread h).mpr hdue)]
  · rw [if_neg hdue, afterCleanup_kept fun hstale => hdue ((stale_iff_due hread h).mp hstale)]

theorem readable_of_dated (hread : ReadsTimestamps rt) {records : List PendingApproval}
    (h : ∀ record ∈ records, Dated record) : Readable rt now records := by
  intro record hrecord
  obtain ⟨stale, hstale, -⟩ := staleRecord_dated hread (h record hrecord) now
  exact ⟨stale, hstale⟩

theorem Due.later {later : Int} (h : Due now record) (hle : now ≤ later) : Due later record := by
  obtain ⟨hpending, t, hstamp, ht⟩ := h
  exact ⟨hpending, t, hstamp, ht.trans hle⟩

end Reading

/-- What the store is for: an approval for each identifier that has one. -/
abbrev Approvals := String → Option PendingApproval

open Classical in
noncomputable def mapped (m : Approvals) : StoreOp → Approvals
  | .upsert record => Function.update m record.id (some record)
  | .delete id => Function.update m id none
  | .cleanupExpired autoclean now => fun id =>
    (m id).bind fun record => if Due now record then cleaned autoclean record else some record

/-- Identifiers are distinct and dates are timestamps. -/
structure Sound (records : List PendingApproval) : Prop where
  distinct : (records.map PendingApproval.id).Nodup
  dated : ∀ record ∈ records, Dated record

def DatedOp : StoreOp → Prop
  | .upsert record => Dated record
  | _ => True

section Steps

variable {rt : Runtime} {records : List PendingApproval} {op : StoreOp}

theorem Sound.readable (hread : ReadsTimestamps rt) (h : Sound records) (now : Int) :
    Readable rt now records :=
  readable_of_dated hread h.dated

theorem Sound.after (hread : ReadsTimestamps rt) (h : Sound records) (hop : DatedOp op) :
    Sound (after rt op records) := by
  cases op with
  | upsert record =>
    refine ⟨KeyedList.nodup_upsert h.distinct, ?_⟩
    intro other hother
    rcases KeyedList.mem_upsert hother with rfl | hold
    · exact hop
    · exact h.dated other hold
  | delete id =>
    refine ⟨KeyedList.nodup_delete h.distinct, ?_⟩
    intro other hother
    exact h.dated other (List.mem_filter.mp hother).1
  | cleanupExpired autoclean now =>
    rw [after_cleanup (h.readable hread now)]
    refine ⟨KeyedList.nodup_filterMap afterCleanup_id h.distinct, ?_⟩
    intro other hother
    obtain ⟨before, hbefore, hkept⟩ := List.mem_filterMap.mp hother
    -- A marked record keeps its dates.
    rcases afterCleanup_cases hkept with rfl | rfl
    · exact h.dated other hbefore
    · exact h.dated before hbefore

theorem get_after_mapped (hread : ReadsTimestamps rt) (h : Sound records) :
    get (ApprovalWrites.after rt op records) = mapped (get records) op := by
  funext id
  cases op with
  | upsert record =>
    by_cases hid : record.id = id
    · subst hid
      rw [mapped, Function.update_self]
      exact KeyedList.get_upsert_self record records
    · rw [mapped, Function.update_of_ne (Ne.symm hid)]
      exact KeyedList.get_upsert_ne hid records
  | delete deletedId =>
    by_cases hid : deletedId = id
    · subst hid
      rw [mapped, Function.update_self]
      exact KeyedList.get_delete_self deletedId records
    · rw [mapped, Function.update_of_ne (Ne.symm hid)]
      exact KeyedList.get_delete_ne hid records
  | cleanupExpired autoclean now =>
    rw [after_cleanup (h.readable hread now)]
    refine (KeyedList.get_filterMap_bind afterCleanup_id h.distinct id).trans ?_
    change (get records id).bind _ = (get records id).bind _
    refine Option.bind_congr fun record hget => ?_
    exact afterCleanup_dated hread autoclean (h.dated record (KeyedList.get_mem hget))

end Steps

/-- Exactly the records with the status, newest creation instant first. -/
structure Listed (status : Option String) (records listed : List PendingApproval) : Prop where
  selected : listed.Perm
    (records.filter fun record => decide (∀ wanted ∈ truthy status, record.status.str = wanted))
  newestFirst : listed.Pairwise fun a b =>
    ∃ s t, Stamped a.createdAtIso s ∧ Stamped b.createdAtIso t ∧ t ≤ s

theorem listAll_sorted (status : Option String) (records : List PendingApproval) :
    (listAll status records).Pairwise fun a b => b.createdAtIso ≤ a.createdAtIso :=
  CappedSelection.greatestFirst_sorted PendingApproval.createdAtIso _

theorem listAll_listed {records : List PendingApproval} (h : ∀ record ∈ records, Dated record)
    (status : Option String) : Listed status records (listAll status records) := by
  have hselected : (listAll status records).Perm
      (records.filter fun record =>
        decide (∀ wanted ∈ truthy status, record.status.str = wanted)) := by
    refine (List.mergeSort_perm _ _).trans (List.Perm.of_eq ?_)
    cases truthy status with
    | none => simp
    | some wanted => simp
  refine ⟨hselected, (listAll_sorted status records).imp_of_mem ?_⟩
  intro a b ha hb hle
  have hmem : ∀ record ∈ listAll status records, record ∈ records := fun record hrecord =>
    (List.mem_filter.mp (hselected.mem_iff.mp hrecord)).1
  obtain ⟨⟨s, hs⟩, -⟩ := h a (hmem a ha)
  obtain ⟨⟨t, ht⟩, -⟩ := h b (hmem b hb)
  refine ⟨s, t, hs, ht, (IsoOrder.isoformat_le_iff ht.1 hs.1).mp ?_⟩
  rw [← ht.2, ← hs.2]
  exact hle

def expiredError : PyError := .httpException 400 "approval expired"

def safeModeError : PyError :=
  .httpException 409 "Safe mode enabled; approval execution is disabled"

def closedError (status : ApprovalStatus) : PyError :=
  .httpException 400 ("approval is " ++ status.str)

/-- `approve` and `reject` both end with these errors. -/
def BothRefuse (rt : Runtime) (id : String) (w : World) (approving rejecting : PyError) : Prop :=
  (∀ note registry, (approve rt id note registry w).1 = .error approving) ∧
    ∀ reason, (reject rt id reason w).1 = .error rejecting

open Classical in
/-- What `cleanup_expired` does in this world. -/
structure Swept (rt : Runtime) (w : World) : Prop where
  counts : (cleanupExpired rt w).1 = .ok (w.disk.approvals.countP fun record => Due w.now record)
  removes : w.autoclean = true → (cleanupExpired rt w).2.disk.approvals =
    w.disk.approvals.filter fun record => ¬ Due w.now record
  marks : w.autoclean = false → (cleanupExpired rt w).2.disk.approvals =
    w.disk.approvals.map fun record =>
      if Due w.now record then { record with status := .expired } else record
  again : ∀ w' : World, w'.disk.approvals = (cleanupExpired rt w).2.disk.approvals →
    w'.now = w.now → cleanupExpired rt w' = (.ok 0, w')
  wasRefused : ∀ record ∈ w.disk.approvals, Due w.now record → ∀ later : World,
    get later.disk.approvals record.id = some record → w.now ≤ later.now →
      BothRefuse rt record.id later (if later.safeMode then safeModeError else expiredError)
        expiredError
  isRefused : ∀ record ∈ w.disk.approvals, Due w.now record → ∀ later : World,
    get later.disk.approvals record.id = some { record with status := .expired } →
      BothRefuse rt record.id later (closedError .expired) (closedError .expired)

section Cleanup

variable {rt : Runtime} {w : World}

theorem cleanupExpired_after (rt : Runtime) (w : World) :
    (cleanupExpired rt w).2.disk.approvals =
      after rt (.cleanupExpired w.autoclean w.now) w.disk.approvals := by
  unfold cleanupExpired after ReadModifyWrite.effect rewriteOf
  dsimp only
  cases hrecords : cleanupRecords rt w.autoclean w.now w.disk.approvals with
  | error e => rfl
  | ok answer =>
    obtain ⟨changed, rewritten⟩ := answer
    cases changed <;> rfl

theorem cleanupExpired_count (h : Readable rt w.now w.disk.approvals) :
    (cleanupExpired rt w).1 =
      .ok (w.disk.approvals.countP fun record => Stale rt w.now record) := by
  have hrecords : cleanupRecords rt w.autoclean w.now w.disk.approvals = _ :=
    cleanupRecords_readable h
  rw [cleanupExpired, hrecords]
  cases w.disk.approvals.countP fun record => decide (Stale rt w.now record) <;> rfl

theorem cleanupExpired_idle (h : Readable rt w.now w.disk.approvals)
    (hidle : ∀ record ∈ w.disk.approvals, ¬ Stale rt w.now record) :
    cleanupExpired rt w = (.ok 0, w) := by
  have hrecords : cleanupRecords rt w.autoclean w.now w.disk.approvals = _ :=
    cleanupRecords_readable h
  have hcount : (w.disk.approvals.countP fun record => decide (Stale rt w.now record)) = 0 :=
    List.countP_eq_zero.mpr fun record hrecord => by simpa using hidle record hrecord
  rw [cleanupExpired, hrecords, hcount]
  rfl

/-- An approval that is due is refused, in safe mode for another reason by `approve`. -/
theorem due_refused (hread : ReadsTimestamps rt) {record : PendingApproval} (hdated : Dated record)
    (hstored : get w.disk.approvals record.id = some record) (hdue : Due w.now record) :
    BothRefuse rt record.id w (if w.safeMode then safeModeError else expiredError)
      expiredError := by
  have hstale : Stale rt w.now record := (stale_iff_due hread hdated).mpr hdue
  have hpending := hstale.pending
  have hexpired : isExpired rt w.now record = .ok true := by
    rwa [Stale, staleRecord, if_pos hpending] at hstale
  constructor
  · intro note registry
    rw [approve, read_bind, hstored]
    dsimp only
    rw [hpending]
    dsimp only
    rw [approvePending, read_bind]
    cases hsafe : w.safeMode with
    | true =>
      rw [if_pos rfl, if_pos rfl]
      rfl
    | false =>
      rw [if_neg Bool.false_ne_true, if_neg Bool.false_ne_true, ask_bind, hexpired]
      rfl
  · intro reason
    rw [reject, read_bind, hstored]
    dsimp only
    rw [if_neg (not_not.mpr hpending), ask_bind, hexpired]
    rfl

theorem closed_refused {id : String} {record : PendingApproval}
    (hstored : get w.disk.approvals id = some record) (hexpired : record.status = .expired) :
    BothRefuse rt id w (closedError .expired) (closedError .expired) := by
  constructor
  · intro note registry
    rw [approve, read_bind, hstored]
    dsimp only
    rw [hexpired]
    rfl
  · intro reason
    have hclosed : record.status ≠ .pending := by
      rw [hexpired]
      decide
    rw [reject, read_bind, hstored]
    dsimp only
    rw [if_pos hclosed, hexpired]
    rfl

theorem swept (hread : ReadsTimestamps rt) (h : Sound w.disk.approvals) : Swept rt w := by
  have hreadable := h.readable hread w.now
  have hcleaned : Sound (after rt (.cleanupExpired w.autoclean w.now) w.disk.approvals) :=
    h.after hread trivial
  have hafter := cleanupExpired_after rt w
  rw [← hafter] at hcleaned
  rw [after_cleanup hreadable] at hafter
  constructor
  · rw [cleanupExpired_count hreadable]
    refine congrArg Except.ok (List.countP_congr ?_)
    intro record hrecord
    simpa using stale_iff_due hread (h.dated record hrecord)
  · intro hclean
    rw [hafter, hclean, ← List.filterMap_eq_filter]
    refine List.filterMap_congr ?_
    intro record hrecord
    rw [afterCleanup_dated hread true (h.dated record hrecord)]
    by_cases hdue : Due w.now record <;> simp [cleaned, Option.guard, hdue]
  · intro hclean
    rw [hafter, hclean, ← List.filterMap_eq_map]
    refine List.filterMap_congr ?_
    intro record hrecord
    rw [afterCleanup_dated hread false (h.dated record hrecord)]
    by_cases hdue : Due w.now record <;> simp [cleaned, hdue]
  · intro w' hrecords hnow
    have hidle : ∀ record ∈ w'.disk.approvals, ¬ Stale rt w'.now record := by
      intro record hrecord
      rw [hrecords, hafter] at hrecord
      rw [hnow]
      exact not_stale_of_cleaned hrecord
    rw [← hrecords] at hcleaned
    exact cleanupExpired_idle (hcleaned.readable hread w'.now) hidle
  · intro record hrecord hdue later hstored hle
    exact due_refused hread (h.dated record hrecord) hstored (hdue.later hle)
  · intro record _ _ later hstored
    exact closed_refused hstored rfl

end Cleanup

def recordsAfter (rt : Runtime) (ops : List StoreOp) : List PendingApproval :=
  SerialRun.final (fun records op => after rt op records) [] ops

theorem run_maps {rt : Runtime} (hread : ReadsTimestamps rt) {ops : List StoreOp}
    (hops : ∀ op ∈ ops, DatedOp op) {records : List PendingApproval} (h : Sound records) :
    Sound (SerialRun.final (fun records op => after rt op records) records ops) ∧
      get (SerialRun.final (fun records op => after rt op records) records ops) =
        SerialRun.final mapped (get records) ops := by
  induction ops generalizing records with
  | nil => exact ⟨h, rfl⟩
  | cons op rest ih =>
    have hop := hops op List.mem_cons_self
    rw [SerialRun.final_cons, SerialRun.final_cons, ← get_after_mapped hread h]
    exact ih (fun other hother => hops other (List.mem_cons_of_mem _ hother)) (h.after hread hop)

/-- After any operations on timestamped records the store answers as the map does, lists
newest first, and cleans up exactly what is due. -/
theorem store_maps (rt : Runtime) (hread : ReadsTimestamps rt) (ops : List StoreOp)
    (hops : ∀ op ∈ ops, DatedOp op) :
    ((recordsAfter rt ops).map PendingApproval.id).Nodup ∧
      (∀ id, get (recordsAfter rt ops) id = SerialRun.final mapped (fun _ => none) ops id) ∧
      (∀ status, Listed status (recordsAfter rt ops) (listAll status (recordsAfter rt ops))) ∧
      ∀ w : World, w.disk.approvals = recordsAfter rt ops → Swept rt w := by
  have hempty : Sound [] := ⟨List.nodup_nil, fun _ hmem => nomatch hmem⟩
  obtain ⟨hsound, hget⟩ := run_maps hread hops hempty
  refine ⟨hsound.distinct, fun id => congrFun hget id, listAll_listed hsound.dated, ?_⟩
  intro w hrecords
  refine swept hread ?_
  rw [hrecords]
  exact hsound

def readingRuntime : Runtime := { plainRuntime with fromisoformat := fromIsoformat }

theorem readingRuntime_reads : ReadsTimestamps readingRuntime := by
  intro t h
  have hruntime : readingRuntime.fromisoformat = fromIsoformat := rfl
  rw [hruntime]
  exact fromIsoformat_isoformat h

theorem waiting_dated (id : String) : Dated (waiting id) := by
  have hcreated : "1970-01-01T00:00:00+00:00" = isoformat 0 := by decide
  have hexpires : "1970-01-04T00:00:00+00:00" = isoformat 259200000000 := by decide
  exact ⟨⟨0, by decide, hcreated⟩, 259200000000, by decide, hexpires⟩

def waitingOps : List StoreOp := [.upsert (waiting "a"), .cleanupExpired false 259200000000]

theorem waitingOps_dated : ∀ op ∈ waitingOps, DatedOp op :=
  List.forall_mem_cons.mpr ⟨waiting_dated "a",
    List.forall_mem_cons.mpr ⟨True.intro, fun _ hmem => nomatch hmem⟩⟩

theorem store_maps_waiting :
    ((recordsAfter readingRuntime waitingOps).map PendingApproval.id).Nodup ∧
      (∀ id, get (recordsAfter readingRuntime waitingOps) id =
        SerialRun.final mapped (fun _ => none) waitingOps id) ∧
      (∀ status, Listed status (recordsAfter readingRuntime waitingOps)
        (listAll status (recordsAfter readingRuntime waitingOps))) ∧
      ∀ w : World, w.disk.approvals = recordsAfter readingRuntime waitingOps →
        Swept readingRuntime w :=
  store_maps readingRuntime readingRuntime_reads waitingOps waitingOps_dated

def safeExpiry : World :=
  (freshWorld { exampleSurroundings with safeMode := true, now := 259200000000 }).writeStores
    fun d => { d with approvals := [waiting "a"] }

theorem safeExpiry_due : Due safeExpiry.now (waiting "a") :=
  ⟨rfl, 259200000000, ⟨by decide, by decide⟩, by decide⟩

/-- A cleanup takes the approval, but `approve` refuses it for the safe mode only. -/
theorem safe_mode_first :
    Dated (waiting "a") ∧
      safeExpiry.disk.approvals = recordsAfter readingRuntime [.upsert (waiting "a")] ∧
      (cleanupExpired readingRuntime safeExpiry).1 = .ok 1 ∧
      (approve readingRuntime "a" none exampleRegistry safeExpiry).1 = .error safeModeError ∧
      safeModeError ≠ expiredError := by
  have hsound : Sound safeExpiry.disk.approvals :=
    ⟨List.nodup_singleton _, List.forall_mem_singleton.mpr (waiting_dated "a")⟩
  have hswept := swept readingRuntime_reads hsound
  have hother : safeModeError ≠ expiredError := by
    intro hsame
    injection hsame with hcode
    cases hcode
  refine ⟨waiting_dated "a", rfl, ?_, ?_, hother⟩
  · rw [hswept.counts]
    refine congrArg Except.ok ?_
    exact List.countP_eq_length.mpr (List.forall_mem_singleton.mpr (by simpa using safeExpiry_due))
  · exact (hswept.wasRefused (waiting "a") List.mem_cons_self safeExpiry_due safeExpiry rfl
      le_rfl).1 none exampleRegistry

end ApprovalMap
