import Benjamin.ApprovalService

/-!
# What a cleanup does to the records

`cleanup_expired` counts the stale records and rewrites the list record by record, unless
it raises on a date of a pending record.
-/
namespace ApprovalCleanup

open PyBase AssistantState ApprovalStore ApprovalService

variable (rt : Runtime) (autoclean : Bool) (now : Int)

def Readable (records : List PendingApproval) : Prop :=
  ∀ record ∈ records, ∃ stale, staleRecord rt now record = .ok stale

def Stale (record : PendingApproval) : Prop := staleRecord rt now record = .ok true

instance (record : PendingApproval) : Decidable (Stale rt now record) :=
  match h : staleRecord rt now record with
  | .ok true => isTrue h
  | .ok false => isFalse fun hstale => by rw [Stale, h] at hstale; cases hstale
  | .error _ => isFalse fun hstale => by rw [Stale, h] at hstale; cases hstale

variable {rt autoclean now}

theorem Stale.pending {record : PendingApproval} (h : Stale rt now record) :
    record.status = .pending := by
  by_contra hclosed
  rw [Stale, staleRecord, if_neg hclosed] at h
  cases h

theorem afterCleanup_stale {record : PendingApproval} (h : Stale rt now record) :
    afterCleanup rt autoclean now record = cleaned autoclean record := by
  rw [Stale] at h
  simp [afterCleanup, h]

theorem afterCleanup_kept {record : PendingApproval} (h : ¬ Stale rt now record) :
    afterCleanup rt autoclean now record = some record := by
  rw [afterCleanup]
  split
  · rename_i hstale
    exact absurd hstale h
  · rfl

theorem cleanupRecords_readable {records : List PendingApproval} (h : Readable rt now records) :
    cleanupRecords rt autoclean now records =
      .ok (records.countP fun record => Stale rt now record,
        records.filterMap (afterCleanup rt autoclean now)) := by
  induction records with
  | nil => rfl
  | cons record rest ih =>
    have hrest := ih fun other hother => h other (List.mem_cons_of_mem _ hother)
    obtain ⟨stale, hrecord⟩ := h record List.mem_cons_self
    rw [cleanupRecords, hrecord, hrest]
    cases stale with
    | true =>
      have hstale : Stale rt now record := hrecord
      rw [List.countP_cons_of_pos (by simpa using hstale)]
      cases hcleaned : cleaned autoclean record with
      | none =>
        rw [List.filterMap_cons_none (by rw [afterCleanup_stale hstale, hcleaned])]
        rfl
      | some changed =>
        rw [List.filterMap_cons_some (by rw [afterCleanup_stale hstale, hcleaned])]
        rfl
    | false =>
      have hstale : ¬ Stale rt now record := by
        intro hyes
        cases hyes.symm.trans hrecord
      rw [List.countP_cons_of_neg (by simpa using hstale),
        List.filterMap_cons_some (afterCleanup_kept hstale)]
      rfl

theorem cleanupRecords_unreadable {records : List PendingApproval}
    (h : ¬ Readable rt now records) :
    ∃ e, cleanupRecords rt autoclean now records = .error e := by
  induction records with
  | nil => exact absurd (fun _ hmem => nomatch hmem) h
  | cons record rest ih =>
    rw [cleanupRecords]
    cases hrecord : staleRecord rt now record with
    | error e => exact ⟨e, rfl⟩
    | ok stale =>
      have hrest : ¬ Readable rt now rest := by
        intro hall
        apply h
        intro other hother
        rcases List.mem_cons.mp hother with rfl | hother
        · exact ⟨stale, hrecord⟩
        · exact hall other hother
      obtain ⟨e, he⟩ := ih hrest
      exact ⟨e, by rw [he]⟩

theorem filterMap_afterCleanup_idle {records : List PendingApproval}
    (h : ∀ record ∈ records, ¬ Stale rt now record) :
    records.filterMap (afterCleanup rt autoclean now) = records := by
  induction records with
  | nil => rfl
  | cons record rest ih =>
    rw [List.filterMap_cons_some (afterCleanup_kept (h record List.mem_cons_self)),
      ih fun other hother => h other (List.mem_cons_of_mem _ hother)]

/-- No record that a cleanup leaves is stale. -/
theorem not_stale_of_cleaned {records : List PendingApproval} {record : PendingApproval}
    (h : record ∈ records.filterMap (afterCleanup rt autoclean now)) : ¬ Stale rt now record := by
  intro hstale
  obtain ⟨before, -, hafter⟩ := List.mem_filterMap.mp h
  by_cases hbefore : Stale rt now before
  · rw [afterCleanup_stale hbefore, cleaned] at hafter
    split at hafter
    · cases hafter
    · cases hafter
      cases hstale.pending
  · rw [afterCleanup_kept hbefore] at hafter
    cases hafter
    exact hbefore hstale

end ApprovalCleanup
