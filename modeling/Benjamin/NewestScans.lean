import Benjamin.CorrelationView

/-!
# The bounded searches of the logs

A search goes through its log from the newest record on and stops as soon as it has as
many matches as the limit allows. The loops test the limit after every record, whether it
matches or not; what they find are the last matches of the log.
-/
namespace NewestScans

open PyBase ExecutionLedger AssistantState CompactionRace StoredRecords CappedSelection RunSearch
  CorrelationView

structure LastMatches {α : Type} (hit : α → Bool) (limit : Int) (records found : List α) :
    Prop where
  inOrder : found <:+ records.filter hit
  asMany : found.length = min limit.toNat (records.filter hit).length

section Searching

variable (rt : Runtime) (q correlationId : String) (limit : Int)

/-- The loop of a `search`, newest first. -/
def searchFrom {α : Type} (text : α → String) (records : List α) : List α :=
  let query := strip (rt.casefold q)
  if limit ≤ 0 then []
  else if query = "" then (newest limit.toNat records).reverse
  else collect (fun record => matchesQuery rt (text record) query) limit.toNat [] records.reverse

/-- `ExecutionLedger.search`. -/
def ledgerSearch (records : List LedgerRecord) : List LedgerRecord :=
  (searchFrom rt q limit ledgerText records).reverse

/-- `EpisodicMemoryStore.search`. -/
def episodicSearch (episodes : List StoredEpisode) : List StoredEpisode :=
  (searchFrom rt q limit episodeText episodes).reverse

/-- `TaskStore.search`. -/
def taskSearch (tasks : List StoredTask) : List StoredTask := searchFrom rt q limit taskText tasks

def matchesText {α : Type} (text : α → String) (record : α) : Bool :=
  decide (strip q = "") || matchesQuery rt (text record) (strip (rt.casefold q))

/-- Folding changes cased letters only, and a blank text has none. -/
def FoldsBlank : Prop := ∀ s, strip s = "" → strip (rt.casefold s) = ""

end Searching

section Found

variable {rt : Runtime} {q correlationId : String} {limit : Int} {α : Type} {hit : α → Bool}
  {records : List α}

theorem newest_lastMatches :
    LastMatches hit limit records (newest limit.toNat (records.filter hit)) :=
  ⟨List.drop_suffix _ _, length_newest⟩

theorem LastMatches.empty {found : List α} (h : LastMatches hit limit records found)
    (hlimit : limit ≤ 0) : found = [] := by
  have hlength := h.asMany
  rw [Int.toNat_of_nonpos hlimit, Nat.zero_min] at hlength
  exact List.length_eq_zero_iff.mp hlength

theorem findFrom_lastMatches :
    LastMatches hit limit records (findFrom hit limit records.reverse).reverse := by
  by_cases hlimit : limit ≤ 0
  · rw [findFrom, if_pos hlimit]
    exact ⟨List.nil_suffix, by simp [Int.toNat_of_nonpos hlimit]⟩
  · rw [findFrom_reverse (by omega)]
    exact newest_lastMatches

theorem matchesText_eq (hfold : FoldsBlank rt) (text : α → String) :
    records.filter (matchesText rt q text) = matched rt q text records := by
  by_cases hblank : strip q = ""
  · rw [matched_of_empty (hfold q hblank)]
    refine List.filter_eq_self.mpr fun record _ => ?_
    simp [matchesText, hblank]
  · refine List.filter_congr fun record _ => ?_
    simp [matchesText, hblank, queryOf]

theorem searchFrom_lastMatches (hfold : FoldsBlank rt) (text : α → String) :
    LastMatches (matchesText rt q text) limit records
      (searchFrom rt q limit text records).reverse := by
  by_cases hlimit : limit ≤ 0
  · rw [searchFrom, if_pos hlimit]
    exact ⟨List.nil_suffix, by simp [Int.toNat_of_nonpos hlimit]⟩
  · have hplaces : 0 < limit.toNat := by omega
    have hfound : (searchFrom rt q limit text records).reverse =
        newest limit.toNat (records.filter (matchesText rt q text)) := by
      rw [matchesText_eq hfold, searchFrom, if_neg hlimit]
      by_cases hempty : strip (rt.casefold q) = ""
      · rw [if_pos hempty, matched_of_empty hempty, List.reverse_reverse]
      · rw [if_neg hempty, collect_newest hplaces, List.reverse_reverse]
        rfl
    rw [hfound]
    exact newest_lastMatches

end Found

theorem scans_find_last_matches {rt : Runtime} (hfold : FoldsBlank rt) (q correlationId : String)
    (limit : Int) (records : List LedgerRecord) (episodes : List StoredEpisode)
    (tasks : List StoredTask) :
    LastMatches (matchesText rt q ledgerText) limit records (ledgerSearch rt q limit records) ∧
      LastMatches (carriesRecord correlationId) limit records
        (findRecords correlationId limit records) ∧
      LastMatches (matchesText rt q episodeText) limit episodes
        (episodicSearch rt q limit episodes) ∧
      LastMatches (carriesEpisode rt correlationId) limit episodes
        (findEpisodes rt correlationId limit episodes) ∧
      LastMatches (matchesText rt q taskText) limit tasks (taskSearch rt q limit tasks).reverse :=
  ⟨searchFrom_lastMatches hfold ledgerText, findFrom_lastMatches,
    searchFrom_lastMatches hfold episodeText, findFrom_lastMatches,
    searchFrom_lastMatches hfold taskText⟩

theorem mailRuntime_foldsBlank : FoldsBlank mailRuntime := by
  intro s hblank
  have hsame : mailRuntime.casefold s = s := rfl
  rw [hsame]
  exact hblank

/-- A blank query finds the newest task, and no limit below 1 finds any. -/
theorem newest_mail_found :
    LastMatches (matchesText mailRuntime " " taskText) 1 mailStores.tasks
        (taskSearch mailRuntime " " 1 mailStores.tasks).reverse ∧
      (taskSearch mailRuntime " " 1 mailStores.tasks).map StoredTask.taskId = ["t2"] ∧
      taskSearch mailRuntime "mail" (-1) mailStores.tasks = [] := by
  have hfound := scans_find_last_matches mailRuntime_foldsBlank " " "" 1 [] [] mailStores.tasks
  exact ⟨hfound.2.2.2.2, by decide +kernel, rfl⟩

end NewestScans
