import Benjamin.CappedSelection
import Benjamin.StoredRecords
import Benjamin.RuleMatching

/-!
# Searching the runs

`search_runs` over the four stores. The logs are searched from their newest record on and
cut to the limit before the caller looks at status and kind; the approvals are cut last.
So a section of a log is short when a newer match has taken the place of one that it
should show.
-/
namespace RunSearch

open PyBase PlanSchemas ExecutionLedger AssistantState CompactionRace StoredRecords RuleMatching
  CappedSelection

/-- `json.dumps(value, ensure_ascii=False)`. -/
def dumpsText (d : Dict) : String := dumpsWith ⟨", ", ": ", false, false⟩ (.obj d)

/-- `(step.get("error") or "").casefold()`. -/
def stepError (rt : Runtime) (step : Dict) : Except PyError String :=
  match (step.lookup "error").orEmpty with
  | .str text => .ok (rt.casefold text)
  | _ => .error (.other "object has no attribute 'casefold'")

def onlyApprovalRequired (rt : Runtime) : List Dict → Except PyError Bool
  | [] => .ok true
  | step :: rest =>
    match stepError rt step with
    | .error e => .error e
    | .ok text => if text = "approval_required" then onlyApprovalRequired rt rest else .ok false

def isSkip (event : Dict) : Bool :=
  match event.lookup "event" with
  | .str name => decide (name = "idempotent_skip")
  | _ => false

/-- `_task_status`. -/
def taskStatus (rt : Runtime) (task : StoredTask) : Except PyError String :=
  if occursIn "skipped" (rt.casefold task.answer) then .ok "skipped"
  else if task.traceEvents.any isSkip then .ok "skipped"
  else
    match task.stepResults.filter fun step => !(step.lookup "ok").isTruthy with
    | [] => .ok "ok"
    | failures => (onlyApprovalRequired rt failures).map fun only => if only then "ok" else "failed"

/-- `_episode_status`. -/
def episodeStatus (episode : StoredEpisode) : String :=
  match episode.metadata.lookup "ok" with
  | .bool false => "failed"
  | _ => "ok"

/-- Whether the output says that the execution was skipped, its spaces left out. -/
def saysSkipped (result : StepResult) : Bool :=
  match result.output with
  | none => false
  | some output => occursIn "\"skipped\":true" (String.ofList (output.toList.filter (· ≠ ' ')))

/-- `_approval_status`. -/
def approvalStatus (approval : StoredApproval) : String :=
  match approval.status, approval.result with
  | .rejected, _ | .expired, _ => "failed"
  | .approved, some result =>
    if saysSkipped result then "skipped" else if result.ok then "ok" else "failed"
  | .approved, none | .pending, _ => "ok"

/-- `_matches_query`. -/
def matchesQuery (rt : Runtime) (text query : String) : Bool := occursIn query (rt.casefold text)

def searchLog {α : Type} (rt : Runtime) (text : α → String) (q : String) (limit : Nat)
    (records : List α) : List α :=
  let query := strip (rt.casefold q)
  if limit = 0 then []
  else if query = "" then (newest limit records).reverse
  else collect (fun record => matchesQuery rt (text record) query) limit [] records.reverse

def taskText (task : StoredTask) : String :=
  " ".intercalate [task.taskId, task.correlationId, task.userMessage, task.answer]

def episodeText (episode : StoredEpisode) : String :=
  " ".intercalate [episode.kind, episode.summary, dumpsText episode.metadata]

def ledgerText (record : LedgerRecord) : String :=
  " ".intercalate [record.key, kindStr record.kind, statusStr record.status,
    record.correlationId.getD "", dumpsText record.metadata]

def approvalText (approval : StoredApproval) : String :=
  " ".intercalate [approval.id, approval.status.str, approval.step.id,
    approval.step.skillName.getD "",
    dumpsText approval.requester]

/-- `ApprovalStore.list_all` without a status. -/
def listApprovals (approvals : List StoredApproval) : List StoredApproval :=
  greatestFirst StoredApproval.createdAtIso approvals

/-- `TaskStore.search`. -/
def searchTasks (rt : Runtime) (q : String) (limit : Nat) (records : List StoredTask) :
    List StoredTask :=
  searchLog rt taskText q limit records

/-- `EpisodicMemoryStore.search`, oldest first. -/
def searchEpisodes (rt : Runtime) (q : String) (limit : Nat) (episodes : List StoredEpisode) :
    List StoredEpisode :=
  (searchLog rt episodeText q limit episodes).reverse

/-- `ExecutionLedger.search`, oldest first. -/
def searchLedger (rt : Runtime) (q : String) (limit : Nat) (records : List LedgerRecord) :
    List LedgerRecord :=
  (searchLog rt ledgerText q limit records).reverse

structure RunStores where
  tasks : List StoredTask
  episodes : List StoredEpisode
  ledger : List LedgerRecord
  approvals : List StoredApproval

inductive EpisodeSection where
  | ruleRuns | jobRuns | approvalAudits | policyAudits
  deriving DecidableEq, Repr

def EpisodeSection.kinds : EpisodeSection → List String
  | .ruleRuns => ["rule"]
  | .jobRuns => ["briefing", "notification", "job"]
  | .approvalAudits => ["approval"]
  | .policyAudits => ["policy"]

inductive SectionName where
  | tasks
  | episodes (part : EpisodeSection)
  | ledgerRecords
  | approvals
  deriving DecidableEq, Repr

def emptied (kind : String) : List SectionName :=
  if kind = "chat" then
    [.episodes .ruleRuns, .episodes .jobRuns, .episodes .approvalAudits, .episodes .policyAudits,
      .ledgerRecords, .approvals]
  else if kind = "rule" then
    [.tasks, .episodes .jobRuns, .episodes .approvalAudits, .episodes .policyAudits,
      .ledgerRecords, .approvals]
  else if kind = "job" then
    [.tasks, .episodes .ruleRuns, .episodes .approvalAudits, .episodes .policyAudits,
      .ledgerRecords, .approvals]
  else if kind = "approval" then
    [.tasks, .episodes .ruleRuns, .episodes .jobRuns, .episodes .policyAudits, .ledgerRecords]
  else if kind = "policy" then
    [.tasks, .episodes .ruleRuns, .episodes .jobRuns, .episodes .approvalAudits, .ledgerRecords,
      .approvals]
  else []

structure Sections where
  tasks : List StoredTask
  episodes : EpisodeSection → List StoredEpisode
  ledgerRecords : List LedgerRecord
  approvals : List StoredApproval

def unlessEmptied {α : Type} (kind : String) (name : SectionName) (records : List α) : List α :=
  if name ∈ emptied kind then [] else records

/-- `[record for record in records if ... == status]`, unless the status is `all`. -/
def byStatus {α : Type} (status : String) (statusOf : α → String) (records : List α) :
    List α :=
  if status = "all" then records else records.filter fun record => decide (statusOf record = status)

def tasksByStatus (rt : Runtime) (status : String) :
    List StoredTask → Except PyError (List StoredTask)
  | [] => .ok []
  | task :: rest =>
    match taskStatus rt task with
    | .error e => .error e
    | .ok found =>
      match tasksByStatus rt status rest with
      | .error e => .error e
      | .ok kept => .ok (if found = status then task :: kept else kept)

def byQuery {α : Type} (rt : Runtime) (query : String) (text : α → String) (records : List α) :
    List α :=
  if query = "" then records else records.filter fun record => matchesQuery rt (text record) query

def clamped (limit : Int) : Nat := (max 1 (min 200 limit)).toNat

/-- `search_runs`. -/
def searchRuns (rt : Runtime) (kind status q : String) (limit : Int) (stores : RunStores) :
    Except PyError Sections :=
  let limit := clamped limit
  let query := strip (rt.casefold q)
  let found := searchTasks rt query limit stores.tasks
  match if status = "all" then .ok found else tasksByStatus rt status found with
  | .error e => .error e
  | .ok tasks =>
    let episodes := byStatus status episodeStatus (searchEpisodes rt query limit stores.episodes)
    let ledgerRecords := byStatus status (fun record => statusStr record.status)
      (searchLedger rt query limit stores.ledger)
    let approvals := byStatus status approvalStatus
      (byQuery rt query approvalText (listApprovals stores.approvals))
    .ok
      { tasks := unlessEmptied kind .tasks ((byQuery rt query taskText tasks).take limit)
        episodes := fun part => unlessEmptied kind (.episodes part)
          ((episodes.filter fun episode => decide (episode.kind ∈ part.kinds)).take limit)
        ledgerRecords := unlessEmptied kind .ledgerRecords (ledgerRecords.take limit)
        approvals := unlessEmptied kind .approvals (approvals.take limit) }

section Specification

variable (rt : Runtime) (kind status q : String) (limit : Int) (stores : RunStores)

/-- Folding leaves alone what is stripped of a folded text. -/
def FoldsOnce : Prop := ∀ s, rt.casefold (strip (rt.casefold s)) = strip (rt.casefold s)

def queryOf : String := strip (rt.casefold q)

def matched {α : Type} (text : α → String) (records : List α) : List α :=
  records.filter fun record => matchesQuery rt (text record) (queryOf rt q)

def taskPasses (task : StoredTask) : Bool :=
  decide (status = "all") ||
    match taskStatus rt task with
    | .ok found => decide (found = status)
    | .error _ => false

def statusPasses {α : Type} (statusOf : α → String) (record : α) : Bool :=
  decide (status = "all" ∨ statusOf record = status)

def episodePasses (part : EpisodeSection) (episode : StoredEpisode) : Bool :=
  decide (episode.kind ∈ part.kinds) && statusPasses status episodeStatus episode

def wantedApprovals : List StoredApproval :=
  (matched rt q approvalText stores.approvals).filter (statusPasses status approvalStatus)

/-- As many of the approvals as there are places; none left out was created after one of
them. -/
def NewestApprovals (places : Nat) (approvals shown : List StoredApproval) : Prop :=
  shown.length = min places approvals.length ∧ ∃ rest, (shown ++ rest).Perm approvals ∧
    ∀ a ∈ shown, ∀ b ∈ rest, b.createdAtIso ≤ a.createdAtIso

/-- Each section of the kind holds the newest of the records that it is for. -/
structure Complete (sections : Sections) : Prop where
  tasks : .tasks ∉ emptied kind → sections.tasks.Perm
    (newest (clamped limit) ((matched rt q taskText stores.tasks).filter (taskPasses rt status)))
  episodes : ∀ part, .episodes part ∉ emptied kind → (sections.episodes part).Perm
    (newest (clamped limit)
      ((matched rt q episodeText stores.episodes).filter (episodePasses status part)))
  ledgerRecords : .ledgerRecords ∉ emptied kind → sections.ledgerRecords.Perm
    (newest (clamped limit) ((matched rt q ledgerText stores.ledger).filter
      (statusPasses status fun record => statusStr record.status)))
  approvals : .approvals ∉ emptied kind →
    NewestApprovals (clamped limit) (wantedApprovals rt status q stores) sections.approvals

def FindsAll : Prop :=
  ∃ sections, searchRuns rt kind status q limit stores = .ok sections ∧
    Complete rt kind status q limit stores sections

/-- The newest matches all pass, or no older match does. -/
def Unhindered {α : Type} (places : Nat) (passes : α → Bool) (candidates : List α) : Prop :=
  (∀ x ∈ newest places candidates, passes x = true) ∨
    ∀ x ∈ older places candidates, passes x = false

/-- The newest matching tasks have a status, and in no log that the kind shows does a match
that fails the filters take the place of an older one that passes them. -/
structure RoomForAll : Prop where
  readable : status = "all" ∨
    ∀ task ∈ newest (clamped limit) (matched rt q taskText stores.tasks),
      ∃ found, taskStatus rt task = .ok found
  tasks : .tasks ∉ emptied kind →
    Unhindered (clamped limit) (taskPasses rt status) (matched rt q taskText stores.tasks)
  episodes : ∀ part, .episodes part ∉ emptied kind →
    Unhindered (clamped limit) (episodePasses status part)
      (matched rt q episodeText stores.episodes)
  ledgerRecords : .ledgerRecords ∉ emptied kind →
    Unhindered (clamped limit) (statusPasses status fun record => statusStr record.status)
      (matched rt q ledgerText stores.ledger)

end Specification

section Searches

variable {rt : Runtime} {kind status q : String} {limit : Int} {stores : RunStores}

theorem clamped_pos : 0 < clamped limit := by
  rw [clamped]
  omega

theorem queryOf_queryOf (h : FoldsOnce rt) : queryOf rt (queryOf rt q) = queryOf rt q := by
  rw [queryOf, queryOf, h, JsonLines.strip_strip]

theorem matchesQuery_empty (text : String) : matchesQuery rt text "" = true := by
  rw [matchesQuery, occursIn]
  cases (rt.casefold text).toList <;> rfl

variable {α : Type} {text : α → String} {records : List α}

theorem matched_of_empty (h : queryOf rt q = "") : matched rt q text records = records := by
  rw [matched, h]
  exact List.filter_eq_self.mpr fun record _ => matchesQuery_empty (text record)

theorem byQuery_eq : byQuery rt (queryOf rt q) text records = matched rt q text records := by
  rw [byQuery]
  split_ifs with hempty
  · exact (matched_of_empty hempty).symm
  · rfl

theorem searchLog_eq (h : FoldsOnce rt) {n : Nat} (hn : 0 < n) :
    searchLog rt text (queryOf rt q) n records =
      (newest n (matched rt q text records)).reverse := by
  have hquery : strip (rt.casefold (queryOf rt q)) = queryOf rt q := queryOf_queryOf h
  simp only [searchLog, hquery]
  rw [if_neg (by omega)]
  split_ifs with hempty
  · rw [matched_of_empty hempty]
  · exact collect_newest hn

theorem byStatus_eq {statusOf : α → String} :
    byStatus status statusOf records = records.filter (statusPasses status statusOf) := by
  rw [byStatus]
  split_ifs with hall
  · refine (List.filter_eq_self.mpr fun record _ => ?_).symm
    exact decide_eq_true (.inl hall)
  · refine List.filter_congr fun record _ => ?_
    simp [statusPasses, hall]

theorem unlessEmptied_shown {name : SectionName} (h : name ∉ emptied kind) :
    unlessEmptied kind name records = records := if_neg h

end Searches

section Tasks

variable {rt : Runtime} {status : String} {tasks kept : List StoredTask}

theorem tasksByStatus_ok_iff (hstatus : status ≠ "all") :
    tasksByStatus rt status tasks = .ok kept ↔
      (∀ task ∈ tasks, ∃ found, taskStatus rt task = .ok found) ∧
        kept = tasks.filter (taskPasses rt status) := by
  induction tasks generalizing kept with
  | nil => simp [tasksByStatus, eq_comm]
  | cons task rest ih =>
    rw [tasksByStatus]
    cases hfound : taskStatus rt task with
    | error e => simp [hfound]
    | ok found =>
      have hpasses : taskPasses rt status task = decide (found = status) := by
        simp [taskPasses, hfound, hstatus]
      cases hrest : tasksByStatus rt status rest with
      | error e =>
        have hnone : ¬ ∀ task ∈ rest, ∃ found, taskStatus rt task = .ok found := by
          intro hall
          have hok := ih.mpr ⟨hall, rfl⟩
          rw [hrest] at hok
          exact nomatch hok
        simp only [reduceCtorEq, false_iff]
        rintro ⟨hall, -⟩
        exact hnone fun task htask => hall task (List.mem_cons_of_mem _ htask)
      | ok others =>
        obtain ⟨hall, hothers⟩ := ih.mp hrest
        have hevery : ∀ other ∈ task :: rest, ∃ found, taskStatus rt other = .ok found :=
          List.forall_mem_cons.mpr ⟨⟨found, hfound⟩, hall⟩
        have hfilter : (task :: rest).filter (taskPasses rt status) =
            if found = status then task :: others else others := by
          rw [List.filter_cons, hpasses, hothers]
          simp
        rw [hfilter, Except.ok.injEq]
        constructor
        · intro hkept
          exact ⟨hevery, hkept.symm⟩
        · intro hkept
          exact hkept.2.symm

theorem passing_tasks_ok_iff :
    (if status = "all" then .ok tasks else tasksByStatus rt status tasks) = .ok kept ↔
      (status = "all" ∨ ∀ task ∈ tasks, ∃ found, taskStatus rt task = .ok found) ∧
        kept = tasks.filter (taskPasses rt status) := by
  by_cases hall : status = "all"
  · have hself : tasks.filter (taskPasses rt status) = tasks :=
      List.filter_eq_self.mpr fun task _ => by simp [taskPasses, hall]
    rw [if_pos hall, hself, Except.ok.injEq]
    constructor
    · intro hkept
      exact ⟨.inl hall, hkept.symm⟩
    · intro hkept
      exact hkept.2.symm
  · rw [if_neg hall, tasksByStatus_ok_iff hall, or_iff_right hall]

end Tasks

section Shown

variable {rt : Runtime} {kind status q : String} {limit : Int} {stores : RunStores}
  {sections : Sections}

variable (rt kind status q limit stores) in
def shown : Sections where
  tasks := unlessEmptied kind .tasks
    ((newest (clamped limit) (matched rt q taskText stores.tasks)).reverse.filter
      (taskPasses rt status))
  episodes part := unlessEmptied kind (.episodes part)
    ((newest (clamped limit) (matched rt q episodeText stores.episodes)).filter
      (episodePasses status part))
  ledgerRecords := unlessEmptied kind .ledgerRecords
    ((newest (clamped limit) (matched rt q ledgerText stores.ledger)).filter
      (statusPasses status fun record => statusStr record.status))
  approvals := unlessEmptied kind .approvals
    (((matched rt q approvalText (listApprovals stores.approvals)).filter
      (statusPasses status approvalStatus)).take (clamped limit))

theorem shown_tasks (h : .tasks ∉ emptied kind) :
    (shown rt kind status q limit stores).tasks =
      (newest (clamped limit) (matched rt q taskText stores.tasks)).reverse.filter
        (taskPasses rt status) := unlessEmptied_shown h

theorem shown_episodes {part : EpisodeSection} (h : .episodes part ∉ emptied kind) :
    (shown rt kind status q limit stores).episodes part =
      (newest (clamped limit) (matched rt q episodeText stores.episodes)).filter
        (episodePasses status part) := unlessEmptied_shown h

theorem shown_ledgerRecords (h : .ledgerRecords ∉ emptied kind) :
    (shown rt kind status q limit stores).ledgerRecords =
      (newest (clamped limit) (matched rt q ledgerText stores.ledger)).filter
        (statusPasses status fun record => statusStr record.status) := unlessEmptied_shown h

theorem shown_approvals (h : .approvals ∉ emptied kind) :
    (shown rt kind status q limit stores).approvals =
      ((matched rt q approvalText (listApprovals stores.approvals)).filter
        (statusPasses status approvalStatus)).take (clamped limit) := unlessEmptied_shown h

theorem take_filter_newest {α : Type} {passes : α → Bool} {n : Nat} {records : List α} :
    ((newest n records).filter passes).take n = (newest n records).filter passes := by
  refine List.take_of_length_le ?_
  calc ((newest n records).filter passes).length
      ≤ (newest n records).length := List.length_filter_le _ _
    _ = min n records.length := length_newest
    _ ≤ n := Nat.min_le_left _ _

theorem take_filter_newest_reverse {α : Type} {passes : α → Bool} {n : Nat}
    {records : List α} :
    ((newest n records).reverse.filter passes).take n =
      (newest n records).reverse.filter passes := by
  refine List.take_of_length_le ?_
  rw [List.filter_reverse, List.length_reverse, ← take_filter_newest, List.length_take]
  exact Nat.min_le_left _ _

theorem matched_found {passes : StoredTask → Bool} {n : Nat} {tasks : List StoredTask} :
    matched rt q taskText ((newest n (matched rt q taskText tasks)).reverse.filter passes) =
      (newest n (matched rt q taskText tasks)).reverse.filter passes := by
  refine List.filter_eq_self.mpr fun task htask => ?_
  have hfound := List.mem_reverse.mp (List.mem_filter.mp htask).1
  exact (List.mem_filter.mp (List.mem_of_mem_drop hfound)).2

theorem searchRuns_ok_iff (h : FoldsOnce rt) :
    searchRuns rt kind status q limit stores = .ok sections ↔
      (status = "all" ∨ ∀ task ∈ newest (clamped limit) (matched rt q taskText stores.tasks),
        ∃ found, taskStatus rt task = .ok found) ∧
      sections = shown rt kind status q limit stores := by
  have htasks : searchTasks rt (queryOf rt q) (clamped limit) stores.tasks =
      (newest (clamped limit) (matched rt q taskText stores.tasks)).reverse :=
    searchLog_eq h clamped_pos
  have hepisodes : searchEpisodes rt (queryOf rt q) (clamped limit) stores.episodes =
      newest (clamped limit) (matched rt q episodeText stores.episodes) := by
    rw [searchEpisodes, searchLog_eq h clamped_pos, List.reverse_reverse]
  have hledger : searchLedger rt (queryOf rt q) (clamped limit) stores.ledger =
      newest (clamped limit) (matched rt q ledgerText stores.ledger) := by
    rw [searchLedger, searchLog_eq h clamped_pos, List.reverse_reverse]
  have hreadable_iff : (status = "all" ∨
        ∀ task ∈ newest (clamped limit) (matched rt q taskText stores.tasks),
          ∃ found, taskStatus rt task = .ok found) ↔
      (status = "all" ∨
        ∀ task ∈ (newest (clamped limit) (matched rt q taskText stores.tasks)).reverse,
          ∃ found, taskStatus rt task = .ok found) := by
    simp only [List.mem_reverse]
  have hquery : strip (rt.casefold q) = queryOf rt q := rfl
  simp only [searchRuns, hquery, htasks, hepisodes, hledger, byStatus_eq, byQuery_eq]
  rw [hreadable_iff]
  split
  · next e herror =>
    simp only [reduceCtorEq, false_iff]
    rintro ⟨hreadable, -⟩
    have hok := passing_tasks_ok_iff.mpr ⟨hreadable, rfl⟩
    rw [herror] at hok
    exact nomatch hok
  · next tasks hok =>
    obtain ⟨hreadable, rfl⟩ := passing_tasks_ok_iff.mp hok
    rw [Except.ok.injEq, matched_found, take_filter_newest_reverse]
    simp only [List.filter_filter, take_filter_newest]
    constructor
    · intro hsections
      exact ⟨hreadable, hsections.symm⟩
    · intro hsections
      exact hsections.2.symm

theorem newestApprovals_take {approvals sorted : List StoredApproval}
    (hperm : sorted.Perm approvals)
    (hsorted : sorted.Pairwise fun a b => b.createdAtIso ≤ a.createdAtIso) (places : Nat) :
    NewestApprovals places approvals (sorted.take places) := by
  rw [← List.take_append_drop places sorted, List.pairwise_append] at hsorted
  refine ⟨?_, sorted.drop places, ?_, hsorted.2.2⟩
  · rw [List.length_take, hperm.length_eq]
  · rw [List.take_append_drop]
    exact hperm

/-- The approvals are filtered before they are cut, so none hinders another. -/
theorem newestApprovals_listed (places : Nat) :
    NewestApprovals places (wantedApprovals rt status q stores)
      (((matched rt q approvalText (listApprovals stores.approvals)).filter
        (statusPasses status approvalStatus)).take places) := by
  refine newestApprovals_take ?_ ?_ places
  · have hlisted : (listApprovals stores.approvals).Perm stores.approvals := greatestFirst_perm _ _
    exact (hlisted.filter _).filter _
  · exact ((greatestFirst_sorted StoredApproval.createdAtIso stores.approvals).filter _).filter _

theorem reverse_filter_perm {α : Type} {passes : α → Bool} {records other : List α} :
    (records.reverse.filter passes).Perm other ↔ (records.filter passes).Perm other := by
  rw [List.filter_reverse]
  exact (List.reverse_perm _).congr_left _

theorem shown_complete_iff :
    Complete rt kind status q limit stores (shown rt kind status q limit stores) ↔
      (.tasks ∉ emptied kind →
        Unhindered (clamped limit) (taskPasses rt status) (matched rt q taskText stores.tasks)) ∧
      (∀ part, .episodes part ∉ emptied kind →
        Unhindered (clamped limit) (episodePasses status part)
          (matched rt q episodeText stores.episodes)) ∧
      (.ledgerRecords ∉ emptied kind →
        Unhindered (clamped limit) (statusPasses status fun record => statusStr record.status)
          (matched rt q ledgerText stores.ledger)) := by
  constructor
  · intro hcomplete
    refine ⟨?_, ?_, ?_⟩
    · intro hname
      have hperm := hcomplete.tasks hname
      rw [shown_tasks hname, reverse_filter_perm] at hperm
      exact filter_newest_perm_iff.mp hperm
    · intro part hname
      have hperm := hcomplete.episodes part hname
      rw [shown_episodes hname] at hperm
      exact filter_newest_perm_iff.mp hperm
    · intro hname
      have hperm := hcomplete.ledgerRecords hname
      rw [shown_ledgerRecords hname] at hperm
      exact filter_newest_perm_iff.mp hperm
  · rintro ⟨htasks, hepisodes, hledger⟩
    constructor
    case tasks =>
      intro hname
      rw [shown_tasks hname, reverse_filter_perm]
      exact filter_newest_perm_iff.mpr (htasks hname)
    case episodes =>
      intro part hname
      rw [shown_episodes hname]
      exact filter_newest_perm_iff.mpr (hepisodes part hname)
    case ledgerRecords =>
      intro hname
      rw [shown_ledgerRecords hname]
      exact filter_newest_perm_iff.mpr (hledger hname)
    case approvals =>
      intro hname
      rw [shown_approvals hname]
      exact newestApprovals_listed _

/-- A search shows all that it should iff every newest match has a status and no match
that the filters drop has taken a place in a log from an older one that passes. -/
theorem finds_all_iff (h : FoldsOnce rt) :
    FindsAll rt kind status q limit stores ↔ RoomForAll rt kind status q limit stores := by
  constructor
  · rintro ⟨sections, hok, hcomplete⟩
    obtain ⟨hreadable, rfl⟩ := (searchRuns_ok_iff h).mp hok
    obtain ⟨htasks, hepisodes, hledger⟩ := shown_complete_iff.mp hcomplete
    exact ⟨hreadable, htasks, hepisodes, hledger⟩
  · intro hroom
    exact ⟨_, (searchRuns_ok_iff h).mpr ⟨hroom.readable, rfl⟩,
      shown_complete_iff.mpr ⟨hroom.tasks, hroom.episodes, hroom.ledgerRecords⟩⟩

end Shown

def mailRuntime : Runtime := exampleRuntime (fun _ => .returned "") fun _ => none

theorem mailRuntime_foldsOnce : FoldsOnce mailRuntime := fun _ => rfl

def mailTask (taskId answer : String) (stepResults : List Dict) : StoredTask :=
  { taskId, tsIso := "1970-01-01T00:00:00+00:00", source := "chat",
    userMessage := "send the mail", plan := [], stepResults, approvalsCreated := [], answer,
    traceEvents := [], correlationId := taskId }

def mailEpisode (id kind : String) : StoredEpisode :=
  { kind, summary := "mail", metadata := [], id, tsIso := "1970-01-01T00:00:00+00:00" }

def mailStores : RunStores where
  tasks :=
    [mailTask "t1" "the mail was refused" [[("ok", .bool false), ("error", .str "timeout")]],
      mailTask "t2" "the mail is out" [[("ok", .bool true)]]]
  episodes := [mailEpisode "e1" "policy", mailEpisode "e2" "rule"]
  ledger := []
  approvals := []

/-- Two places are enough for two tasks. -/
theorem finds_all_mail : FindsAll mailRuntime "chat" "failed" "mail" 2 mailStores := by
  refine (finds_all_iff mailRuntime_foldsOnce).mpr ⟨.inr ?_, ?_, ?_, ?_⟩
  · intro task htask
    have hstored : task ∈ mailStores.tasks :=
      (List.mem_filter.mp (List.mem_of_mem_drop htask)).1
    rw [mailStores, List.mem_pair] at hstored
    rcases hstored with rfl | rfl
    · exact ⟨"failed", rfl⟩
    · exact ⟨"ok", rfl⟩
  · intro _
    exact .inr (by decide +kernel)
  · intro part hname
    exact absurd (by cases part <;> decide) hname
  · intro hname
    exact absurd (by decide) hname

/-- With one place, a task that succeeded hides the older one that failed, and an episode
of a rule the older one of the policy. -/
theorem newer_match_hides_older :
    ¬ FindsAll mailRuntime "chat" "failed" "" 1 mailStores ∧
    ¬ FindsAll mailRuntime "policy" "all" "" 1 mailStores := by
  constructor
  · rintro ⟨sections, hok, hcomplete⟩
    obtain ⟨-, rfl⟩ := (searchRuns_ok_iff mailRuntime_foldsOnce).mp hok
    have hlength := (hcomplete.tasks (by decide)).length_eq
    rw [shown_tasks (by decide)] at hlength
    exact absurd hlength (by decide +kernel)
  · rintro ⟨sections, hok, hcomplete⟩
    obtain ⟨-, rfl⟩ := (searchRuns_ok_iff mailRuntime_foldsOnce).mp hok
    have hlength := (hcomplete.episodes .policyAudits (by decide)).length_eq
    rw [shown_episodes (by decide)] at hlength
    exact absurd hlength (by decide +kernel)

end RunSearch
