import Benjamin.RunSearch

/-!
# The view of one correlation id

`build_correlation_view` over the four stores. The episodes, the ledger records and the
approvals are first selected by the id and then cut to the limit. The tasks are cut
before they are selected, so newer tasks of other requests push out the ones that the
view is about, and with them the approvals that only they name.
-/
namespace CorrelationView

open PyBase PlanSchemas SecurityPolicy ExecutionLedger AssistantState CompactionRace StoredRecords
  CappedSelection RunSearch

structure ViewStores where
  tasks : List StoredTask
  episodes : List StoredEpisode
  ledger : List LedgerRecord
  approvals : List StoredApproval

/-- `str(d.get("correlation_id", ""))`. -/
def correlationOf (rt : Runtime) (d : Dict) : String :=
  pyStr rt ((field d "correlation_id").getD (.str ""))

def carriesTask (correlationId : String) (task : StoredTask) : Bool :=
  decide (task.correlationId = correlationId)

def carriesEpisode (rt : Runtime) (correlationId : String) (episode : StoredEpisode) : Bool :=
  decide (correlationOf rt episode.metadata = correlationId)

def carriesRecord (correlationId : String) (record : LedgerRecord) : Bool :=
  decide (record.correlationId = some correlationId)

def requesterCarries (rt : Runtime) (correlationId : String) (approval : StoredApproval) : Bool :=
  decide (correlationOf rt approval.requester = correlationId)

def carriesApproval (rt : Runtime) (correlationId : String) (approval : StoredApproval) : Bool :=
  requesterCarries rt correlationId approval ||
    decide (correlationOf rt approval.context = correlationId)

/-- `TaskStore.list_recent`. -/
def listRecent (limit : Int) (tasks : List StoredTask) : List StoredTask :=
  if limit ≤ 0 then [] else (newest limit.toNat tasks).reverse

/-- The loop of a `find_by_correlation`. -/
def findFrom {α : Type} (hit : α → Bool) (limit : Int) (records : List α) : List α :=
  if limit ≤ 0 then [] else collect hit limit.toNat [] records

/-- `EpisodicMemoryStore.find_by_correlation`. -/
def findEpisodes (rt : Runtime) (correlationId : String) (limit : Int)
    (episodes : List StoredEpisode) : List StoredEpisode :=
  (findFrom (carriesEpisode rt correlationId) limit episodes.reverse).reverse

/-- `ExecutionLedger.find_by_correlation`. -/
def findRecords (correlationId : String) (limit : Int) (records : List LedgerRecord) :
    List LedgerRecord :=
  (findFrom (carriesRecord correlationId) limit records.reverse).reverse

/-- `ApprovalStore.find_by_correlation`. -/
def findApprovals (rt : Runtime) (correlationId : String) (limit : Int)
    (approvals : List StoredApproval) : List StoredApproval :=
  findFrom (carriesApproval rt correlationId) limit (listApprovals approvals)

structure DerivedIds where
  approvalIds : List String
  taskIds : List String

structure View where
  correlationId : String
  tasks : List StoredTask
  episodes : List StoredEpisode
  ledgerRecords : List LedgerRecord
  approvals : List StoredApproval
  derivedIds : DerivedIds

def episodeApproval (rt : Runtime) (episode : StoredEpisode) : Option String :=
  let value := episode.metadata.lookup "approval_id"
  if value.isTruthy then some (pyStr rt value) else none

def namedIds (rt : Runtime) (tasks : List StoredTask) (episodes : List StoredEpisode) :
    List String :=
  tasks.flatMap StoredTask.approvalsCreated ++ episodes.filterMap (episodeApproval rt)

def assignments (rt : Runtime) (correlationId : String) (limit : Int) (named : List String)
    (approvals : List StoredApproval) : List StoredApproval :=
  findApprovals rt correlationId limit approvals ++
    (listApprovals approvals).filter fun approval => decide (approval.id ∈ named)

/-- `build_correlation_view`. -/
def buildCorrelationView (rt : Runtime) (correlationId : String) (stores : ViewStores)
    (limit : Int) : View :=
  let tasks := (listRecent limit stores.tasks).filter (carriesTask correlationId)
  let episodes := findEpisodes rt correlationId limit stores.episodes
  let named := namedIds rt tasks episodes
  { correlationId
    tasks
    episodes
    ledgerRecords := findRecords correlationId limit stores.ledger
    approvals := greatestFirst StoredApproval.createdAtIso
      (KeyedList.assigned StoredApproval.id
        (assignments rt correlationId limit named stores.approvals))
    derivedIds := ⟨sortedSet named, sortedSet (tasks.map StoredTask.taskId)⟩ }

section Specification

variable (rt : Runtime) (correlationId : String) (stores : ViewStores) (limit : Int)

/-- Among the newest whose requester carries the id, or named by what the view shows. -/
def Wanted (tasks : List StoredTask) (episodes : List StoredEpisode)
    (approval : StoredApproval) : Prop :=
  approval ∈ ((listApprovals stores.approvals).filter
      (requesterCarries rt correlationId)).take limit.toNat ∨
    (approval ∈ stores.approvals ∧ approval.id ∈ namedIds rt tasks episodes)

structure CompleteView (view : View) : Prop where
  tasks : view.tasks.Perm (newest limit.toNat (stores.tasks.filter (carriesTask correlationId)))
  episodes : view.episodes.Perm
    (newest limit.toNat (stores.episodes.filter (carriesEpisode rt correlationId)))
  ledgerRecords : view.ledgerRecords.Perm
    (newest limit.toNat (stores.ledger.filter (carriesRecord correlationId)))
  approvals : ∀ approval, Wanted rt correlationId stores limit view.tasks view.episodes approval →
    approval ∈ view.approvals
  once : (view.approvals.map StoredApproval.id).Nodup
  newestFirst : view.approvals.Pairwise fun a b => b.createdAtIso ≤ a.createdAtIso

def recentTasks : List StoredTask :=
  (newest limit.toNat stores.tasks).filter (carriesTask correlationId)

def newestEpisodes : List StoredEpisode :=
  newest limit.toNat (stores.episodes.filter (carriesEpisode rt correlationId))

/-- The approvals by which the request is linked to the view: the newest whose requester or
context carries its id, then those that are named. -/
def linked : List StoredApproval :=
  ((listApprovals stores.approvals).filter (carriesApproval rt correlationId)).take limit.toNat ++
    (listApprovals stores.approvals).filter fun approval =>
      decide (approval.id ∈ namedIds rt (recentTasks correlationId stores limit)
        (newestEpisodes rt correlationId stores limit))

/-- No task of another request is among the newest in place of an older one of this request,
and every wanted approval is the last linked one of its id. -/
structure RoomForLinks : Prop where
  tasks : Unhindered limit.toNat (carriesTask correlationId) stores.tasks
  approvals : ∀ approval, Wanted rt correlationId stores limit
      (recentTasks correlationId stores limit) (newestEpisodes rt correlationId stores limit)
      approval →
    BoundedLog.latest StoredApproval.id (linked rt correlationId stores limit) approval.id =
      some approval

end Specification

section Reads

variable {rt : Runtime} {correlationId : String} {limit : Int}

theorem findFrom_eq {α : Type} {hit : α → Bool} {records : List α} (h : 1 ≤ limit) :
    findFrom hit limit records = (records.filter hit).take limit.toNat := by
  have hplaces : ([] : List α).length < limit.toNat := by
    rw [List.length_nil]
    omega
  rw [findFrom, if_neg (by omega), collect_eq hplaces, List.nil_append, List.length_nil,
    Nat.sub_zero]

theorem findFrom_reverse {α : Type} {hit : α → Bool} {records : List α} (h : 1 ≤ limit) :
    (findFrom hit limit records.reverse).reverse = newest limit.toNat (records.filter hit) := by
  rw [findFrom_eq h, List.filter_reverse, reverse_take, List.reverse_reverse]

theorem listRecent_carrying {tasks : List StoredTask} (h : 1 ≤ limit) :
    (listRecent limit tasks).filter (carriesTask correlationId) =
      ((newest limit.toNat tasks).filter (carriesTask correlationId)).reverse := by
  rw [listRecent, if_neg (by omega), List.filter_reverse]

theorem mem_namedIds_reverse {tasks : List StoredTask} {episodes : List StoredEpisode}
    {id : String} : id ∈ namedIds rt tasks.reverse episodes ↔ id ∈ namedIds rt tasks episodes := by
  simp [namedIds]

end Reads

section Shown

variable {rt : Runtime} {correlationId : String} {stores : ViewStores} {limit : Int}

theorem view_tasks (h : 1 ≤ limit) :
    (buildCorrelationView rt correlationId stores limit).tasks =
      (recentTasks correlationId stores limit).reverse := listRecent_carrying h

theorem view_episodes (h : 1 ≤ limit) :
    (buildCorrelationView rt correlationId stores limit).episodes =
      newestEpisodes rt correlationId stores limit := findFrom_reverse h

theorem view_ledgerRecords (h : 1 ≤ limit) :
    (buildCorrelationView rt correlationId stores limit).ledgerRecords =
      newest limit.toNat (stores.ledger.filter (carriesRecord correlationId)) :=
  findFrom_reverse h

theorem view_approvals (h : 1 ≤ limit) :
    (buildCorrelationView rt correlationId stores limit).approvals =
      greatestFirst StoredApproval.createdAtIso
        (KeyedList.assigned StoredApproval.id (linked rt correlationId stores limit)) := by
  have hnamed : ∀ id, id ∈ namedIds rt (buildCorrelationView rt correlationId stores limit).tasks
        (buildCorrelationView rt correlationId stores limit).episodes ↔
      id ∈ namedIds rt (recentTasks correlationId stores limit)
        (newestEpisodes rt correlationId stores limit) := by
    intro id
    rw [view_tasks h, view_episodes h]
    exact mem_namedIds_reverse
  have hlinked : assignments rt correlationId limit
        (namedIds rt (buildCorrelationView rt correlationId stores limit).tasks
          (buildCorrelationView rt correlationId stores limit).episodes) stores.approvals =
      linked rt correlationId stores limit := by
    rw [assignments, linked, findApprovals, findFrom_eq h]
    simp only [hnamed]
  rw [← hlinked]
  rfl

theorem mem_derived_approvalIds {id : String} :
    id ∈ (buildCorrelationView rt correlationId stores limit).derivedIds.approvalIds ↔
      id ∈ namedIds rt (buildCorrelationView rt correlationId stores limit).tasks
        (buildCorrelationView rt correlationId stores limit).episodes := mem_sortedSet

theorem mem_view_approvals (h : 1 ≤ limit) {approval : StoredApproval} :
    approval ∈ (buildCorrelationView rt correlationId stores limit).approvals ↔
      BoundedLog.latest StoredApproval.id (linked rt correlationId stores limit) approval.id =
        some approval := by
  rw [view_approvals h, (greatestFirst_perm _ _).mem_iff, KeyedList.mem_assigned_iff]

theorem view_once (h : 1 ≤ limit) :
    ((buildCorrelationView rt correlationId stores limit).approvals.map
      StoredApproval.id).Nodup := by
  rw [view_approvals h]
  exact ((greatestFirst_perm _ _).map _).nodup_iff.mpr (KeyedList.nodup_assigned _)

theorem linked_stored {approval : StoredApproval}
    (h : approval ∈ linked rt correlationId stores limit) : approval ∈ stores.approvals := by
  have hstored : ∀ {other}, other ∈ listApprovals stores.approvals → other ∈ stores.approvals :=
    (greatestFirst_perm _ _).mem_iff.mp
  rcases List.mem_append.mp h with hcarries | hnamed
  · exact hstored (List.mem_filter.mp (List.mem_of_mem_take hcarries)).1
  · exact hstored (List.mem_filter.mp hnamed).1

/-- Nothing is shown that is not stored and linked. -/
theorem view_linked (h : 1 ≤ limit) {approval : StoredApproval}
    (hshown : approval ∈ (buildCorrelationView rt correlationId stores limit).approvals) :
    approval ∈ stores.approvals ∧ (carriesApproval rt correlationId approval = true ∨
      approval.id ∈
        (buildCorrelationView rt correlationId stores limit).derivedIds.approvalIds) := by
  have hlinked := BoundedLog.latest_mem ((mem_view_approvals h).mp hshown)
  refine ⟨linked_stored hlinked, ?_⟩
  rcases List.mem_append.mp hlinked with hcarries | hnamed
  · exact .inl (List.mem_filter.mp (List.mem_of_mem_take hcarries)).2
  · refine .inr ?_
    rw [mem_derived_approvalIds, view_tasks h, view_episodes h, mem_namedIds_reverse]
    exact of_decide_eq_true (List.mem_filter.mp hnamed).2

theorem wanted_of_view (h : 1 ≤ limit) {approval : StoredApproval} :
    Wanted rt correlationId stores limit (buildCorrelationView rt correlationId stores limit).tasks
        (buildCorrelationView rt correlationId stores limit).episodes approval ↔
      Wanted rt correlationId stores limit (recentTasks correlationId stores limit)
        (newestEpisodes rt correlationId stores limit) approval := by
  rw [Wanted, Wanted, view_tasks h, view_episodes h, mem_namedIds_reverse]

/-- In a store of distinct ids whose contexts carry no correlation id, as requests write it,
only the tasks can leave something out. -/
theorem roomForLinks_iff (hdistinct : (stores.approvals.map StoredApproval.id).Nodup)
    (hcontext : ∀ approval ∈ stores.approvals,
      correlationOf rt approval.context ≠ correlationId) :
    RoomForLinks rt correlationId stores limit ↔
      Unhindered limit.toNat (carriesTask correlationId) stores.tasks := by
  constructor
  · exact RoomForLinks.tasks
  · intro htasks
    refine ⟨htasks, ?_⟩
    intro approval hwanted
    have hsame : (listApprovals stores.approvals).filter (carriesApproval rt correlationId) =
        (listApprovals stores.approvals).filter (requesterCarries rt correlationId) := by
      refine List.filter_congr fun other hother => ?_
      have hstored := (greatestFirst_perm _ _).mem_iff.mp hother
      rw [carriesApproval, decide_eq_false (hcontext other hstored), Bool.or_false]
    have hlinked : approval ∈ linked rt correlationId stores limit := by
      rw [linked, hsame, List.mem_append]
      refine hwanted.imp id fun hnamed => ?_
      have hlisted : approval ∈ listApprovals stores.approvals :=
        (greatestFirst_perm _ _).mem_iff.mpr hnamed.1
      exact List.mem_filter.mpr ⟨hlisted, decide_eq_true hnamed.2⟩
    cases hlatest : BoundedLog.latest StoredApproval.id (linked rt correlationId stores limit)
        approval.id with
    | none => exact absurd rfl (BoundedLog.latest_none_iff.mp hlatest approval hlinked)
    | some other =>
      have hother := linked_stored (BoundedLog.latest_mem hlatest)
      exact congrArg some (List.inj_on_of_nodup_map hdistinct hother (linked_stored hlinked)
        (BoundedLog.latest_key hlatest))

/-- A view is complete iff the tasks of other requests leave room for those of this one, and
no wanted approval is pushed out or replaced by another one of its id. -/
theorem view_complete_iff (h : 1 ≤ limit) :
    CompleteView rt correlationId stores limit
      (buildCorrelationView rt correlationId stores limit) ↔
      RoomForLinks rt correlationId stores limit := by
  have htasks : (buildCorrelationView rt correlationId stores limit).tasks.Perm
        (newest limit.toNat (stores.tasks.filter (carriesTask correlationId))) ↔
      Unhindered limit.toNat (carriesTask correlationId) stores.tasks := by
    rw [view_tasks h, recentTasks, (List.reverse_perm _).congr_left, filter_newest_perm_iff]
    rfl
  constructor
  · intro hcomplete
    refine ⟨htasks.mp hcomplete.tasks, ?_⟩
    intro approval hwanted
    exact (mem_view_approvals h).mp (hcomplete.approvals approval ((wanted_of_view h).mpr hwanted))
  · intro hroom
    constructor
    case tasks => exact htasks.mpr hroom.tasks
    case episodes => rw [view_episodes h, newestEpisodes]
    case ledgerRecords => rw [view_ledgerRecords h]
    case approvals =>
      intro approval hwanted
      exact (mem_view_approvals h).mpr (hroom.approvals approval ((wanted_of_view h).mp hwanted))
    case once => exact view_once h
    case newestFirst =>
      rw [view_approvals h]
      exact greatestFirst_sorted _ _

end Shown

def deskTask (taskId correlationId : String) (approvalsCreated : List String) : StoredTask :=
  { mailTask taskId "" [] with correlationId, approvalsCreated }

def deskApproval (id : String) : StoredApproval :=
  { id, createdAtIso := "1970-01-01T00:00:00+00:00", expiresAtIso := "1970-01-04T00:00:00+00:00"
    status := .pending, requester := [("correlation_id", .str "first")]
    step := ⟨"s1", "send", some "gmail.draft_email", "", false⟩, context := [("goal", .str "mail")]
    rationale := "", result := none, error := none, requiredScopes := []
    policySnapshot := [], policySnapshotAtApprove := [] }

/-- The first request asked for an approval, the second came after it. -/
def deskStores : ViewStores where
  tasks := [deskTask "t1" "first" ["a1"], deskTask "t2" "second" []]
  episodes := [{ mailEpisode "e1" "approval" with
    metadata := [("correlation_id", .str "first"), ("approval_id", .str "a1")] }]
  ledger := []
  approvals := [deskApproval "a1"]

/-- Two places are enough for the view of the first request. -/
theorem desk_view_complete : CompleteView mailRuntime "first" deskStores 2
    (buildCorrelationView mailRuntime "first" deskStores 2) := by
  refine (view_complete_iff (by decide)).mpr ?_
  refine (roomForLinks_iff (by decide) ?_).mpr ?_
  · intro approval happroval
    rw [List.mem_singleton.mp happroval]
    decide +kernel
  · exact .inr (by decide)

/-- With one place the task of the second request has it, and that of the first is missing. -/
theorem newer_task_hides_older : ¬ CompleteView mailRuntime "first" deskStores 1
    (buildCorrelationView mailRuntime "first" deskStores 1) := by
  intro hcomplete
  exact absurd hcomplete.tasks.length_eq (by decide)

end CorrelationView
