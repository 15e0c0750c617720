import Benjamin.CompactionRace
import Benjamin.DoctorBackups
import Benjamin.LatestVersions

/-!
# What a compaction keeps

The loop over the reversed rows leaves the newest version of every record, and the
retention the newest of those. Files of other artifacts have neither, so a compaction
leaves them alone.
-/
namespace CompactedRows

open PyBase Doctor DoctorBackups CompactionRace LatestVersions Effect

def rowKey (rt : Runtime) (row : Row) : Option String :=
  if rowId rt row = "" then none else some (rowId rt row)

/-- The rows that are not superseded, where the artifact's rows have versions. -/
def versions (rt : Runtime) (a : KnownArtifact) (rows : List Row) : List Row :=
  if a.name ∈ ["episodic", "tasks"] then newest (rowKey rt) rows else rows

/-- The value of the retention variable, or its default where it has no readable value. -/
def setting (limits : String → Option Int) (a : KnownArtifact) : Option Int :=
  a.retention.map fun (envName, default) => (limits envName).getD default

def retained (total : Nat) : Option Int → Nat
  | none => total
  | some n => if 0 < n then min n.toNat total else total

theorem retained_retained (total : Nat) (setting : Option Int) :
    retained (retained total setting) setting = retained total setting := by
  cases setting with
  | none => rfl
  | some n =>
    by_cases hn : 0 < n
    · simp [retained, hn]
    · simp [retained, hn]

section Deduplicating

variable {rt : Runtime}

def PassedOver (rt : Runtime) (seen : List String) (rows : List Row) (row : Row) : Prop :=
  rowId rt row ≠ "" ∧ (rowId rt row ∈ seen ∨ rowId rt row ∈ rows.map (rowId rt))

instance (seen : List String) (rows : List Row) (row : Row) :
    Decidable (PassedOver rt seen rows row) := inferInstanceAs (Decidable (_ ∧ _))

theorem dedupe_concat (seen : List String) (rows : List Row) (row : Row) :
    dedupe rt seen (rows ++ [row]) =
      dedupe rt seen rows ++ if PassedOver rt seen rows row then [] else [row] := by
  induction rows generalizing seen with
  | nil =>
    by_cases hid : rowId rt row = ""
    · simp [dedupe, PassedOver, hid]
    · by_cases hseen : rowId rt row ∈ seen <;> simp [dedupe, PassedOver, hid, hseen]
  | cons first rest ih =>
    rw [List.cons_append, dedupe, dedupe]
    by_cases hid : rowId rt first = ""
    · have hpassed : PassedOver rt seen (first :: rest) row ↔ PassedOver rt seen rest row := by
        unfold PassedOver
        rw [List.map_cons, List.mem_cons, hid]
        tauto
      rw [if_pos hid, if_pos hid, ih, List.cons_append, if_congr hpassed rfl rfl]
    · rw [if_neg hid, if_neg hid]
      by_cases hseen : rowId rt first ∈ seen
      · have hpassed : PassedOver rt seen (first :: rest) row ↔ PassedOver rt seen rest row := by
          rw [PassedOver, List.map_cons, List.mem_cons]
          constructor
          · rintro ⟨hne, hmem | heq | hmem⟩
            · exact ⟨hne, Or.inl hmem⟩
            · exact ⟨hne, Or.inl (heq ▸ hseen)⟩
            · exact ⟨hne, Or.inr hmem⟩
          · rintro ⟨hne, hmem⟩
            exact ⟨hne, hmem.imp_right Or.inr⟩
        rw [if_pos hseen, if_pos hseen, ih, if_congr hpassed rfl rfl]
      · have hpassed : PassedOver rt seen (first :: rest) row ↔
            PassedOver rt (rowId rt first :: seen) rest row := by
          unfold PassedOver
          rw [List.map_cons, List.mem_cons, List.mem_cons]
          tauto
        rw [if_neg hseen, if_neg hseen, ih, List.cons_append, if_congr hpassed rfl rfl]

theorem superseded_iff_passedOver (row : Row) (later : List Row) :
    Superseded (rowKey rt) row later ↔ PassedOver rt [] later.reverse row := by
  rw [PassedOver]
  by_cases hid : rowId rt row = ""
  · simp [Superseded, rowKey, hid]
  · have hkey : rowKey rt row = some (rowId rt row) := if_neg hid
    rw [superseded_iff hkey, List.mem_filterMap]
    constructor
    · rintro ⟨other, hmem, hother⟩
      refine ⟨hid, Or.inr (List.mem_map.mpr ⟨other, List.mem_reverse.mpr hmem, ?_⟩)⟩
      rw [rowKey] at hother
      split at hother
      · cases hother
      · exact Option.some.inj hother
    · rintro ⟨-, hmem⟩
      obtain ⟨other, hmem, hother⟩ := List.mem_map.mp (hmem.resolve_left List.not_mem_nil)
      refine ⟨other, List.mem_reverse.mp hmem, ?_⟩
      rw [rowKey, hother, if_neg hid]

theorem dedupe_reverse (rows : List Row) :
    (dedupe rt [] rows.reverse).reverse = newest (rowKey rt) rows := by
  induction rows with
  | nil => rfl
  | cons row later ih =>
    rw [List.reverse_cons, dedupe_concat, List.reverse_append, ih, newest,
      if_congr (superseded_iff_passedOver row later) rfl rfl]
    split <;> rfl

end Deduplicating

section Compacting

variable (rt : Runtime) (limits : String → Option Int) (a : KnownArtifact)

theorem lastRows_suffix (bound : Int) (rows : List Row) : lastRows bound rows <:+ rows := by
  rw [lastRows]
  split
  · exact List.drop_suffix _ _
  · exact List.suffix_refl _

theorem lastRows_length {bound : Int} (hbound : 0 < bound) (rows : List Row) :
    (lastRows bound rows).length = min bound.toNat rows.length := by
  rw [lastRows]
  split
  · rw [List.length_drop]
    omega
  · omega

theorem retentionMax_eq (ha : a ∈ knownArtifacts) :
    retentionMax limits a = (setting limits a).filter fun n => 0 < n := by
  have hdefault : ∀ a ∈ knownArtifacts, ∀ r ∈ a.retention, 0 < r.2 := by decide
  rw [retentionMax, setting]
  cases hretention : a.retention with
  | none => rfl
  | some r =>
    obtain ⟨envName, default⟩ := r
    have hpositive : 0 < default := hdefault a ha _ hretention
    dsimp only [Option.map_some]
    cases limits envName with
    | none => simp [Option.filter, hpositive]
    | some value => simp [Option.filter]

theorem compactRows_eq (rows : List Row) :
    compactRows rt limits a rows = match retentionMax limits a with
      | none => versions rt a rows
      | some bound => lastRows bound (versions rt a rows) := by
  have hversions : versions rt a rows =
      if a.name ∈ ["episodic", "tasks"] then (dedupe rt [] rows.reverse).reverse else rows := by
    rw [versions, dedupe_reverse]
  cases hbound : retentionMax limits a with
  | none => simp [compactRows, hversions, hbound]
  | some bound => simp [compactRows, hversions, hbound]

theorem compactRows_suffix (rows : List Row) :
    compactRows rt limits a rows <:+ versions rt a rows := by
  rw [compactRows_eq]
  split
  · exact List.suffix_refl _
  · exact lastRows_suffix _ _

theorem compactRows_length (ha : a ∈ knownArtifacts) (rows : List Row) :
    (compactRows rt limits a rows).length =
      retained (versions rt a rows).length (setting limits a) := by
  rw [compactRows_eq, retentionMax_eq limits a ha]
  cases setting limits a with
  | none => rfl
  | some n =>
    by_cases hn : 0 < n
    · simp [Option.filter, retained, hn, lastRows_length hn]
    · simp [Option.filter, retained, hn]

theorem versions_sublist (rows : List Row) : (versions rt a rows).Sublist rows := by
  rw [versions]
  split
  · exact newest_sublist _ _
  · exact List.Sublist.refl _

/-- A compaction leaves one version of every record, so that there is none to supersede. -/
theorem versions_compactRows (rows : List Row) :
    versions rt a (compactRows rt limits a rows) = compactRows rt limits a rows := by
  have hsuffix := compactRows_suffix rt limits a rows
  rw [versions] at hsuffix ⊢
  split
  · rename_i hname
    rw [if_pos hname] at hsuffix
    exact newest_of_nodup ((newest_keys_nodup (rowKey rt) rows).sublist
      (hsuffix.sublist.filterMap _))
  · rfl

theorem compactRows_idem (ha : a ∈ knownArtifacts) (rows : List Row) :
    compactRows rt limits a (compactRows rt limits a rows) = compactRows rt limits a rows := by
  have hsuffix := compactRows_suffix rt limits a (compactRows rt limits a rows)
  have hlength := compactRows_length rt limits a ha (compactRows rt limits a rows)
  rw [versions_compactRows] at hsuffix hlength
  refine hsuffix.eq_of_length ?_
  rw [hlength, compactRows_length rt limits a ha rows, retained_retained]

end Compacting

/-- The artifacts whose files a compaction may rewrite. -/
def compactable : List KnownArtifact := [episodicArtifact, tasksArtifact, executionsArtifact]

/-- `run_doctor(compact=True)`. -/
def compacting (call : DoctorCall) : DoctorCall := { call with repair := false, compact := true }

section Running

variable (lib : DoctorLibraries) (call : DoctorCall) {a : KnownArtifact}

theorem checkFile_other (ha : a ∈ knownArtifacts) (hother : a ∉ compactable) (d : Disk) :
    (checkFile lib (compacting call) a d).2 = d := by
  rw [checkFile]
  cases a.format with
  | json => rfl
  | jsonl =>
    dsimp only
    cases hfile : d.files a.fileName with
    | none => exact checkJsonl_missing hfile
    | some content =>
      cases hscan : scanFile lib a content with
      | error e => exact checkJsonl_unread hfile hscan
      | ok s =>
        have hreport : jsonlReport lib a (d.files a.fileName) =
            .ok (s.report a content.size, s.rows) := by
          rw [hfile, jsonlReport, hscan]
          rfl
        have hrepair : ¬ Repairs (compacting call) s := fun h => absurd h.1 (by simp [compacting])
        have hcompact : ¬ Compacts lib (compacting call) a s := fun h =>
          h.2 (congrArg List.length (compactRows_other _ _ ha hother s.rows))
        rw [checkJsonl_disk hreport, bind_ok (repairFile_idle content.size hrepair),
          compactFile_idle hcompact]

def Unwritten (files : String → Option ByteArray) (name : String) (d : Disk) : Prop :=
  d.files name = files name ∧ name ∉ d.written

theorem Unwritten.within {files : String → Option ByteArray} {d d' : Disk}
    (h : Unwritten files a.fileName d) (hwithin : Within (fun name => ¬ Owns a name) d d') :
    Unwritten files a.fileName d' := by
  have howned := not_not.mpr (owns_file a)
  exact ⟨(hwithin.files _ howned).trans h.1, fun hmem => h.2 ((hwithin.written _ howned).mp hmem)⟩

theorem run_unwritten (files : String → Option ByteArray) (ha : a ∈ knownArtifacts)
    (hother : a ∉ compactable) :
    Unwritten files a.fileName (runDoctor lib (compacting call) ⟨files, []⟩).2 := by
  have hstart : Unwritten files a.fileName ⟨files, []⟩ := ⟨rfl, List.not_mem_nil⟩
  rcases run_names lib (compacting call) files ha with ⟨-, d, hbefore, hafter⟩ | ⟨-, hrun⟩
  · rw [checkFile_other lib call ha hother] at hafter
    exact (hstart.within hbefore).within hafter
  · exact hstart.within hrun

end Running

structure LastVersions (rt : Runtime) (rows kept : List Row) : Prop where
  once : ∀ id, id ≠ "" → id ∈ rows.map (rowId rt) → (kept.map (rowId rt)).count id = 1
  last : ∀ before row after, rows = before ++ row :: after →
    (rowId rt row = "" ∨ rowId rt row ∉ after.map (rowId rt)) →
    ∃ earlier later, earlier.Sublist before ∧ later.Sublist after ∧ kept = earlier ++ row :: later

theorem count_rowId {rt : Runtime} {id : String} (hne : id ≠ "") (rows : List Row) :
    (rows.map (rowId rt)).count id = (rows.filterMap (rowKey rt)).count id := by
  induction rows with
  | nil => rfl
  | cons row rest ih =>
    by_cases hid : rowId rt row = ""
    · have hkey : rowKey rt row = none := if_pos hid
      have hother : "" ≠ id := hne.symm
      rw [List.map_cons, List.filterMap_cons_none hkey, hid, List.count_cons_of_ne hother, ih]
    · have hkey : rowKey rt row = some (rowId rt row) := if_neg hid
      rw [List.map_cons, List.filterMap_cons_some hkey, List.count_cons, List.count_cons, ih]

theorem newest_lastVersions (rt : Runtime) (rows : List Row) :
    LastVersions rt rows (newest (rowKey rt) rows) := by
  constructor
  · intro id hne hmem
    have hkey : id ∈ (newest (rowKey rt) rows).filterMap (rowKey rt) := by
      rw [mem_keys_newest, ← List.count_pos_iff, ← count_rowId hne, List.count_pos_iff]
      exact hmem
    rw [count_rowId hne]
    exact List.count_eq_one_of_mem (newest_keys_nodup _ _) hkey
  · rintro before row after rfl hlast
    have hleft : ¬ Superseded (rowKey rt) row after := by
      rw [superseded_iff_passedOver]
      rintro ⟨hid, hmem⟩
      rw [List.map_reverse, List.mem_reverse] at hmem
      exact hlast.elim hid fun hnot => hnot (hmem.resolve_left List.not_mem_nil)
    obtain ⟨earlier, hearlier, hnewest⟩ := newest_keeps_last before hleft
    exact ⟨earlier, _, hearlier, newest_sublist _ _, hnewest⟩

/-- The compacted rows are the newest of the versions, as many as the setting leaves. -/
structure KeepsNewest (rt : Runtime) (limits : String → Option Int) (a : KnownArtifact)
    (rows : List Row) : Prop where
  subsequence : (compactRows rt limits a rows).Sublist rows
  window : compactRows rt limits a rows <:+ versions rt a rows
  count : (compactRows rt limits a rows).length =
    retained (versions rt a rows).length (setting limits a)
  again : compactRows rt limits a (compactRows rt limits a rows) = compactRows rt limits a rows

theorem compactRows_keepsNewest (rt : Runtime) (limits : String → Option Int) {a : KnownArtifact}
    (ha : a ∈ knownArtifacts) (rows : List Row) : KeepsNewest rt limits a rows where
  subsequence := (compactRows_suffix rt limits a rows).sublist.trans (versions_sublist rt a rows)
  window := compactRows_suffix rt limits a rows
  count := compactRows_length rt limits a ha rows
  again := compactRows_idem rt limits a ha rows

/-- Only the episodes and the tasks have versions, and only they and the executions are cut. -/
theorem compaction_keeps_the_newest (lib : DoctorLibraries) (call : DoctorCall)
    (files : String → Option ByteArray) {a : KnownArtifact} (ha : a ∈ knownArtifacts) :
    (∀ rows, KeepsNewest lib.toRuntime call.limits a rows) ∧
      (a ∈ [episodicArtifact, tasksArtifact] →
        ∀ rows, LastVersions lib.toRuntime rows (versions lib.toRuntime a rows)) ∧
      (a = executionsArtifact → ∀ rows, versions lib.toRuntime a rows = rows) ∧
      (a ∉ compactable →
        (∀ rows, compactRows lib.toRuntime call.limits a rows = rows) ∧
          Unwritten files a.fileName (runDoctor lib (compacting call) ⟨files, []⟩).2) := by
  refine ⟨compactRows_keepsNewest _ _ ha, ?_, ?_, ?_⟩
  · intro hdated rows
    have hname : a.name ∈ ["episodic", "tasks"] := by
      simp only [List.mem_cons, List.not_mem_nil, or_false] at hdated
      rcases hdated with rfl | rfl <;> decide
    rw [versions, if_pos hname]
    exact newest_lastVersions _ rows
  · rintro rfl rows
    rfl
  · intro hother
    exact ⟨compactRows_other _ _ ha hother, run_unwritten lib call files ha hother⟩

def noteRow (id text : String) : Row :=
  ⟨[("id", .str id), ("summary", .str text)],
    by simp [JsonLines.PlainFloats, JsonLines.PlainFields],
    none⟩

def threeNotes : List Row := [noteRow "a" "old", noteRow "b" "other", noteRow "a" "new"]

/-- With room for one row the new version is left. -/
theorem newest_note_kept :
    let limits := fun _ => some 1
    let call : DoctorCall := { DoctorReading.plainCall with limits }
    compactRows DoctorReading.noteLibraries.toRuntime limits episodicArtifact threeNotes =
        [noteRow "a" "new"] ∧
      KeepsNewest DoctorReading.noteLibraries.toRuntime call.limits episodicArtifact threeNotes :=
  ⟨rfl, (compaction_keeps_the_newest DoctorReading.noteLibraries
    { DoctorReading.plainCall with limits := fun _ => some 1 } (fun _ => none)
    (a := episodicArtifact) (by decide)).1 threeNotes⟩

end CompactedRows
