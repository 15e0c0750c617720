import Benjamin.BackedRewrites
import Benjamin.DoctorReading

/-!
# What the doctor's rewrites lose

Each rewrite is preceded by a backup whose name has the time in seconds. A call loses a
file when it repairs it and compacts it within one second: the second backup takes the
name of the first.
-/
namespace DoctorBackups

open PyBase JsonLines Doctor DoctorReading BackedRewrites Effect

theorem backupPath_ne (name : String) (now : Int) : backupPath name now ≠ name := by
  intro h
  have hlength := congrArg String.length h
  have hmark : ".bak.".length = 5 := by decide
  rw [backupPath, String.length_append, String.length_append, hmark] at hlength
  omega

theorem backupPath_inj {name : String} {t u : Int} :
    backupPath name t = backupPath name u ↔ stamp t = stamp u := by
  simp [backupPath, String.append_right_inj]

/-- The names that the check of an artifact may write all start with its file's name. -/
def Owns (a : KnownArtifact) (name : String) : Prop := a.fileName.toList <+: name.toList

theorem owns_file (a : KnownArtifact) : Owns a a.fileName := List.prefix_rfl

theorem owns_backup (a : KnownArtifact) (t : Int) : Owns a (backupPath a.fileName t) := by
  rw [Owns, backupPath, String.toList_append, String.toList_append, List.append_assoc]
  exact List.prefix_append _ _

theorem fileNames_apart : ∀ a ∈ knownArtifacts, ∀ b ∈ knownArtifacts,
    a.fileName.toList <+: b.fileName.toList → a = b := by
  decide

theorem owner_unique {a b : KnownArtifact} (ha : a ∈ knownArtifacts) (hb : b ∈ knownArtifacts)
    {name : String} (hna : Owns a name) (hnb : Owns b name) : a = b := by
  rcases List.prefix_or_prefix_of_prefix hna hnb with h | h
  · exact fileNames_apart a ha b hb h
  · exact (fileNames_apart b hb a ha h).symm

def Writable (rows : List Row) : Prop := rows.findSome? Row.encodeError = none

instance (rows : List Row) : Decidable (Writable rows) :=
  decidable_of_iff ((rows.findSome? Row.encodeError).isNone) Option.isNone_iff_eq_none

theorem Writable.subset {rows rows' : List Row} (h : Writable rows) (hsub : rows' ⊆ rows) :
    Writable rows' :=
  List.findSome?_eq_none_iff.mpr fun row hrow => List.findSome?_eq_none_iff.mp h row (hsub hrow)

theorem dedupe_subset (rt : Runtime) (seen : List String) (rows : List Row) :
    dedupe rt seen rows ⊆ rows := by
  induction rows generalizing seen with
  | nil => exact List.Subset.refl _
  | cons row rest ih =>
    rw [dedupe]
    split_ifs
    · exact List.cons_subset_cons _ (ih _)
    · exact List.subset_cons_of_subset _ (ih _)
    · exact List.cons_subset_cons _ (ih _)

theorem lastRows_subset (bound : Int) (rows : List Row) : lastRows bound rows ⊆ rows := by
  rw [lastRows]
  split
  · exact List.drop_subset _ _
  · exact List.Subset.refl _

theorem compactRows_subset (rt : Runtime) (limits : String → Option Int) (a : KnownArtifact)
    (rows : List Row) : compactRows rt limits a rows ⊆ rows := by
  have hdedupe : (if a.name ∈ ["episodic", "tasks"] then (dedupe rt [] rows.reverse).reverse
      else rows) ⊆ rows := by
    split
    · intro row hrow
      exact List.mem_reverse.mp (dedupe_subset rt [] _ (List.mem_reverse.mp hrow))
    · exact List.Subset.refl _
  unfold compactRows
  dsimp only
  split
  · exact hdedupe
  · exact List.Subset.trans (lastRows_subset _ _) hdedupe

def replacement (a : KnownArtifact) (now : Int) (rows : List Row) : Rewrite String ByteArray :=
  ⟨backupPath a.fileName now, encode (rowsText (rows.map Row.fields))⟩

def put (d : Disk) (name : String) (content : ByteArray) : Disk :=
  ⟨Function.update d.files name (some content), d.written ++ [name]⟩

def rewritten (file : String) (d : Disk) (rs : List (Rewrite String ByteArray)) : Disk :=
  ⟨rewriteAll file d.files rs, d.written ++ rs.flatMap fun r => [r.backup, file]⟩

theorem rewritten_append (file : String) (d : Disk) (rs rs' : List (Rewrite String ByteArray)) :
    rewritten file (rewritten file d rs) rs' = rewritten file d (rs ++ rs') := by
  simp [rewritten, rewriteAll_append]

section Rewriting

variable {d : Disk} {content : ByteArray} {a : KnownArtifact} {rows : List Row}

theorem copyFile_apply {source : String} (h : d.files source = some content) (target : String) :
    copyFile source target d = (.ok (), put d target content) := by
  rw [copyFile, ask_bind, h]
  rfl

theorem applyBackupAndReplace_writable (now : Int) (h : d.files a.fileName = some content)
    (hrows : Writable rows) : applyBackupAndReplace now a.fileName rows d =
      (.ok (), rewritten a.fileName d [replacement a now rows]) := by
  rw [applyBackupAndReplace, bind_ok (copyFile_apply h _)]
  rw [writeJsonlAtomic, show rows.findSome? Row.encodeError = none from hrows]
  simp [writeFile, put, rewritten, rewriteAll, rewrite, replacement, h]

theorem applyBackupAndReplace_unwritable (now : Int) (h : d.files a.fileName = some content)
    (hrows : ¬ Writable rows) : ∃ e, applyBackupAndReplace now a.fileName rows d =
      (.error e, put d (backupPath a.fileName now) content) := by
  obtain ⟨e, he⟩ := Option.ne_none_iff_exists'.mp hrows
  rw [applyBackupAndReplace, bind_ok (copyFile_apply h _)]
  rw [writeJsonlAtomic, he]
  exact ⟨e, rfl⟩

end Rewriting

section Checking

variable (lib : DoctorLibraries) (call : DoctorCall) (a : KnownArtifact)

def Repairs (s : Scan) : Prop := call.repair ∧ 0 < s.invalidCount

def Compacts (s : Scan) : Prop :=
  call.compact ∧ (compactRows lib.toRuntime call.limits a s.rows).length ≠ s.rows.length

def repairRewrite (s : Scan) : Rewrite String ByteArray :=
  replacement a (call.repairTime a.name) s.rows

def compactRewrite (s : Scan) : Rewrite String ByteArray :=
  replacement a (call.compactTime a.name) (compactRows lib.toRuntime call.limits a s.rows)

variable {lib call a} {d : Disk} {content : ByteArray} {s : Scan}

theorem repairFile_idle (size : Nat) (h : ¬ Repairs call s) :
    repairFile call a (s.report a size) s.rows d = (.ok false, d) := by
  rw [repairFile, read_bind, if_neg]
  · rfl
  · rintro ⟨hrepair, hinvalid, -⟩
    exact h ⟨hrepair, hinvalid⟩

theorem repairFile_apply (size : Nat) (hfile : d.files a.fileName = some content)
    (h : Repairs call s) : repairFile call a (s.report a size) s.rows d =
      (applyBackupAndReplace (call.repairTime a.name) a.fileName s.rows >>= fun _ =>
        pure true) d := by
  rw [repairFile, read_bind, if_pos]
  exact ⟨h.1, h.2, by rw [hfile]; rfl⟩

theorem compactFile_idle (h : ¬ Compacts lib call a s) :
    compactFile lib call a s.rows d = (.ok false, d) := by
  rw [compactFile]
  dsimp only
  rw [read_bind, if_neg]
  · rfl
  · rintro ⟨hcompact, -, hlength⟩
    exact h ⟨hcompact, hlength⟩

theorem compactFile_apply (hfile : d.files a.fileName = some content)
    (h : Compacts lib call a s) : compactFile lib call a s.rows d =
      (applyBackupAndReplace (call.compactTime a.name) a.fileName
        (compactRows lib.toRuntime call.limits a s.rows) >>= fun _ => pure true) d := by
  rw [compactFile]
  dsimp only
  rw [read_bind, if_pos]
  exact ⟨h.1, by rw [hfile]; rfl, h.2⟩

theorem bind_disk {α β : Type} {x : Doctoring α} {f : α → Doctoring β} {d : Disk}
    (h : ∀ out d', (f out d').2 = d') : ((x >>= f) d).2 = (x d).2 := by
  cases hx : x d with
  | mk r d' =>
    cases r with
    | ok out =>
      rw [bind_ok hx]
      exact h out d'
    | error e => rw [bind_error hx]

theorem checkJsonl_disk {report : DoctorFileReport} {rows : List Row}
    (hreport : jsonlReport lib a (d.files a.fileName) = .ok (report, rows)) :
    (checkJsonl lib call a d).2 =
      ((repairFile call a report rows >>= fun _ => compactFile lib call a rows) d).2 := by
  rw [checkJsonl, ask_bind, hreport]
  dsimp only
  cases hrepair : repairFile call a report rows d with
  | mk r d₁ =>
    cases r with
    | error e => rw [bind_error hrepair, bind_error hrepair]
    | ok repaired =>
      rw [bind_ok hrepair, bind_ok hrepair]
      refine bind_disk fun compacted d₂ => ?_
      by_cases h : (repaired || compacted) = true
      · rw [if_pos h, ask_bind]
        cases jsonlReport lib a (d₂.files a.fileName) <;> rfl
      · rw [if_neg h]
        rfl

theorem checkJsonl_missing (hfile : d.files a.fileName = none) :
    (checkJsonl lib call a d).2 = d := by
  have hreport : jsonlReport lib a (d.files a.fileName) = .ok (missingReport a (some 0), []) := by
    rw [hfile, jsonlReport]
  have habsent : (d.files a.fileName).isSome ≠ true := by
    rw [hfile]
    decide
  have hrepair : repairFile call a (missingReport a (some 0)) [] d = (.ok false, d) := by
    rw [repairFile, read_bind, if_neg fun h => habsent h.2.2]
    rfl
  have hcompact : compactFile lib call a [] d = (.ok false, d) := by
    rw [compactFile]
    dsimp only
    rw [read_bind, if_neg fun h => habsent h.2.1]
    rfl
  rw [checkJsonl_disk hreport, bind_ok hrepair, hcompact]

theorem checkJsonl_unread {e : PyError} (hfile : d.files a.fileName = some content)
    (hscan : scanFile lib a content = .error e) : (checkJsonl lib call a d).2 = d := by
  rw [checkJsonl, ask_bind, hfile, jsonlReport, hscan]
  rfl

/-- What the check of a JSONL file leaves: nothing written, a backup alone where the rows
cannot be encoded, one rewrite, or both. -/
theorem checkJsonl_cases (call : DoctorCall) (hfile : d.files a.fileName = some content)
    (hscan : scanFile lib a content = .ok s) :
    (Repairs call s ∧ Compacts lib call a s ∧ Writable s.rows ∧ (checkJsonl lib call a d).2 =
        rewritten a.fileName d [repairRewrite call a s, compactRewrite lib call a s]) ∨
      (¬ (Repairs call s ∧ Compacts lib call a s ∧ Writable s.rows) ∧
        ((checkJsonl lib call a d).2 = d ∨
          (∃ now, (checkJsonl lib call a d).2 = put d (backupPath a.fileName now) content) ∨
          ∃ now rows, (checkJsonl lib call a d).2 =
            rewritten a.fileName d [replacement a now rows])) := by
  have hreport : jsonlReport lib a (d.files a.fileName) =
      .ok (s.report a content.size, s.rows) := by
    rw [hfile, jsonlReport, hscan]
    rfl
  rw [checkJsonl_disk hreport]
  by_cases hrepair : Repairs call s
  · have hrepaired := repairFile_apply content.size hfile hrepair
    by_cases hrows : Writable s.rows
    · have hfirst := applyBackupAndReplace_writable (call.repairTime a.name) hfile hrows
      rw [bind_ok hfirst] at hrepaired
      rw [bind_ok hrepaired]
      by_cases hcompact : Compacts lib call a s
      · have hfile' : (rewritten a.fileName d [replacement a (call.repairTime a.name) s.rows]).files
            a.fileName = some (encode (rowsText (s.rows.map Row.fields))) := rewrite_file
        have hsecond := applyBackupAndReplace_writable (call.compactTime a.name) hfile'
          (hrows.subset (compactRows_subset lib.toRuntime call.limits a s.rows))
        rw [compactFile_apply hfile' hcompact, bind_ok hsecond, rewritten_append]
        exact .inl ⟨hrepair, hcompact, hrows, rfl⟩
      · rw [compactFile_idle hcompact]
        exact .inr ⟨fun h => hcompact h.2.1, .inr (.inr ⟨_, _, rfl⟩)⟩
    · obtain ⟨e, hfirst⟩ := applyBackupAndReplace_unwritable (call.repairTime a.name) hfile hrows
      rw [bind_error hfirst] at hrepaired
      rw [bind_error hrepaired]
      exact .inr ⟨fun h => hrows h.2.2, .inr (.inl ⟨_, rfl⟩)⟩
  · rw [bind_ok (repairFile_idle _ hrepair)]
    refine .inr ⟨fun h => hrepair h.1, ?_⟩
    by_cases hcompact : Compacts lib call a s
    · rw [compactFile_apply hfile hcompact]
      by_cases hrows : Writable (compactRows lib.toRuntime call.limits a s.rows)
      · rw [bind_ok (applyBackupAndReplace_writable _ hfile hrows)]
        exact .inr (.inr ⟨_, _, rfl⟩)
      · obtain ⟨e, hfirst⟩ := applyBackupAndReplace_unwritable (call.compactTime a.name)
          hfile hrows
        rw [bind_error hfirst]
        exact .inr (.inl ⟨_, rfl⟩)
    · rw [compactFile_idle hcompact]
      exact .inl rfl

theorem repaired_differs (hscan : scanFile lib a content = .ok s) (hinvalid : 0 < s.invalidCount) :
    encode (rowsText (s.rows.map Row.fields)) ≠ content := by
  intro hsame
  obtain ⟨hbalanced, hcount, hrows⟩ := scanFile_counted lib hscan
  have hplain : ∀ fields ∈ s.rows.map Row.fields, PlainFloats (.obj fields) := by
    intro fields hfields
    obtain ⟨row, -, rfl⟩ := List.mem_map.mp hfields
    exact row.plain
  have hrewritten : lineCount (some (encode (rowsText (s.rows.map Row.fields)))) =
      s.rows.length := by
    simp [lineCount, decode_encode, filled_rowsText hplain]
  rw [hsame] at hrewritten
  omega

/-- If the file has been written, a backup next to it holds what it held before. -/
def Backed (file : String) (original : Option ByteArray) (d' : Disk) : Prop :=
  file ∈ d'.written → ∃ content, original = some content ∧
    ∃ now, backupPath file now ∈ d'.written ∧ d'.files (backupPath file now) = some content

def TwiceAtOnce (lib : DoctorLibraries) (call : DoctorCall) (a : KnownArtifact)
    (original : Option ByteArray) : Prop :=
  a.format = .jsonl ∧ ∃ content s, original = some content ∧
    scanFile lib a content = .ok s ∧ Repairs call s ∧ Compacts lib call a s ∧ Writable s.rows ∧
      stamp (call.repairTime a.name) = stamp (call.compactTime a.name)

def Fresh (a : KnownArtifact) (d : Disk) : Prop := ∀ name ∈ d.written, ¬ Owns a name

theorem Fresh.file (h : Fresh a d) : a.fileName ∉ d.written := fun hmem => h _ hmem (owns_file a)

theorem Fresh.backed (h : Fresh a d) {original : Option ByteArray} :
    Backed a.fileName original d :=
  fun hmem => absurd hmem h.file

theorem backed_put (hfresh : Fresh a d) (now : Int) {original : Option ByteArray} :
    Backed a.fileName original (put d (backupPath a.fileName now) content) := by
  intro hmem
  rcases List.mem_append.mp hmem with hmem | hmem
  · exact absurd hmem hfresh.file
  · exact absurd (List.mem_singleton.mp hmem).symm (backupPath_ne _ _)

theorem backed_rewritten (hfresh : Fresh a d) (hfile : d.files a.fileName = some content)
    {rs : List (Rewrite String ByteArray)} (hne : rs ≠ [])
    (hnames : ∀ r ∈ rs, ∃ now, r.backup = backupPath a.fileName now) :
    Backed a.fileName (some content) (rewritten a.fileName d rs) ↔
      ∃ r ∈ rs, rewriteAll a.fileName d.files rs r.backup = d.files a.fileName := by
  constructor
  · intro hbacked
    obtain ⟨r, hr⟩ := List.exists_mem_of_ne_nil rs hne
    have hmem : a.fileName ∈ (rewritten a.fileName d rs).written :=
      List.mem_append_right _ (List.mem_flatMap.mpr ⟨r, hr, by simp⟩)
    obtain ⟨original, horiginal, now, hbackup, hkept⟩ := hbacked hmem
    rcases List.mem_append.mp hbackup with hbackup | hbackup
    · exact absurd (owns_backup a now) (hfresh _ hbackup)
    · obtain ⟨r', hr', hbackup⟩ := List.mem_flatMap.mp hbackup
      have hname : backupPath a.fileName now = r'.backup := by
        simpa [backupPath_ne] using hbackup
      rw [hname] at hkept
      refine ⟨r', hr', ?_⟩
      rw [hfile, horiginal]
      exact hkept
  · rintro ⟨r, hr, hkept⟩ -
    obtain ⟨now, hname⟩ := hnames r hr
    refine ⟨content, rfl, now, ?_, ?_⟩
    · exact List.mem_append_right _ (List.mem_flatMap.mpr ⟨r, hr, by simp [hname]⟩)
    · rw [← hname, ← hfile]
      exact hkept

theorem checkJsonl_scanned (hformat : a.format = .jsonl) (hfresh : Fresh a d)
    (hfile : d.files a.fileName = some content) (hscan : scanFile lib a content = .ok s) :
    Backed a.fileName (some content) (checkJsonl lib call a d).2 ↔
      ¬ TwiceAtOnce lib call a (some content) := by
  have htwice : TwiceAtOnce lib call a (some content) ↔ (Repairs call s ∧
      Compacts lib call a s ∧ Writable s.rows) ∧
        stamp (call.repairTime a.name) = stamp (call.compactTime a.name) := by
    rw [TwiceAtOnce]
    simp [hformat, hscan, and_assoc]
  rw [htwice]
  rcases checkJsonl_cases call hfile hscan with
    ⟨hrepair, hcompact, hrows, hdisk⟩ | ⟨hnot, hdisk⟩
  · have hdiffers : ¬ some (repairRewrite call a s).content = d.files a.fileName := by
      rw [hfile, Option.some.injEq]
      exact repaired_differs hscan hrepair.2
    have hstamps : (repairRewrite call a s).backup ≠ (compactRewrite lib call a s).backup ↔
        stamp (call.repairTime a.name) ≠ stamp (call.compactTime a.name) :=
      not_congr backupPath_inj
    rw [hdisk, backed_rewritten hfresh hfile (List.cons_ne_nil _ _),
      two_rewrites_kept_iff (backupPath_ne _ _) (backupPath_ne _ _), hstamps]
    · simp [hdiffers, hrepair, hcompact, hrows]
    · simp [repairRewrite, compactRewrite, replacement]
  · refine iff_of_true ?_ fun h => hnot h.1
    rcases hdisk with hdisk | ⟨now, hdisk⟩ | ⟨now, rows, hdisk⟩
    · rw [hdisk]
      exact hfresh.backed
    · rw [hdisk]
      exact backed_put hfresh now
    · rw [hdisk, backed_rewritten hfresh hfile (List.cons_ne_nil _ _)]
      · exact ⟨_, List.mem_singleton_self _, single_rewrite_kept (backupPath_ne _ _)⟩
      · simp [replacement]

theorem checkFile_backed_iff (hfresh : Fresh a d) :
    Backed a.fileName (d.files a.fileName) (checkFile lib call a d).2 ↔
      ¬ TwiceAtOnce lib call a (d.files a.fileName) := by
  cases hformat : a.format with
  | json =>
    have hdisk : (checkFile lib call a d).2 = d := by
      unfold checkFile
      rw [hformat]
      rfl
    rw [hdisk]
    refine iff_of_true hfresh.backed fun htwice => ?_
    rw [TwiceAtOnce, hformat] at htwice
    cases htwice.1
  | jsonl =>
    have hcheck : checkFile lib call a = checkJsonl lib call a := by
      unfold checkFile
      rw [hformat]
    rw [hcheck]
    cases hfile : d.files a.fileName with
    | none =>
      rw [checkJsonl_missing hfile]
      exact iff_of_true hfresh.backed nofun
    | some content =>
      cases hscan : scanFile lib a content with
      | error e =>
        rw [checkJsonl_unread hfile hscan]
        refine iff_of_true hfresh.backed ?_
        rintro ⟨-, _, s, ⟨⟩, hscan', -⟩
        rw [hscan] at hscan'
        cases hscan'
      | ok s => exact checkJsonl_scanned hformat hfresh hfile hscan

end Checking

/-- Only names that satisfy `own` have been written. -/
structure Within (own : String → Prop) (d d' : Disk) : Prop where
  files : ∀ name, ¬ own name → d'.files name = d.files name
  written : ∀ name, ¬ own name → (name ∈ d'.written ↔ name ∈ d.written)

theorem within_chains (own : String → Prop) : Chains (Within own) :=
  ⟨fun _ => ⟨fun _ _ => rfl, fun _ _ => Iff.rfl⟩, fun h h' =>
    ⟨fun name hname => (h'.files name hname).trans (h.files name hname),
      fun name hname => (h'.written name hname).trans (h.written name hname)⟩⟩

theorem Within.mono {own own' : String → Prop} (hown : ∀ name, own name → own' name) {d d' : Disk}
    (h : Within own d d') : Within own' d d' :=
  ⟨fun name hname => h.files name fun howned => hname (hown name howned),
    fun name hname => h.written name fun howned => hname (hown name howned)⟩

theorem writeFile_within {own : String → Prop} {name : String} (hname : own name)
    (content : ByteArray) : Keeps (Within own) (writeFile name content) := by
  have hne : ∀ other, ¬ own other → other ≠ name := by
    rintro other hother rfl
    exact hother hname
  refine Keeps.update fun d => ⟨fun other hother => ?_, fun other hother => ?_⟩
  · exact Function.update_of_ne (hne other hother) _ _
  · simp [hne other hother]

section Frame

variable (lib : DoctorLibraries) (call : DoctorCall) (a : KnownArtifact)

theorem applyBackupAndReplace_within (now : Int) (rows : List Row) :
    Keeps (Within (Owns a)) (applyBackupAndReplace now a.fileName rows) := by
  have hchains := within_chains (Owns a)
  refine .bind hchains (.bind hchains (.ask hchains _) fun content => ?_) fun _ => ?_
  · exact writeFile_within (owns_backup a now) content
  · rw [writeJsonlAtomic]
    split
    · exact .raise hchains _
    · exact writeFile_within (owns_file a) _

theorem checkJsonl_within : Keeps (Within (Owns a)) (checkJsonl lib call a) := by
  have hchains := within_chains (Owns a)
  have hrepair : ∀ report rows, Keeps (Within (Owns a)) (repairFile call a report rows) := by
    intro report rows
    refine .bind hchains (.read hchains _) fun isPresent => ?_
    split
    · exact .bind hchains (applyBackupAndReplace_within a _ _) fun _ => .pure hchains _
    · exact .pure hchains _
  have hcompact : ∀ rows, Keeps (Within (Owns a)) (compactFile lib call a rows) := by
    intro rows
    refine .bind hchains (.read hchains _) fun isPresent => ?_
    dsimp only
    split
    · exact .bind hchains (applyBackupAndReplace_within a _ _) fun _ => .pure hchains _
    · exact .pure hchains _
  refine .bind hchains (.ask hchains _) fun out => ?_
  refine .bind hchains (hrepair _ _) fun repaired => .bind hchains (hcompact _) fun compacted => ?_
  split
  · exact .bind hchains (.ask hchains _) fun again => .pure hchains _
  · exact .pure hchains _

theorem checkFile_within : Keeps (Within (Owns a)) (checkFile lib call a) := by
  rw [checkFile]
  split
  · exact checkJsonl_within lib call a
  · exact .ask (within_chains _) _

def OwnedBy (artifacts : List KnownArtifact) (name : String) : Prop := ∃ b ∈ artifacts, Owns b name

theorem checkFiles_within (artifacts : List KnownArtifact) :
    Keeps (Within (OwnedBy artifacts)) (checkFiles lib call artifacts) := by
  induction artifacts with
  | nil => exact .pure (within_chains _) _
  | cons b rest ih =>
    have hchains := within_chains (OwnedBy (b :: rest))
    refine .bind hchains (fun d => ?_) fun report => .bind hchains (fun d => ?_) fun reports =>
      .pure hchains _
    · exact (checkFile_within lib call b d).mono fun name hname => ⟨b, List.mem_cons_self, hname⟩
    · refine (ih d).mono ?_
      rintro name ⟨c, hc, hname⟩
      exact ⟨c, List.mem_cons_of_mem _ hc, hname⟩

end Frame

section Running

variable (lib : DoctorLibraries) (call : DoctorCall) (files : String → Option ByteArray)

/-- Every file that the run has rewritten is backed up as it was before the run. -/
def KeepsOriginals : Prop :=
  ∀ a ∈ knownArtifacts, Backed a.fileName (files a.fileName) (runDoctor lib call ⟨files, []⟩).2

/-- The checks of the files before the artifact return. -/
def Reached (a : KnownArtifact) : Prop :=
  ∃ reports d, checkFiles lib call (knownArtifacts.takeWhile fun b => b ≠ a) ⟨files, []⟩ =
    (.ok reports, d)

theorem checkFiles_append (front back : List KnownArtifact) (d : Disk) :
    (checkFiles lib call (front ++ back) d).2 = match checkFiles lib call front d with
      | (.ok _, d') => (checkFiles lib call back d').2
      | (.error _, d') => d' := by
  have hcons : ∀ a rest, checkFiles lib call (a :: rest) = checkFile lib call a >>= fun report =>
      checkFiles lib call rest >>= fun reports => pure (report :: reports) := fun _ _ => rfl
  induction front generalizing d with
  | nil => rfl
  | cons a rest ih =>
    rw [List.cons_append, hcons, hcons]
    cases hfirst : checkFile lib call a d with
    | mk r d₁ =>
      cases r with
      | error e => rw [bind_error hfirst, bind_error hfirst]
      | ok report =>
        rw [bind_ok hfirst, bind_ok hfirst, bind_disk fun _ _ => rfl, ih d₁]
        cases hrest : checkFiles lib call rest d₁ with
        | mk r' d₂ =>
          cases r' with
          | error e => rw [bind_error hrest]
          | ok reports =>
            rw [bind_ok hrest]
            rfl

theorem split_at {α : Type} [DecidableEq α] {a : α} {l : List α} (h : a ∈ l) (hnodup : l.Nodup) :
    ∃ back, l = (l.takeWhile fun b => b ≠ a) ++ a :: back ∧ a ∉ back := by
  induction l with
  | nil => cases h
  | cons b rest ih =>
    obtain ⟨hb, hrest⟩ := List.nodup_cons.mp hnodup
    by_cases hba : b = a
    · subst hba
      exact ⟨rest, by simp, hb⟩
    · obtain ⟨back, hsplit, hback⟩ := ih ((List.mem_cons.mp h).resolve_left (Ne.symm hba)) hrest
      refine ⟨back, ?_, hback⟩
      rw [List.takeWhile_cons_of_pos (by simpa using hba), List.cons_append, ← hsplit]

theorem checked_within {a : KnownArtifact} {back : List KnownArtifact} {d : Disk}
    (hapart : ∀ b ∈ back, ∀ name, Owns a name → ¬ Owns b name) :
    Within (fun name => ¬ Owns a name) (checkFile lib call a d).2
      (checkFiles lib call (a :: back) d).2 := by
  have hwithin : Within (OwnedBy back) (checkFile lib call a d).2
      (checkFiles lib call (a :: back) d).2 := by
    cases hcheck : checkFile lib call a d with
    | mk r d₁ =>
      rw [checkFiles]
      cases r with
      | error e =>
        rw [bind_error hcheck]
        exact (within_chains _).refl d₁
      | ok report =>
        rw [bind_ok hcheck, bind_disk fun _ _ => rfl]
        exact checkFiles_within lib call back d₁
  refine hwithin.mono ?_
  rintro name ⟨b, hb, hownb⟩ hname
  exact hapart b hb name hname hownb

/-- What a run does with the names of an artifact: its check, if the run gets to it. -/
theorem run_names {a : KnownArtifact} (ha : a ∈ knownArtifacts) :
    (Reached lib call files a ∧ ∃ d, Within (fun name => ¬ Owns a name) ⟨files, []⟩ d ∧
        Within (fun name => ¬ Owns a name) (checkFile lib call a d).2
          (runDoctor lib call ⟨files, []⟩).2) ∨
      (¬ Reached lib call files a ∧
        Within (fun name => ¬ Owns a name) ⟨files, []⟩ (runDoctor lib call ⟨files, []⟩).2) := by
  have hne : ∀ b ∈ knownArtifacts, b ≠ a → ∀ name, Owns a name → ¬ Owns b name :=
    fun b hb hba name hna hnb => hba (owner_unique hb ha hnb hna)
  obtain ⟨back, hsplit, hback⟩ : ∃ back,
      knownArtifacts = (knownArtifacts.takeWhile fun b => b ≠ a) ++ a :: back ∧ a ∉ back :=
    split_at ha (by decide)
  have hafter : ∀ b ∈ back, ∀ name, Owns a name → ¬ Owns b name := by
    intro b hb
    refine hne b ?_ ?_
    · rw [hsplit]
      exact List.mem_append_right _ (List.mem_cons_of_mem _ hb)
    · rintro rfl
      exact hback hb
  have hrun : (runDoctor lib call ⟨files, []⟩).2 =
      (checkFiles lib call knownArtifacts ⟨files, []⟩).2 := bind_disk fun _ _ => rfl
  have hdisk := checkFiles_append lib call (knownArtifacts.takeWhile fun b => b ≠ a) (a :: back)
    ⟨files, []⟩
  rw [← hsplit, ← hrun] at hdisk
  rw [hdisk]
  have hbefore : Within (fun name => ¬ Owns a name) ⟨files, []⟩
      (checkFiles lib call (knownArtifacts.takeWhile fun b => b ≠ a) ⟨files, []⟩).2 := by
    refine (checkFiles_within lib call _ ⟨files, []⟩).mono ?_
    rintro name ⟨b, hb, hownb⟩ hname
    exact hne b (List.takeWhile_subset _ hb) (by simpa using List.mem_takeWhile_imp hb) name hname
      hownb
  rw [Reached]
  cases hfront : checkFiles lib call (knownArtifacts.takeWhile fun b => b ≠ a) ⟨files, []⟩ with
  | mk r d =>
    rw [hfront] at hbefore
    cases r with
    | error e =>
      refine .inr ⟨?_, hbefore⟩
      rintro ⟨reports, d', hreached⟩
      cases hreached
    | ok reports => exact .inl ⟨⟨reports, d, rfl⟩, d, hbefore, checked_within lib call hafter⟩

theorem backed_congr {a : KnownArtifact} {d d' : Disk}
    (h : Within (fun name => ¬ Owns a name) d d') (original : Option ByteArray) :
    Backed a.fileName original d' ↔ Backed a.fileName original d := by
  have hfile := h.written _ (not_not.mpr (owns_file a))
  have hbackup := fun now => not_not.mpr (owns_backup a now)
  unfold Backed
  simp only [hfile, fun now => h.written _ (hbackup now), fun now => h.files _ (hbackup now)]

theorem file_backed_iff {a : KnownArtifact} (ha : a ∈ knownArtifacts) :
    Backed a.fileName (files a.fileName) (runDoctor lib call ⟨files, []⟩).2 ↔
      ¬ (Reached lib call files a ∧ TwiceAtOnce lib call a (files a.fileName)) := by
  rcases run_names lib call files ha with ⟨hreached, d, hbefore, hafter⟩ | ⟨hunreached, hrun⟩
  · have hfresh : Fresh a d := by
      intro name hmem hname
      cases (hbefore.written name (not_not.mpr hname)).mp hmem
    have hfile : d.files a.fileName = files a.fileName :=
      hbefore.files _ (not_not.mpr (owns_file a))
    rw [backed_congr hafter, ← hfile, checkFile_backed_iff hfresh, and_iff_right hreached]
  · have hfresh : Fresh a ⟨files, []⟩ := nofun
    rw [backed_congr hrun]
    exact iff_of_true hfresh.backed fun h => hunreached h.1

/-- Which calls lose an original: those that reach a file which they repair and compact
within one second. -/
theorem doctor_keeps_originals_iff :
    KeepsOriginals lib call files ↔ ∀ a ∈ knownArtifacts,
      ¬ (Reached lib call files a ∧ TwiceAtOnce lib call a (files a.fileName)) :=
  forall₂_congr fun _ ha => file_backed_iff lib call files ha

end Running

/-- `run_doctor(repair=True, compact=True)` within one second. -/
def bothCall : DoctorCall := { plainCall with repair := true, compact := true }

def doubledNotes : ByteArray :=
  encode (rowsText [noteFields naiveDate, noteFields naiveDate, strayFields])

def noteRow : Row := ⟨noteFields naiveDate, noteFields_plain naiveDate, none⟩

def doubledScan : Scan :=
  ⟨3, 2, 1, some naiveDate, ["line 3: ValidationError ('ts_iso',)"], [noteRow, noteRow]⟩

theorem scanLine_known {row : Dict} (h : row ∈ knownRows) (s : Scan) (lineNo : Nat) :
    scanLine noteLibraries episodicArtifact s lineNo (compactJson row) =
      match noteLibraries.validate "episodic" (.obj row) with
      | .error loc => .ok ({ s with recordCount := s.recordCount + 1 }.invalid
          ("line " ++ toString lineNo ++ ": ValidationError " ++ loc))
      | .ok validated =>
        countValid noteLibraries { s with recordCount := s.recordCount + 1 } validated := by
  have hraises : noteLibraries.loadsRaises (compactJson row) = none := rfl
  unfold scanLine
  dsimp only
  rw [strip_compactJson, if_neg (compactJson_ne_empty row), countRecord, jsonLoads, hraises,
    loads_known h]
  rfl

theorem scanFile_text {lib : DoctorLibraries} {a : KnownArtifact} {content : ByteArray}
    {text : String} (h : decode content = some text) :
    scanFile lib a content = scanLines lib a .empty 1 (lines text) := by
  rw [scanFile, h]

theorem doubledNotes_scan :
    scanFile noteLibraries episodicArtifact doubledNotes = .ok doubledScan := by
  have hplain : ∀ row ∈ [noteFields naiveDate, noteFields naiveDate, strayFields],
      PlainFloats (.obj row) := by
    have hnote := noteFields_plain naiveDate
    exact List.forall_mem_cons.mpr ⟨hnote, List.forall_mem_cons.mpr ⟨hnote,
      List.forall_mem_singleton.mpr ⟨trivial, trivial⟩⟩⟩
  have hnote : noteFields naiveDate ∈ knownRows := List.mem_cons_self
  have hstray : strayFields ∈ knownRows := by simp [knownRows]
  rw [doubledNotes, scanFile_text (decode_encode _), lines_rowsText hplain, List.map_cons,
    List.map_cons, List.map_cons, List.map_nil]
  simp only [List.cons_append, List.nil_append, scanLines, scanLine_known hnote,
    scanLine_known hstray]
  rfl

theorem original_lost :
    ¬ KeepsOriginals noteLibraries bothCall (episodicOnly doubledNotes).files := by
  have hepisodic : episodicArtifact ∈ knownArtifacts := by decide
  have htwice : TwiceAtOnce noteLibraries bothCall episodicArtifact (some doubledNotes) := by
    exact ⟨rfl, doubledNotes, doubledScan, rfl, doubledNotes_scan, ⟨rfl, by decide⟩,
      ⟨rfl, by decide⟩, rfl, rfl⟩
  intro h
  refine (file_backed_iff noteLibraries bothCall _ hepisodic).mp (h _ hepisodic) ⟨?_, htwice⟩
  exact ⟨_, _, rfl⟩

end DoctorBackups
