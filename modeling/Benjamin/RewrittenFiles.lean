import Benjamin.JsonReader
import Benjamin.RepairedFiles
import Benjamin.RuleStoreRuns
import Benjamin.TornTail

/-!
# Rewritten files

A store that rewrites its file writes one line of `json.dumps` for each record. Whatever the
file was, what its loader made of it is what the loader makes of the rewritten file, and no
line of the rewritten file is invalid.
-/
namespace RewrittenFiles

open PyBase JsonLines JsonReader RecordModels Doctor DoctorReading DoctorBackups RepairedFiles
  RuleSchemas RuleStore
open TornTail (looseJson)

/-- `json.dumps(record.model_dump(), ensure_ascii=False)`; rules are migrated once more. -/
def recordLine (store : Store) (record : store.Record) : String :=
  dumpsWith looseJson (.obj (store.model.dump (store.adapt record)))

/-- `_write_all` and `_rewrite`. -/
def fileOf (store : Store) (records : List store.Record) : ByteArray :=
  encode (linesText (records.map (recordLine store)))

/-- The stores that write with `json.dumps`. -/
def dumpedStores (v : Validation) : List Store :=
  (stores v).filter fun store => store.artifact.name ≠ "executions"

def Loadable (floats : Floats) (store : Store) (record : store.Record) : Prop :=
  ∃ payload read, Genuine (IsFloat floats) payload ∧ store.model.validate payload = some read ∧
    record = store.adapt read

theorem plain_looseJson : Plain looseJson := ⟨⟨[' '], rfl, rfl⟩, ⟨[' '], rfl, rfl⟩, rfl⟩

def numeric (c : Char) : Bool := c.isDigit || c ∈ ['-', '+', '.', 'e', 'E']

section Numeric

theorem digits_numeric (cs : List Char) : ∀ c ∈ (digits cs).1, numeric c = true := by
  intro c hc
  have hdigit : c.isDigit = true := by simpa using List.mem_takeWhile_imp hc
  simp [numeric, hdigit]

theorem oneOf_numeric (chars : List Char) (h : chars.all numeric = true) (cs : List Char) :
    ∀ c ∈ (oneOf chars cs).1, numeric c = true := by
  cases cs with
  | nil => simp [oneOf]
  | cons d cs =>
    simp only [oneOf]
    split
    · rename_i hd
      simpa using List.all_eq_true.mp h d hd
    · simp

theorem whole_numeric (cs : List Char) : ∀ c ∈ (whole cs).1, numeric c = true := by
  intro c hc
  simp [numeric, whole_digits cs c hc]

theorem fraction_numeric (cs : List Char) : ∀ c ∈ (fraction cs).1, numeric c = true := by
  cases cs with
  | nil => simp [fraction]
  | cons d cs =>
    have hdigits := digits_numeric cs
    simp only [fraction]
    split
    · rename_i hd
      rw [List.forall_mem_cons]
      exact ⟨by simp [hd.1, numeric], hdigits⟩
    · simp

theorem exponent_numeric (cs : List Char) : ∀ c ∈ (exponent cs).1, numeric c = true := by
  cases cs with
  | nil => simp [exponent]
  | cons d cs =>
    have hsign := oneOf_numeric ['-', '+'] (by decide) cs
    have hdigits := digits_numeric (oneOf ['-', '+'] cs).2
    simp only [exponent]
    split
    · rename_i hd
      rw [List.cons_append, List.forall_mem_cons, List.forall_mem_append]
      have hlead : numeric d = true := by
        obtain rfl | rfl : d = 'e' ∨ d = 'E' := by simpa using hd.1
        · decide
        · decide
      exact ⟨hlead, hsign, hdigits⟩
    · simp

theorem literal_numeric {repr : String} (h : FloatLiteral repr) :
    ∀ c ∈ repr.toList, numeric c = true := by
  have htext := parts_text repr.toList
  rw [h.2, List.append_nil] at htext
  rw [← htext]
  intro c hc
  simp only [Parts.text, parts, List.mem_append] at hc
  obtain ((hsign | hwhole) | hfraction) | hexponent := hc
  · exact oneOf_numeric _ (by decide) _ c hsign
  · exact whole_numeric _ c hwhole
  · exact fraction_numeric _ c hfraction
  · exact exponent_numeric _ c hexponent

end Numeric

theorem float_unbroken {floats : Floats} {repr : String} (h : IsFloat floats repr) :
    Unbroken repr := by
  rcases h with ⟨hliteral, -⟩ | hconstant
  · intro c hc
    have hnumeric := literal_numeric hliteral c hc
    constructor
    · rintro rfl
      exact absurd hnumeric (by decide)
    · rintro rfl
      exact absurd hnumeric (by decide)
  · simp only [List.mem_cons, List.not_mem_nil, or_false] at hconstant
    obtain rfl | rfl | rfl := hconstant <;> decide

theorem plainItems_of_forall {items : List Json} (h : ∀ item ∈ items, PlainFloats item) :
    PlainItems items := by
  induction items with
  | nil => exact trivial
  | cons item rest ih => exact ⟨h item List.mem_cons_self, ih fun x hx => h x (.tail _ hx)⟩

theorem plainFields_of_forall {fields : Dict} (h : ∀ kv ∈ fields, PlainFloats kv.2) :
    PlainFields fields := by
  induction fields with
  | nil => exact trivial
  | cons kv rest ih => exact ⟨h kv List.mem_cons_self, ih fun x hx => h x (.tail _ hx)⟩

theorem genuine_plain {floats : Floats} {j : Json} (h : Genuine (IsFloat floats) j) :
    PlainFloats j := by
  induction h with
  | null => exact trivial
  | bool b => exact trivial
  | int n => exact trivial
  | float hfloat => exact float_unbroken hfloat
  | str s => exact trivial
  | arr _ ih => exact plainItems_of_forall ih
  | obj _ _ ih => exact plainFields_of_forall ih

theorem looseLine_unbroken {floats : Floats} {fields : Dict}
    (h : Genuine (IsFloat floats) (.obj fields)) :
    Unbroken (dumpsWith looseJson (.obj fields)) :=
  dumpsWith_unbroken ⟨by decide, by decide, rfl⟩ (genuine_plain h)

theorem looseLine_filled (fields : Dict) :
    strip (dumpsWith looseJson (.obj fields)) = dumpsWith looseJson (.obj fields) ∧
      dumpsWith looseJson (.obj fields) ≠ "" := by
  obtain ⟨middle, hline⟩ := dumpsWith_braces looseJson fields
  rw [hline]
  refine ⟨strip_between (by decide) (by decide) middle, fun h => ?_⟩
  cases String.ofList_inj.mp h

theorem rawLines_linesText {ls : List String} (hunbroken : ∀ line ∈ ls, Unbroken line)
    (hfilled : ∀ line ∈ ls, strip line = line ∧ line ≠ "") :
    rawLines (some (encode (linesText ls))) = ls := by
  simp only [rawLines, Option.bind_some, decode_encode, Option.map_some, Option.getD_some]
  rw [lines_linesText hunbroken, filled_append, filled_id hfilled]
  simp [filled, strip]

section Rewriting

variable {lib : Libraries} {floats : Floats} {store : Store}

structure Restored (floats : Floats) (store : Store) (record : store.Record) : Prop where
  genuine : Genuine (IsFloat floats) (.obj (store.model.dump (store.adapt record)))
  validates : store.model.validate (.obj (store.model.dump (store.adapt record))) = some record
  adapted : store.adapt record = record

theorem recordLine_unbroken {record : store.Record} (h : Restored floats store record) :
    Unbroken (recordLine store record) := looseLine_unbroken h.genuine

theorem recordLine_filled (store : Store) (record : store.Record) :
    strip (recordLine store record) = recordLine store record ∧ recordLine store record ≠ "" :=
  looseLine_filled _

theorem rawLines_fileOf {records : List store.Record}
    (h : ∀ record ∈ records, Restored floats store record) :
    rawLines (some (fileOf store records)) = records.map (recordLine store) := by
  have hunbroken : ∀ line ∈ records.map (recordLine store), Unbroken line := by
    intro line hline
    obtain ⟨record, hrecord, rfl⟩ := List.mem_map.mp hline
    exact recordLine_unbroken (h record hrecord)
  have hfilled : ∀ line ∈ records.map (recordLine store), strip line = line ∧ line ≠ "" := by
    intro line hline
    obtain ⟨record, -, rfl⟩ := List.mem_map.mp hline
    exact recordLine_filled store record
  exact rawLines_linesText hunbroken hfilled

theorem recordOn_line {record : store.Record} (h : Restored floats store record)
    (hquiet : lib.loadsRaises (recordLine store record) = none) :
    recordOn (reading lib floats) store.model (recordLine store record) = some record := by
  have hloads : (reading lib floats).loads (recordLine store record) =
      some (.obj (store.model.dump (store.adapt record))) :=
    loads_dumpsWith plain_looseJson h.genuine
  have hraises : (reading lib floats).loadsRaises (recordLine store record) = none := hquiet
  rw [recordOn, if_pos hraises, hloads, Option.bind_some]
  exact h.validates

theorem filterMap_lines {records : List store.Record}
    (h : ∀ record ∈ records, Restored floats store record)
    (hquiet : ∀ record ∈ records, lib.loadsRaises (recordLine store record) = none) :
    (records.map (recordLine store)).filterMap (recordOn (reading lib floats) store.model) =
      records := by
  induction records with
  | nil => rfl
  | cons record rest ih =>
    rw [List.forall_mem_cons] at h hquiet
    rw [List.map_cons, List.filterMap_cons, recordOn_line h.1 hquiet.1, ih h.2 hquiet.2]

/-- The store loads the records it has written. -/
theorem load_fileOf {records : List store.Record}
    (h : ∀ record ∈ records, Restored floats store record)
    (hquiet : ∀ record ∈ records, lib.loadsRaises (recordLine store record) = none) :
    load (reading lib floats) store (some (fileOf store records)) = .ok records := by
  have hlines := rawLines_fileOf h
  have hraises : ∀ raw ∈ rawLines (some (fileOf store records)),
      (reading lib floats).loadsRaises raw = none := by
    rw [hlines]
    intro raw hraw
    obtain ⟨record, hrecord, rfl⟩ := List.mem_map.mp hraw
    exact hquiet record hrecord
  have hadapted : records.map store.adapt = records :=
    (List.map_congr_left fun record hrecord => (h record hrecord).adapted).trans (List.map_id _)
  have hdecode : decode (fileOf store records) =
      some (linesText (records.map (recordLine store))) :=
    decode_encode _
  rw [load_quiet hdecode hraises, hlines, filterMap_lines h hquiet, hadapted]

theorem valid_fileOf {records : List store.Record}
    (h : ∀ record ∈ records, Restored floats store record)
    (hquiet : ∀ record ∈ records, lib.loadsRaises (recordLine store record) = none) :
    AllValid (reading lib floats) store.model (some (fileOf store records)) := by
  rw [AllValid, rawLines_fileOf h]
  intro raw hraw
  obtain ⟨record, hrecord, rfl⟩ := List.mem_map.mp hraw
  rw [recordOn_line (h record hrecord) (hquiet record hrecord)]
  rfl

theorem loadLines_loadable {raws : List String} {records : List store.Record}
    (h : loadLines (reading lib floats) store raws = .ok records) :
    ∀ record ∈ records, Loadable floats store record := by
  induction raws generalizing records with
  | nil =>
    cases h
    simp
  | cons raw rest ih =>
    simp only [loadLines, jsonLoads] at h
    cases hraises : (reading lib floats).loadsRaises raw with
    | some e =>
      simp only [hraises] at h
      split at h
      · exact ih h
      · cases h
    | none =>
      simp only [hraises] at h
      cases hread : ((reading lib floats).loads raw).bind store.model.validate with
      | none =>
        rw [hread] at h
        exact ih h
      | some read =>
        rw [hread] at h
        obtain ⟨payload, hpayload, hvalidate⟩ := Option.bind_eq_some_iff.mp hread
        cases hrest : loadLines (reading lib floats) store rest with
        | error e =>
          rw [hrest] at h
          cases h
        | ok others =>
          rw [hrest] at h
          cases h
          intro record hrecord
          rcases List.mem_cons.mp hrecord with rfl | hother
          · exact ⟨payload, read, loads_genuine hpayload, hvalidate, rfl⟩
          · exact ih hrest record hother

theorem load_loadable {content : Option ByteArray} {records : List store.Record}
    (h : load (reading lib floats) store content = .ok records) :
    ∀ record ∈ records, Loadable floats store record := by
  cases content with
  | none =>
    cases h
    simp
  | some bytes =>
    unfold load at h
    dsimp only at h
    split at h
    · cases h
    · exact loadLines_loadable h

end Rewriting

section Stores

variable {floats : Floats} {v : Validation}

theorem restored_of_unadapted {store : Store} (hadapt : ∀ record, store.adapt record = record)
    {record : store.Record} (h : Loadable floats store record) : Restored floats store record := by
  obtain ⟨payload, read, hgenuine, hvalidate, rfl⟩ := h
  simp only [hadapt]
  exact ⟨by simpa only [hadapt] using store.model.genuine hgenuine hvalidate,
    by simpa only [hadapt] using store.model.stable hvalidate, hadapt _⟩

theorem genuine_actions {IsFloat : String → Prop} {r other : Rule} (h : other.actions = r.actions)
    (hgenuine : Genuine IsFloat (.obj (dumpRule r))) : Genuine IsFloat (.obj (dumpRule other)) := by
  have heach : Genuine IsFloat (.arr (r.actions.map fun action => .obj (dumpAction action))) :=
    (genuine_obj_iff.mp hgenuine).2 ("actions", _) (by simp [dumpRule])
  refine .obj (by simp [dumpRule]) ?_
  simp only [dumpRule, List.forall_mem_cons, h]
  exact ⟨.str _, .str _, .bool _, .str _, .str _, genuine_dumpTrigger _, genuine_dumpCondition _,
    heach, .int _, .int _, genuine_dumpState _, genuine_optionalStr _,
    genuine_optionalStr _, by simp⟩

def rulesFile (v : Validation) : Store :=
  ⟨jsonlArtifact "rules" none, _, rule v, catchesValueErrors, migrateRule⟩

theorem restored_rule {record : Rule} (h : Loadable floats (rulesFile v) record) :
    Restored floats (rulesFile v) record := by
  obtain ⟨payload, read, hgenuine, hvalidate, rfl⟩ := h
  have hnormal := RuleStoreRuns.normal_migrateRule read
  have hdumped := genuine_dumpRule v hgenuine hvalidate
  have hadapted : migrateRule (migrateRule read) = migrateRule read := hnormal.migrateRule
  refine ⟨?_, ?_, hadapted⟩
  · change Genuine _ (.obj (dumpRule (migrateRule (migrateRule read))))
    rw [hadapted]
    exact genuine_actions (show (migrateRule read).actions = read.actions from rfl) hdumped
  · change validateRule v (.obj (dumpRule (migrateRule (migrateRule read)))) = _
    rw [hadapted, validateRule, validateRuleFields_dumpRule, Option.map_some,
      hnormal.migrateLegacyState]
    rfl

theorem restored_of_loadable {store : Store} (hstore : store ∈ stores v) {record : store.Record}
    (h : Loadable floats store record) : Restored floats store record := by
  simp only [stores, List.mem_cons, List.not_mem_nil, or_false] at hstore
  obtain rfl | rfl | rfl | rfl | rfl | rfl := hstore
  · exact restored_of_unadapted (fun _ => rfl) h
  · exact restored_of_unadapted (fun _ => rfl) h
  · exact restored_of_unadapted (fun _ => rfl) h
  · exact restored_rule h
  · exact restored_of_unadapted (fun _ => rfl) h
  · exact restored_of_unadapted (fun _ => rfl) h

end Stores

/-- What a store makes of any file, it makes again of the file that it rewrites from that, and
no line of that file is invalid. -/
theorem rewritten_loads_again (lib : Libraries) (floats : Floats) (v : Validation) {store : Store}
    (hstore : store ∈ dumpedStores v) {content : Option ByteArray}
    {records : List store.Record} (hload : load (reading lib floats) store content = .ok records)
    (hquiet : ∀ record ∈ records, lib.loadsRaises (recordLine store record) = none) :
    load (reading lib floats) store (some (fileOf store records)) = .ok records ∧
      AllValid (reading lib floats) store.model (some (fileOf store records)) ∧
      rawLines (some (fileOf store records)) = records.map (recordLine store) := by
  have hrestored : ∀ record ∈ records, Restored floats store record := fun record hrecord =>
    restored_of_loadable (List.mem_of_mem_filter hstore) (load_loadable hload record hrecord)
  exact ⟨load_fileOf hrestored hquiet, valid_fileOf hrestored hquiet, rawLines_fileOf hrestored⟩

def semanticFile : Store := ⟨jsonlArtifact "semantic" none, _, semanticFact, catchesValueErrors, id⟩

def teaFact : StoredFact :=
  ⟨"f1", "preference:tea", "Always green tea.", "global", ["preference"],
    "2026-01-05T09:00:00+00:00",
    "2026-01-05T09:00:00+00:00"⟩

def noFloats : Floats where
  repr _ := "0.0"
  settled _ _ := .inl (by decide)

/-- `json.loads` gives up on no text. -/
def quietLibraries : Libraries where
  toRuntime := AssistantState.exampleRuntime (fun _ => .returned "") fun _ => none
  loadsRaises _ := none
  zoneInfo _ := .notFound

/-- What is left of a line that a crash has cut off. -/
def tornLine : String := r#"{"id": "f"#

theorem tornLine_unread : loads noFloats tornLine = none := by decide

def tornLines : List String := [tornLine, recordLine semanticFile teaFact]

theorem restored_fact (fact : StoredFact) : Restored noFloats semanticFile fact :=
  ⟨genuine_dumpFact fact, validate_dumpFact fact, rfl⟩

theorem tornLines_unbroken : ∀ line ∈ tornLines, Unbroken line := by
  simp only [tornLines, List.forall_mem_cons]
  exact ⟨by decide, @recordLine_unbroken noFloats semanticFile teaFact (restored_fact teaFact),
    by simp⟩

theorem tornLines_filled : ∀ line ∈ tornLines, strip line = line ∧ line ≠ "" := by
  simp only [tornLines, List.forall_mem_cons]
  exact ⟨by decide, recordLine_filled semanticFile teaFact, by simp⟩

theorem recordOn_tornLine :
    recordOn (reading quietLibraries noFloats) semanticFile.model tornLine = none := by
  change Option.bind (loads noFloats tornLine) validateFact = none
  rw [tornLine_unread]
  rfl

theorem tornLines_load :
    load (reading quietLibraries noFloats) semanticFile (some (encode (linesText tornLines))) =
      .ok [teaFact] := by
  have hlines := rawLines_linesText tornLines_unbroken tornLines_filled
  have hsome : recordOn (reading quietLibraries noFloats) semanticFile.model
      (recordLine semanticFile teaFact) = some teaFact :=
    @recordOn_line quietLibraries noFloats semanticFile teaFact (restored_fact teaFact) rfl
  rw [load_quiet (decode_encode _) fun _ _ => rfl, hlines, tornLines]
  rw [List.filterMap_cons_none recordOn_tornLine, List.filterMap_cons_some hsome]
  rfl

theorem teaFact_loads_again :
    load (reading quietLibraries noFloats) semanticFile (some (fileOf semanticFile [teaFact])) =
      .ok [teaFact] :=
  (rewritten_loads_again quietLibraries noFloats strictValidation
    (List.mem_filter.mpr ⟨List.mem_cons_self, by decide⟩) tornLines_load fun _ _ => rfl).1

/-- The doctor with the reader, and with the models of the stores. -/
noncomputable def tornDoctor : DoctorLibraries where
  toLibraries := reading quietLibraries noFloats
  jsonError _ := "Unterminated string starting at"
  validate := validateAs

theorem tornDoctor_reads : ReadsRows tornDoctor.toLibraries := by
  have hfloats : ReadsFloat tornDoctor.toLibraries = IsFloat noFloats := by
    funext repr
    exact propext (@readsFloat_iff quietLibraries noFloats repr)
  constructor
  · intro text payload hloads
    rw [hfloats]
    exact loads_genuine hloads
  · intro fields hgenuine _
    rw [hfloats] at hgenuine
    exact loads_dumpsWith ⟨⟨[], rfl, rfl⟩, ⟨[], rfl, rfl⟩, rfl⟩ hgenuine

def tornFacts : String → Option ByteArray :=
  fun name => if name = "semantic.jsonl" then some (encode (linesText tornLines)) else none

theorem factLine_loads :
    jsonLoads tornDoctor.toLibraries (recordLine semanticFile teaFact) =
      .ok (some (.obj (dumpFact teaFact))) :=
  congrArg Except.ok (loads_dumpsWith plain_looseJson (genuine_dumpFact teaFact))

theorem teaFact_plain : PlainFloats (.obj (dumpFact teaFact)) := by
  simp [dumpFact, teaFact, PlainFloats, PlainFields, PlainItems]

theorem teaFact_valid : tornDoctor.validate "semantic" (.obj (dumpFact teaFact)) =
    .ok ⟨.ok ⟨dumpFact teaFact, teaFact_plain, none⟩, teaFact.updatedAtIso⟩ := by
  have hmem : semanticFile ∈ stores strictValidation := List.mem_cons_self
  have hvalidate := validateAs_store hmem (.obj (dumpFact teaFact))
  have hfact : semanticFile.model.validate (.obj (dumpFact teaFact)) = some teaFact :=
    validate_dumpFact teaFact
  have hdumped : (image semanticFact teaFact).dumped =
      .ok ⟨dumpFact teaFact, teaFact_plain, none⟩ := dif_pos teaFact_plain
  rw [hfact] at hvalidate
  rw [← hdumped]
  exact hvalidate

def tornScan (records : Nat) : Scan :=
  ⟨records, 0, 1, none, ["line 1: JSONDecodeError Unterminated string starting at"], []⟩

theorem tornLine_counted : countRecord tornDoctor semanticFile.artifact
    { Scan.empty with recordCount := 1 } 1 tornLine = .ok (tornScan 1) := by
  have hloads : jsonLoads tornDoctor.toLibraries tornLine = .ok none :=
    congrArg Except.ok tornLine_unread
  rw [countRecord, hloads]
  rfl

theorem factLine_counted : countRecord tornDoctor semanticFile.artifact (tornScan 2) 2
    (recordLine semanticFile teaFact) = .ok { tornScan 2 with
      validCount := 1
      rows := [⟨dumpFact teaFact, teaFact_plain, none⟩] } := by
  have hname : semanticFile.artifact.name = "semantic" := rfl
  rw [countRecord, factLine_loads, hname]
  dsimp only
  rw [teaFact_valid]
  rfl

theorem scanLine_filled {lib : DoctorLibraries} {a : KnownArtifact} {s : Scan} {lineNo : Nat}
    {line : String} (h : strip line = line ∧ line ≠ "") :
    scanLine lib a s lineNo line =
      countRecord lib a { s with recordCount := s.recordCount + 1 } lineNo line := by
  simp only [scanLine, h.1, if_neg h.2]

theorem scanLine_blank {lib : DoctorLibraries} {a : KnownArtifact} {line : String}
    (h : strip line = "") (s : Scan) (lineNo : Nat) : scanLine lib a s lineNo line = .ok s :=
  if_pos h

theorem scanLines_scanned {lib : DoctorLibraries} {a : KnownArtifact} {s s' : Scan} {lineNo : Nat}
    {line : String} (h : scanLine lib a s lineNo line = .ok s') (rest : List String) :
    scanLines lib a s lineNo (line :: rest) = scanLines lib a s' (lineNo + 1) rest := by
  rw [scanLines, h]

theorem tornLines_scan : ∃ s, scanFile tornDoctor semanticFile.artifact
    (encode (linesText tornLines)) = .ok s ∧
      s.rows = [⟨dumpFact teaFact, teaFact_plain, none⟩] := by
  have htorn : scanLine tornDoctor semanticFile.artifact .empty 1 tornLine = .ok (tornScan 1) :=
    (scanLine_filled (by decide)).trans tornLine_counted
  have hfact := (scanLine_filled (s := tornScan 1) (recordLine_filled semanticFile teaFact)).trans
    factLine_counted
  have hblank : strip "" = "" := by decide
  refine ⟨{ tornScan 2 with
    validCount := 1
    rows := [⟨dumpFact teaFact, teaFact_plain, none⟩] }, ?_, rfl⟩
  rw [scanFile_text (decode_encode _), lines_linesText tornLines_unbroken, tornLines,
    List.cons_append, List.cons_append, List.nil_append, scanLines_scanned htorn,
    scanLines_scanned hfact, scanLines_scanned (scanLine_blank hblank _ _), scanLines]

/-- The torn line is dropped, and the fact is loaded as before. -/
theorem tornFacts_preserved :
    ¬ AllValid tornDoctor.toLibraries semanticFact (tornFacts "semantic.jsonl") ∧
      load tornDoctor.toLibraries semanticFile
        (filesAfter tornDoctor plainCall tornFacts "semantic.jsonl") = .ok [teaFact] ∧
      ∀ store ∈ stores strictValidation,
        Preserved tornDoctor store plainCall plainCall tornFacts := by
  have hpreserved : ∀ store ∈ stores strictValidation,
      Preserved tornDoctor store plainCall plainCall tornFacts := by
    refine (repair_preserves_iff (fun store hstore => sharesModel_validateAs rfl hstore)
      tornDoctor_reads plainCall plainCall tornFacts).mpr fun store hstore => ?_
    simp only [stores, List.mem_cons, List.not_mem_nil, or_false] at hstore
    rcases hstore with rfl | hother
    · obtain ⟨s, hscan, hrows⟩ := tornLines_scan
      refine .inr ⟨⟨[], _, rfl⟩, _, s, rfl, hscan, ?_, fun _ _ => rfl⟩
      rw [hrows]
      rfl
    · have habsent : tornFacts store.artifact.fileName = none := by
        rcases hother with rfl | rfl | rfl | rfl | rfl <;> rfl
      rw [habsent]
      exact .inl fun _ hline => absurd hline List.not_mem_nil
  refine ⟨?_, ?_, hpreserved⟩
  · intro hvalid
    have hlines := rawLines_linesText tornLines_unbroken tornLines_filled
    have hread := hvalid tornLine (by
      change tornLine ∈ rawLines (some (encode (linesText tornLines)))
      rw [hlines]
      exact List.mem_cons_self)
    have hnone : recordOn tornDoctor.toLibraries semanticFact tornLine = none := recordOn_tornLine
    rw [hnone] at hread
    cases hread
  · exact (hpreserved semanticFile List.mem_cons_self).records.trans tornLines_load
end RewrittenFiles
