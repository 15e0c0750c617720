import Benjamin.Amendments
import Benjamin.NewestScans
import Benjamin.RewrittenFiles

/-!
# Semantic memory

`SemanticMemoryStore` over the bytes of its file. Each operation loads the file line by line
and each upsert rewrites it, yet over any run the store is a list of facts that are amended
under their scope and key: a fact keeps its identifier, its creation time and its place, and
has the value, the tags and the time of the last write to it. Lines that the loader cannot
use are gone after the first upsert and never read.
-/
namespace SemanticMemory

open PyBase RecordModels RepairedFiles RewrittenFiles JsonReader RunSearch Amendments
open BoundedLog (latest)

/-- A call of `upsert`, with the time and the identifier that a new fact would get. -/
structure FactWrite where
  nowIso : String
  newId : String
  key : String
  value : String
  scope : String
  tags : Option (List String)

/-- `tags or []`. -/
def FactWrite.tagList (w : FactWrite) : List String := w.tags.getD []

def FactWrite.updated (w : FactWrite) (fact : StoredFact) : StoredFact :=
  { fact with value := w.value, tags := w.tagList, updatedAtIso := w.nowIso }

def FactWrite.newFact (w : FactWrite) : StoredFact :=
  ⟨w.newId, w.key, w.value, w.scope, w.tagList, w.nowIso, w.nowIso⟩

/-- The loop of `upsert`: the first fact with the scope and the key, and the facts with it
replaced. -/
def replaceFirst (w : FactWrite) : List StoredFact → Option (StoredFact × List StoredFact)
  | [] => none
  | fact :: rest =>
    if fact.scope = w.scope ∧ fact.key = w.key then
      some (w.updated fact, w.updated fact :: rest)
    else (replaceFirst w rest).map fun (found, facts) => (found, fact :: facts)

/-- `facts[:limit]`. -/
def sliceTo (limit : Int) (facts : List StoredFact) : List StoredFact :=
  if 0 ≤ limit then facts.take limit.toNat else facts.take (facts.length - limit.natAbs)

def factText (fact : StoredFact) : String :=
  " ".intercalate [fact.key, fact.value, " ".intercalate fact.tags]

/-- The loop of `search`; the limit is looked at after every fact. -/
def searchLoop (hit : StoredFact → Bool) (limit : Int) (found : List StoredFact) :
    List StoredFact → List StoredFact
  | [] => found
  | fact :: rest =>
    let found := if hit fact then found ++ [fact] else found
    if limit ≤ found.length then found else searchLoop hit limit found rest

section Store

variable (lib : Libraries)

/-- `_load_all`. -/
def loadFacts (file : Option ByteArray) : Except PyError (List StoredFact) :=
  load lib semanticFile file

/-- `_write_all`. -/
def factsFile (all : List StoredFact) : ByteArray := fileOf semanticFile all

def upsert (w : FactWrite) (file : Option ByteArray) :
    Except PyError StoredFact × Option ByteArray :=
  match loadFacts lib file with
  | .error e => (.error e, file)
  | .ok facts =>
    match replaceFirst w facts with
    | some (updated, facts) => (.ok updated, some (factsFile facts))
    | none => (.ok w.newFact, some (factsFile (facts ++ [w.newFact])))

def listAll (scope : Option String) (file : Option ByteArray) :
    Except PyError (List StoredFact) :=
  (loadFacts lib file).map fun facts =>
    match scope with
    | none => facts
    | some scope => facts.filter fun fact => decide (fact.scope = scope)

def search (text : String) (limit : Int) (file : Option ByteArray) :
    Except PyError (List StoredFact) :=
  let query := strip (lib.casefold text)
  if query = "" then (listAll lib none file).map (sliceTo limit)
  else (loadFacts lib file).map
    (searchLoop (fun fact => matchesQuery lib.toRuntime (factText fact) query) limit [])

end Store

inductive MemoryOp where
  | upsert (w : FactWrite)
  | listAll (scope : Option String)
  | search (text : String) (limit : Int)

inductive Answer where
  | fact (fact : StoredFact)
  | facts (facts : List StoredFact)

def observe (lib : Libraries) (file : Option ByteArray) :
    MemoryOp → Except PyError Answer × Option ByteArray
  | .upsert w => ((upsert lib w file).1.map .fact, (upsert lib w file).2)
  | .listAll scope => ((listAll lib scope file).map .facts, file)
  | .search text limit => ((search lib text limit file).map .facts, file)

def factPlace (fact : StoredFact) : String × String := (fact.scope, fact.key)

def factIdentity (fact : StoredFact) : String × String × String × String :=
  (fact.id, fact.scope, fact.key, fact.createdAtIso)

def factContent (fact : StoredFact) : String × List String × String :=
  (fact.value, fact.tags, fact.updatedAtIso)

def facts : Amending FactWrite StoredFact (String × String) (String × String × String × String)
    (String × List String × String) where
  key := factPlace
  place w := (w.scope, w.key)
  make w old := (old.map w.updated).getD w.newFact
  identity := factIdentity
  content := factContent
  written w := (w.value, w.tagList, w.nowIso)
  key_make w old h := by
    cases old with
    | none => rfl
    | some fact => exact h fact rfl
  identity_make w fact := rfl
  content_make w old := by cases old <;> rfl

/-- What a search finds: the first matches, as many as the limit allows. With a limit
below 1 the loop stops at the first fact. -/
def found (rt : Runtime) (text : String) (limit : Int) (all : List StoredFact) :
    List StoredFact :=
  let query := strip (rt.casefold text)
  let hit := fun fact => matchesQuery rt (factText fact) query
  if query = "" then sliceTo limit all
  else if 1 ≤ limit then (all.filter hit).take limit.toNat
  else (all.take 1).filter hit

def recollect (rt : Runtime) (all : List StoredFact) :
    MemoryOp → Except PyError Answer × List StoredFact
  | .upsert w => (.ok (.fact (made facts w all)), amend facts all w)
  | .listAll none => (.ok (.facts all), all)
  | .listAll (some scope) =>
    (.ok (.facts (all.filter fun fact => decide (fact.scope = scope))), all)
  | .search text limit => (.ok (.facts (found rt text limit all)), all)

def MemoryOp.write? : MemoryOp → Option FactWrite
  | .upsert w => some w
  | _ => none

structure Remembers (before : List StoredFact) (ws : List FactWrite) (after : List StoredFact) :
    Prop where
  content : ∀ place, (KeyedList.get factPlace after place).map factContent =
    ((latest facts.place ws place).map facts.written).or
      ((KeyedList.get factPlace before place).map factContent)
  identities : before.map factIdentity <+: after.map factIdentity
  places : after.map factPlace = before.map factPlace ++ newKeys facts before ws

theorem replaceFirst_some {w : FactWrite} {all : List StoredFact} {fact : StoredFact}
    (h : KeyedList.get factPlace all (w.scope, w.key) = some fact) :
    replaceFirst w all =
    some (w.updated fact, KeyedList.upsert factPlace (w.updated fact) all) := by
  have hplace := KeyedList.get_key h
  induction all with
  | nil => cases h
  | cons other rest ih =>
    rw [KeyedList.get_cons] at h
    have hupdated : factPlace (w.updated fact) = (w.scope, w.key) := hplace
    by_cases hother : factPlace other = (w.scope, w.key)
    · rw [if_pos hother] at h
      obtain rfl := Option.some.inj h
      have hboth : other.scope = w.scope ∧ other.key = w.key := Prod.mk.inj hother
      simp [replaceFirst, KeyedList.upsert, hboth, hupdated, hother]
    · rw [if_neg hother] at h
      have hboth : ¬ (other.scope = w.scope ∧ other.key = w.key) :=
        fun hsame => hother (Prod.ext hsame.1 hsame.2)
      simp only [replaceFirst, KeyedList.upsert, hboth, hupdated, hother, if_false, ih h,
        Option.map_some]

theorem replaceFirst_none {w : FactWrite} {all : List StoredFact}
    (h : KeyedList.get factPlace all (w.scope, w.key) = none) : replaceFirst w all = none := by
  rw [KeyedList.get_none_iff] at h
  induction all with
  | nil => rfl
  | cons other rest ih =>
    rw [List.forall_mem_cons] at h
    have hboth : ¬ (other.scope = w.scope ∧ other.key = w.key) :=
      fun hsame => h.1 (Prod.ext hsame.1 hsame.2)
    simp only [replaceFirst, hboth, if_false, ih h.2, Option.map_none]

theorem searchLoop_collect {hit : StoredFact → Bool} {limit : Int} (hlimit : 1 ≤ limit)
    (found all : List StoredFact) :
    searchLoop hit limit found all = CappedSelection.collect hit limit.toNat found all := by
  induction all generalizing found with
  | nil => rfl
  | cons fact rest ih =>
    simp only [searchLoop, CappedSelection.collect, ih]
    have hiff : ∀ n : Nat, limit ≤ n ↔ limit.toNat ≤ n := fun n => by omega
    simp only [hiff]

theorem searchLoop_first {hit : StoredFact → Bool} {limit : Int} (hlimit : limit < 1)
    (all : List StoredFact) : searchLoop hit limit [] all = (all.take 1).filter hit := by
  cases all with
  | nil => rfl
  | cons fact rest =>
    have hfull : ∀ n : Nat, limit ≤ n := fun n => by omega
    simp only [searchLoop, hfull, if_true, List.take_succ_cons, List.take_zero]
    cases hfact : hit fact with
    | true => simp [hfact]
    | false => simp [hfact]

section Refinement

variable {lib : Libraries} {floats : Floats} {file : Option ByteArray} {all : List StoredFact}

theorem load_facts (hquiet : ∀ fact, lib.loadsRaises (recordLine semanticFile fact) = none)
    (all : List StoredFact) :
    loadFacts (reading lib floats) (some (factsFile all)) = .ok all :=
  load_fileOf (fun fact _ => ⟨genuine_dumpFact fact, validate_dumpFact fact, rfl⟩)
    fun fact _ => hquiet fact

theorem upsert_ok (h : loadFacts lib file = .ok all) (w : FactWrite) :
    upsert lib w file =
      (.ok (made facts w all), some (factsFile (amend facts all w))) := by
  cases hget : KeyedList.get factPlace all (w.scope, w.key) with
  | some fact =>
    have hmade : made facts w all = w.updated fact := by
      change (((KeyedList.get factPlace all (w.scope, w.key)).map w.updated).getD w.newFact) = _
      rw [hget]
      rfl
    have hamend : amend facts all w = KeyedList.upsert factPlace (w.updated fact) all := by
      rw [amend, hmade]
      rfl
    simp only [upsert, h, replaceFirst_some hget, hamend, hmade]
  | none =>
    have hmade : made facts w all = w.newFact := by
      change (((KeyedList.get factPlace all (w.scope, w.key)).map w.updated).getD w.newFact) = _
      rw [hget]
      rfl
    have hamend : amend facts all w = all ++ [w.newFact] := amend_of_new hget
    simp only [upsert, h, replaceFirst_none hget, hamend, hmade]

theorem search_ok (h : loadFacts lib file = .ok all) (text : String) (limit : Int) :
    search lib text limit file = .ok (found lib.toRuntime text limit all) := by
  unfold search found
  by_cases hblank : strip (lib.casefold text) = ""
  · simp [hblank, listAll, h, Except.map]
  · by_cases hlimit : 1 ≤ limit
    · have hcollect : ∀ hit, CappedSelection.collect hit limit.toNat [] all =
          (all.filter hit).take limit.toNat := fun hit => by
        rw [CappedSelection.collect_eq (by simp only [List.length_nil]; omega)]
        simp
      simp [hblank, h, hlimit, Except.map, searchLoop_collect hlimit, hcollect]
    · simp [hblank, h, hlimit, Except.map, searchLoop_first (by omega : limit < 1)]

/-- One call answers from the facts and leaves the facts that the list would have. -/
theorem observe_recollect (hquiet : ∀ fact, lib.loadsRaises (recordLine semanticFile fact) = none)
    (h : loadFacts (reading lib floats) file = .ok all) (op : MemoryOp) :
    (observe (reading lib floats) file op).1 = (recollect lib.toRuntime all op).1 ∧
      loadFacts (reading lib floats) (observe (reading lib floats) file op).2 =
        .ok (recollect lib.toRuntime all op).2 := by
  cases op with
  | upsert w =>
    have hupsert := upsert_ok h w
    simp only [observe, recollect, hupsert]
    exact ⟨rfl, load_facts hquiet _⟩
  | listAll scope =>
    refine ⟨?_, h.trans ?_⟩
    · cases scope <;> simp [observe, recollect, listAll, h, Except.map]
    · cases scope <;> rfl
  | search text limit =>
    have hsearch := search_ok h text limit
    simp only [observe, recollect, hsearch]
    exact ⟨rfl, h⟩

def fileAfter (lib : Libraries) (file : Option ByteArray) (ops : List MemoryOp) :
    Option ByteArray :=
  SerialRun.final (fun file op => (observe lib file op).2) file ops

theorem recollect_facts (rt : Runtime) (all : List StoredFact) (op : MemoryOp) :
    (recollect rt all op).2 = amendAll facts all op.write?.toList := by
  cases op with
  | upsert w => rfl
  | listAll scope => cases scope <;> rfl
  | search text limit => rfl

theorem runs_refine (hquiet : ∀ fact, lib.loadsRaises (recordLine semanticFile fact) = none)
    (h : loadFacts (reading lib floats) file = .ok all) (ops : List MemoryOp) :
    SerialRun.observations (observe (reading lib floats)) file ops =
        SerialRun.observations (recollect lib.toRuntime) all ops ∧
      loadFacts (reading lib floats) (fileAfter (reading lib floats) file ops) =
        .ok (amendAll facts all (ops.filterMap MemoryOp.write?)) := by
  induction ops generalizing file all with
  | nil => exact ⟨rfl, h⟩
  | cons op rest ih =>
    obtain ⟨hanswer, hafter⟩ := observe_recollect hquiet h op
    obtain ⟨hanswers, hfinal⟩ := ih hafter
    have hwrites : amendAll facts all ((op :: rest).filterMap MemoryOp.write?) =
        amendAll facts (recollect lib.toRuntime all op).2 (rest.filterMap MemoryOp.write?) := by
      rw [recollect_facts]
      cases hop : op.write? with
      | none => rw [List.filterMap_cons_none hop]; rfl
      | some w => rw [List.filterMap_cons_some hop]; rfl
    refine ⟨?_, ?_⟩
    · rw [SerialRun.observations, SerialRun.observations, hanswer, hanswers]
    · rw [hwrites]
      exact hfinal

theorem remembers (before : List StoredFact) (ws : List FactWrite) :
    Remembers before ws (amendAll facts before ws) where
  content := content_amendAll (A := facts) before ws
  identities := identity_amendAll (A := facts) before ws
  places := keys_amendAll (A := facts) before ws

/-- Over any run from any file that loads, every answer is that of a list of facts amended
under their scope and key, and the file loads as that list. -/
theorem memory_refines_facts
    (hquiet : ∀ fact, lib.loadsRaises (recordLine semanticFile fact) = none)
    (h : loadFacts (reading lib floats) file = .ok all) (ops : List MemoryOp) :
    SerialRun.observations (observe (reading lib floats)) file ops =
        SerialRun.observations (recollect lib.toRuntime) all ops ∧
      ∃ after, loadFacts (reading lib floats) (fileAfter (reading lib floats) file ops) =
      .ok after ∧
        Remembers all (ops.filterMap MemoryOp.write?) after := by
  obtain ⟨hanswers, hfinal⟩ := runs_refine hquiet h ops
  exact ⟨hanswers, _, hfinal, remembers all _⟩

end Refinement

def teaWrites : List FactWrite :=
  [⟨"2026-01-06T09:00:00+00:00", "f2", "preference:tea", "Always black tea.", "global", none⟩,
    ⟨"2026-01-06T09:05:00+00:00", "f3", "city", "Boston", "global", some ["home"]⟩]

theorem tea_refines_facts :
    SerialRun.observations (observe (reading quietLibraries noFloats))
        (some (JsonLines.encode (JsonLines.linesText tornLines))) (teaWrites.map .upsert) =
      SerialRun.observations (recollect quietLibraries.toRuntime) [teaFact]
        (teaWrites.map .upsert) ∧
      ∃ after, loadFacts (reading quietLibraries noFloats)
          (fileAfter (reading quietLibraries noFloats)
            (some (JsonLines.encode (JsonLines.linesText tornLines))) (teaWrites.map .upsert)) =
          .ok after ∧
        Remembers [teaFact] ((teaWrites.map MemoryOp.upsert).filterMap MemoryOp.write?) after :=
  memory_refines_facts (fun _ => rfl) tornLines_load (teaWrites.map .upsert)

end SemanticMemory
