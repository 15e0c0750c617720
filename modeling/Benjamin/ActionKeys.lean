import Benjamin.CanonicalJson
import Benjamin.RuleEngine

/-!
# What a ledger key identifies

The parts of a key are joined by `|` although the id of an item and the JSON text of a
signature may contain it. The key of a rule's action still tells its parts apart: rule id
and index hold no `|`, and no signature's text ends in the text of another one.
-/
namespace ActionKeys

open PyBase PlanSchemas LedgerKeys CanonicalJson SeparatedText JsonScan

/-- What `_evaluate_rule` signs an action with; its arguments are JSON. -/
structure Signature where
  skillName : String
  args : Dict
  rationale : String
  valid : Valid (.obj args)

namespace Signature

def fields (sig : Signature) : Dict :=
  RuleEngine.actionSignature sig.skillName sig.args sig.rationale

theorem fields_valid (sig : Signature) : Valid (.obj sig.fields) := by
  have hkeys : sig.fields.map Prod.fst = ["skill_name", "args", "rationale"] := rfl
  refine .obj (by rw [hkeys]; decide) ?_
  intro field hfield
  rcases List.mem_cons.mp hfield with rfl | hfield
  · exact .str sig.skillName
  · rcases List.mem_cons.mp hfield with rfl | hfield
    · exact sig.valid
    · rw [List.mem_singleton.mp hfield]
      exact .str sig.rationale

theorem sorted_fields (sig : Signature) : sorted sig.fields =
    [("args", .obj sig.args), ("rationale", .str sig.rationale),
      ("skill_name", .str sig.skillName)] := by
  have hargs : ("args" : String) ≤ "rationale" := by decide
  have hskill : ¬ ("skill_name" : String) ≤ "args" := by decide
  have hskill' : ¬ ("skill_name" : String) ≤ "rationale" := by decide
  simp [sorted, fields, RuleEngine.actionSignature, byKey, hargs, hskill, hskill']

theorem named (sig : Signature) : Named (canonicalJson (.obj sig.fields)) := by
  have hquoted : quoted "args" = ['"', 'a', 'r', 'g', 's', '"'] := by decide
  have htext := text_obj sig.fields
  rw [sorted_fields, joined, fieldText, hquoted] at htext
  exact ⟨'a', _, rfl, htext⟩

theorem objectText (sig : Signature) : ObjectText (canonicalJson (.obj sig.fields)) :=
  objectText_canonical sig.fields_valid

end Signature

theorem ending_inj {front front' : List Char} {text text' : String} (htext : ObjectText text)
    (htext' : ObjectText text') (hnamed : Named text) (hnamed' : Named text')
    (h : front ++ '|' :: text.toList = front' ++ '|' :: text'.toList) :
    front = front' ∧ text = text' := by
  have hunique : ∀ {between : List Char} {back other : String}, ObjectText other → ObjectText back →
      Named back → '|' :: other.toList = between ++ '|' :: back.toList → between = [] := by
    intro between back other hother hback hnamed hends
    cases between with
    | nil => rfl
    | cons c rest =>
      have hother_eq : other = String.ofList (rest ++ ['|']) ++ back := by
        rw [← String.toList_inj, String.toList_append, String.toList_ofList, List.append_assoc]
        exact (List.cons.inj hends).2
      have hfront : String.ofList (rest ++ ['|']) ≠ "" := by
        simp [← String.toList_inj]
      rw [hother_eq] at hother
      exact absurd hother (not_objectText_append hback hnamed hfront)
  rcases List.append_eq_append_iff.mp h with ⟨between, hfront, hends⟩ | ⟨between, hfront, hends⟩
  · obtain rfl := hunique htext htext' hnamed' hends
    rw [List.append_nil] at hfront
    exact ⟨hfront.symm, String.toList_inj.mp (List.cons.inj hends).2⟩
  · obtain rfl := hunique htext' htext hnamed hends
    rw [List.append_nil] at hfront
    exact ⟨hfront, (String.toList_inj.mp (List.cons.inj hends).2).symm⟩

section Keys

variable {rt : Runtime}

theorem truthy_nonempty {s : String} (h : s ≠ "") : truthy (some s) = some s := by
  simp [truthy, Option.filter, h]

theorem ruleActionKey_inj (hash : Function.Injective rt.sha256) {ruleId ruleId' : String}
    {index index' : Nat} {itemId itemId' : String} {sig sig' : Signature} (hrule : BarFree ruleId)
    (hrule' : BarFree ruleId') (hitem : itemId ≠ "") (hitem' : itemId' ≠ "")
    (h : ruleActionKey rt ruleId index (some itemId) sig.fields =
      ruleActionKey rt ruleId' index' (some itemId') sig'.fields) :
    ruleId = ruleId' ∧ index = index' ∧ itemId = itemId' ∧
      Same (.obj sig.fields) (.obj sig'.fields) := by
  rw [ruleActionKey, ruleActionKey, truthy_nonempty hitem, truthy_nonempty hitem'] at h
  have hjoin := congrArg String.toList (hash h)
  simp only [joined_cons, List.append_cancel_left_eq, List.cons_inj_right] at hjoin
  obtain rfl := part_inj hrule hrule' hjoin
  simp only [List.append_cancel_left_eq, List.cons_inj_right] at hjoin
  obtain rfl := toString_inj (part_inj (barFree_toString index) (barFree_toString index') hjoin)
  simp only [List.append_cancel_left_eq, List.cons_inj_right] at hjoin
  obtain ⟨hsame, htext⟩ := ending_inj sig.objectText sig'.objectText sig.named sig'.named hjoin
  exact ⟨rfl, rfl, String.toList_inj.mp hsame,
    (canonicalJson_eq_iff sig.fields_valid sig'.fields_valid).mp htext⟩

theorem ruleActionKey_eq_iff (hash : Function.Injective rt.sha256) {ruleId ruleId' : String}
    {index index' : Nat} {itemId itemId' : String} {sig sig' : Signature} (hrule : BarFree ruleId)
    (hrule' : BarFree ruleId') (hitem : itemId ≠ "") (hitem' : itemId' ≠ "") :
    ruleActionKey rt ruleId index (some itemId) sig.fields =
        ruleActionKey rt ruleId' index' (some itemId') sig'.fields ↔
      ruleId = ruleId' ∧ index = index' ∧ itemId = itemId' ∧
        Same (.obj sig.fields) (.obj sig'.fields) := by
  constructor
  · exact ruleActionKey_inj hash hrule hrule' hitem hitem'
  · rintro ⟨rfl, rfl, rfl, hsame⟩
    rw [ruleActionKey, ruleActionKey,
      (canonicalJson_eq_iff sig.fields_valid sig'.fields_valid).mpr hsame]

/-- Keys of different kinds differ in their first part. -/
theorem stableHash_kind (hash : Function.Injective rt.sha256) {kind kind' part part' : String}
    {rest rest' : List String} (hkind : BarFree kind) (hkind' : BarFree kind')
    (hne : kind ≠ kind') :
    stableHash rt (kind :: part :: rest) ≠ stableHash rt (kind' :: part' :: rest') := by
  intro h
  have hjoin := congrArg String.toList (hash h)
  rw [joined_cons, joined_cons] at hjoin
  exact hne (part_inj hkind hkind' hjoin)

structure KindsApart (rt : Runtime) : Prop where
  approval_job : ∀ approvalId step now jobId scheduledRunIso extra,
    approvalExecutionKey rt approvalId step ≠ jobRunKey rt now jobId scheduledRunIso extra
  approval_rule : ∀ approvalId step ruleId index itemId signature,
    approvalExecutionKey rt approvalId step ≠ ruleActionKey rt ruleId index itemId signature
  job_rule : ∀ now jobId scheduledRunIso extra ruleId index itemId signature,
    jobRunKey rt now jobId scheduledRunIso extra ≠ ruleActionKey rt ruleId index itemId signature

theorem kindsApart (hash : Function.Injective rt.sha256) : KindsApart rt := by
  constructor
  · intro approvalId step now jobId scheduledRunIso extra
    exact stableHash_kind hash (by decide) (by decide) (by decide)
  · intro approvalId step ruleId index itemId signature
    exact stableHash_kind hash (by decide) (by decide) (by decide)
  · intro now jobId scheduledRunIso extra ruleId index itemId signature
    exact stableHash_kind hash (by decide) (by decide) (by decide)

/-- Under an injective hash the key of a rule's action identifies its rule, index, item and
signature, and keys of different kinds never coincide. -/
theorem keys_identify_actions (hash : Function.Injective rt.sha256) :
    (∀ (ruleId ruleId' : String) (index index' : Nat) (itemId itemId' : String)
      (sig sig' : Signature), BarFree ruleId → BarFree ruleId' → itemId ≠ "" → itemId' ≠ "" →
      (ruleActionKey rt ruleId index (some itemId) sig.fields =
          ruleActionKey rt ruleId' index' (some itemId') sig'.fields ↔
        ruleId = ruleId' ∧ index = index' ∧ itemId = itemId' ∧
          Same (.obj sig.fields) (.obj sig'.fields))) ∧
      KindsApart rt := by
  refine ⟨?_, kindsApart hash⟩
  intro ruleId ruleId' index index' itemId itemId' sig sig' hrule hrule' hitem hitem'
  exact ruleActionKey_eq_iff hash hrule hrule' hitem hitem'

end Keys

def remind (text : String) : Signature where
  skillName := "reminders.create"
  args := [("text", .str text)]
  rationale := "mail"
  valid := by
    refine .obj (List.nodup_singleton _) fun field hfield => ?_
    rw [List.mem_singleton.mp hfield]
    exact .str text

def plainRuntime : Runtime :=
  AssistantState.exampleRuntime (fun _ => .returned "") fun _ => none

/-- The id of an item may hold the bar: it is not taken for another item's. -/
theorem barred_item_identified :
    ruleActionKey plainRuntime "r1" 0 (some "mail|1") (remind "tea").fields ≠
        ruleActionKey plainRuntime "r1" 0 (some "mail") (remind "1|tea").fields ∧
      KindsApart plainRuntime := by
  have hhash : Function.Injective plainRuntime.sha256 := fun _ _ h => h
  obtain ⟨hkeys, hkinds⟩ := keys_identify_actions hhash
  refine ⟨?_, hkinds⟩
  intro h
  have hparts := (hkeys "r1" "r1" 0 0 "mail|1" "mail" (remind "tea") (remind "1|tea") (by decide)
    (by decide) (by decide) (by decide)).mp h
  exact absurd hparts.2.2.1 (by decide)

end ActionKeys
