import Benjamin.RuleMatching
import Benjamin.TemplateExpansion

/-!
# What a notification says

`_render_notify` replaces its placeholders one after another, each in the text that the
one before it left. The values of the first ones come from mail that a stranger may have
written, and may bring in the later ones.
-/
namespace NotifyTemplate

open RuleSchemas RuleMatching TemplateExpansion

def replacements (count : Nat) (matching : List Item) (nowIso : String) : List (String × String) :=
  let topTexts := matching.map fun item => String.ofList (item.text.toList.take 280)
  [("{{count}}", toString count),
    ("{{top1}}", topTexts.head?.getD ""),
    ("{{top2}}", topTexts.tail.head?.getD ""),
    ("{{now_iso}}", nowIso)]

def characters (replacements : List (String × String)) : Values Char :=
  replacements.map fun kv => (kv.1.toList, kv.2.toList)

def placeholders : List (List Char) :=
  ["{{count}}".toList, "{{top1}}".toList,
    "{{top2}}".toList, "{{now_iso}}".toList]

def bodyTokens (template : String) : List (Token Char) := tokens placeholders 0 template.toList

/-- Each placeholder of the template is replaced by its value, all at once. -/
def expandOnce (template : String) (count : Nat) (matching : List Item) (nowIso : String) :
    String :=
  String.ofList (fillAll (characters (replacements count matching nowIso)) (bodyTokens template))

/-- The notification is the template with its placeholders replaced, and no replacement
finds a placeholder that the template does not have. -/
structure ExpandedOnce (template : String) (count : Nat) (matching : List Item) (nowIso : String) :
    Prop where
  text : renderNotify template count matching nowIso = expandOnce template count matching nowIso
  own : OwnKeys template.toList (characters (replacements count matching nowIso)) template.toList

/-- No stretch of the template in which only placeholders replaced before are left has, with
their values put in, the placeholder that is replaced next. -/
def NothingJoins (template : String) (count : Nat) (matching : List Item) (nowIso : String) :
    Prop :=
  AllClear [] (characters (replacements count matching nowIso)) (bodyTokens template)

theorem characters_keys (count : Nat) (matching : List Item) (nowIso : String) :
    (characters (replacements count matching nowIso)).map Prod.fst = placeholders := by
  simp only [characters, replacements, placeholders, List.map_cons, List.map_nil]

theorem placeholders_apart : Apart placeholders := ⟨by decide, by decide, by decide⟩

theorem replaceChars_eq (key value : List Char) (skip : Nat) (text : List Char) :
    replaceChars key value skip text = replace key value skip text := by
  induction text generalizing skip with
  | nil => cases skip <;> rfl
  | cons c rest ih =>
    cases skip with
    | zero => simp only [replaceChars, replace, ih]
    | succ skip => exact ih skip

theorem replaceAll_toList (text key value : String) :
    (replaceAll text key value).toList = replace key.toList value.toList 0 text.toList := by
  rw [replaceAll, String.toList_ofList, replaceChars_eq]

theorem renderNotify_toList (template : String) (count : Nat) (matching : List Item)
    (nowIso : String) : (renderNotify template count matching nowIso).toList =
      replaceEach (characters (replacements count matching nowIso)) template.toList := by
  simp only [renderNotify, replaceEach, characters, replacements, List.foldl_cons, List.foldl_nil,
    List.map_cons, List.map_nil, replaceAll_toList]

theorem expandedOnce_iff (template : String) (count : Nat) (matching : List Item)
    (nowIso : String) :
    ExpandedOnce template count matching nowIso ↔ NothingJoins template count matching nowIso := by
  have hkeys := characters_keys count matching nowIso
  have hexpanded := expanded_iff (hkeys ▸ placeholders_apart) template.toList
  rw [hkeys] at hexpanded
  have htext : renderNotify template count matching nowIso =
        expandOnce template count matching nowIso ↔
      replaceEach (characters (replacements count matching nowIso)) template.toList =
        expand (characters (replacements count matching nowIso)) template.toList := by
    rw [← renderNotify_toList, expandOnce, ← String.toList_inj, String.toList_ofList, expand, hkeys,
      bodyTokens]
  constructor
  · intro honce
    exact hexpanded.mp ⟨htext.mp honce.text, honce.own⟩
  · intro hnothing
    obtain ⟨heach, hown⟩ := hexpanded.mpr hnothing
    exact ⟨htext.mpr heach, hown⟩

/-- The subject of a mail brings in the placeholder of the time. -/
theorem subject_expanded :
    let mail : List Item := [⟨"m", none, "{{now_iso}}"⟩]
    renderNotify "New: {{top1}}" 1 mail "noon" = "New: noon" ∧
      expandOnce "New: {{top1}}" 1 mail "noon" = "New: {{now_iso}}" ∧
      ¬ ExpandedOnce "New: {{top1}}" 1 mail "noon" := by
  refine ⟨by decide, by decide, fun honce => ?_⟩
  exact absurd honce.text (by decide)

end NotifyTemplate
