import Mathlib.Data.List.Sort
import Mathlib.Data.List.Perm.Basic
import Benjamin.JsonScan
import Benjamin.LedgerKeys
import Benjamin.SeparatedText

/-!
# Canonical JSON

`canonical_json` writes equal texts for exactly the values that are equal up to the order
of object keys. A value of the `json` module has one field for each key of an object, and
the text of a float is no text of an integer.
-/
namespace CanonicalJson

open PyBase LedgerKeys SeparatedText

def numberChar (c : Char) : Bool := c.isDigit || decide (c ∈ ['-', '+', '.', 'e'])

/-- The `repr` of a finite float. -/
def FloatText (s : String) : Prop :=
  (∀ c ∈ s.toList, numberChar c = true) ∧ ∃ c ∈ s.toList, c = '.' ∨ c = 'e'

/-- A value that the `json` module knows. -/
inductive Valid : Json → Prop
  | null : Valid .null
  | bool (b : Bool) : Valid (.bool b)
  | int (n : Int) : Valid (.int n)
  | float {repr : String} (finite : FloatText repr) : Valid (.float repr)
  | str (s : String) : Valid (.str s)
  | arr {items : List Json} (items_valid : ∀ item ∈ items, Valid item) : Valid (.arr items)
  | obj {fields : Dict} (distinct : (fields.map Prod.fst).Nodup)
      (values : ∀ field ∈ fields, Valid field.2) : Valid (.obj fields)

inductive Same : Json → Json → Prop
  | null : Same .null .null
  | bool (b : Bool) : Same (.bool b) (.bool b)
  | int (n : Int) : Same (.int n) (.int n)
  | float (repr : String) : Same (.float repr) (.float repr)
  | str (s : String) : Same (.str s) (.str s)
  | arr {items others : List Json} (each : List.Forall₂ Same items others) :
      Same (.arr items) (.arr others)
  | obj {fields middle others : Dict} (keys : fields.map Prod.fst = middle.map Prod.fst)
      (values : List.Forall₂ Same (fields.map Prod.snd) (middle.map Prod.snd))
      (order : middle.Perm others) : Same (.obj fields) (.obj others)

def text (j : Json) : List Char := (canonicalJson j).toList

def quoted (s : String) : List Char := '"' :: (s.toList.flatMap (escapeChar false) ++ ['"'])

def fieldText (field : String × Json) : List Char := quoted field.1 ++ ':' :: text field.2

def byKey {β : Type} (a b : String × β) : Prop := a.1 ≤ b.1

instance {β : Type} : DecidableRel (byKey (β := β)) := fun a b =>
  inferInstanceAs (Decidable (a.1 ≤ b.1))

instance {β : Type} : Std.Total (byKey (β := β)) := ⟨fun a b => le_total a.1 b.1⟩

instance {β : Type} : IsTrans (String × β) byKey := ⟨fun _ _ _ hab hbc => le_trans hab hbc⟩

def sorted {β : Type} (fields : List (String × β)) : List (String × β) := fields.insertionSort byKey

theorem sorted_perm {β : Type} (fields : List (String × β)) : (sorted fields).Perm fields :=
  List.perm_insertionSort byKey fields

theorem sorted_congr {β : Type} {fields others : List (String × β)} (h : fields.Perm others)
    (hdistinct : (fields.map Prod.fst).Nodup) : sorted fields = sorted others := by
  have hpairs : ∀ a b, a ∈ sorted fields → b ∈ sorted others → byKey a b → byKey b a → a = b := by
    intro a b ha hb hab hba
    have hmem : b ∈ fields := h.mem_iff.mpr ((sorted_perm others).mem_iff.mp hb)
    exact List.inj_on_of_nodup_map hdistinct ((sorted_perm fields).mem_iff.mp ha) hmem
      (le_antisymm hab hba)
  exact List.Perm.eq_of_pairwise hpairs (List.pairwise_insertionSort byKey fields)
    (List.pairwise_insertionSort byKey others)
    (((sorted_perm fields).trans h).trans (sorted_perm others).symm)

theorem map_sorted {β γ : Type} (f : String × β → String × γ) (hf : ∀ a, (f a).1 = a.1)
    (fields : List (String × β)) : (sorted fields).map f = sorted (fields.map f) := by
  refine List.map_insertionSort byKey byKey f fields ?_
  intro a _ b _
  rw [byKey, byKey, hf, hf]

def canonicalLayout : Layout := ⟨",", ":", false, true⟩

def render (field : String × Json) : String × String :=
  (field.1, dumpsWith canonicalLayout field.2)

theorem dumpsItems_eq (items : List Json) :
    dumpsItems canonicalLayout items = items.map (dumpsWith canonicalLayout) := by
  induction items with
  | nil => rfl
  | cons item rest ih => rw [dumpsItems, ih, List.map_cons]

theorem dumpsFields_eq (fields : Dict) :
    dumpsFields canonicalLayout fields = fields.map render := by
  induction fields with
  | nil => rfl
  | cons field rest ih =>
    obtain ⟨key, value⟩ := field
    rw [dumpsFields, ih, List.map_cons, render]

theorem sortFields_eq (fields : List (String × String)) : sortFields fields = sorted fields := by
  have hinsert : ∀ (kv : String × String) (xs : List (String × String)),
      insertField kv xs = xs.orderedInsert byKey kv := by
    intro kv xs
    induction xs with
    | nil => rfl
    | cons head rest ih =>
      rw [insertField, List.orderedInsert, ih]
      rfl
  induction fields with
  | nil => rfl
  | cons field rest ih =>
    rw [sortFields, List.foldr_cons, ← sortFields, ih, hinsert]
    rfl

theorem sortFields_render (fields : Dict) :
    sortFields (fields.map render) = (sorted fields).map render := by
  rw [sortFields_eq, map_sorted render fun _ => rfl]

theorem toList_intercalate {α : Type} (f : α → String) (xs : List α) :
    (",".intercalate (xs.map f)).toList = joined ',' (fun x => (f x).toList) xs := by
  cases xs with
  | nil => rfl
  | cons x xs =>
    rw [List.map_cons, joined]
    induction xs generalizing x with
    | nil => simp [following]
    | cons y ys ih =>
      rw [List.map_cons, String.intercalate_cons_cons, following_cons, ← ih y]
      simp

theorem text_str (s : String) : text (.str s) = quoted s := by
  simp [text, canonicalJson, dumpsWith, quote, quoted]

theorem text_arr (items : List Json) :
    text (.arr items) = '[' :: (joined ',' text items ++ [']']) := by
  have hitems : (",".intercalate (dumpsItems canonicalLayout items)).toList =
      joined ',' text items := by
    rw [dumpsItems_eq, toList_intercalate]
    rfl
  rw [text, canonicalJson, dumpsWith, String.toList_append, String.toList_append]
  exact congrArg (fun inner => '[' :: (inner ++ [']'])) hitems

def fieldString (kv : String × String) : String := quote false kv.1 ++ ":" ++ kv.2

theorem toList_fieldString (field : String × Json) :
    (fieldString (render field)).toList = fieldText field := by
  rw [fieldString, String.toList_append, String.toList_append, fieldText, List.append_assoc, quote,
    String.toList_ofList]
  rfl

theorem text_obj (fields : Dict) :
    text (.obj fields) = '{' :: (joined ',' fieldText (sorted fields) ++ ['}']) := by
  have hsame : (fun field => (fieldString (render field)).toList) = fieldText :=
    funext toList_fieldString
  have hfields : (",".intercalate ((sortFields (dumpsFields canonicalLayout fields)).map
      fieldString)).toList = joined ',' fieldText (sorted fields) := by
    rw [dumpsFields_eq, sortFields_render, List.map_map, toList_intercalate, ← hsame]
    rfl
  rw [text, canonicalJson, dumpsWith, String.toList_append, String.toList_append, ← hfields]
  rfl

def hexValue (c : Char) : Nat := if c.toNat < 58 then c.toNat - 48 else c.toNat - 87

def unescape : List Char → Option (Char × List Char)
  | '\\' :: 'u' :: _ :: _ :: high :: low :: rest =>
    some (Char.ofNat (16 * hexValue high + hexValue low), rest)
  | '\\' :: 'n' :: rest => some ('\n', rest)
  | '\\' :: 'r' :: rest => some ('\r', rest)
  | '\\' :: 't' :: rest => some ('\t', rest)
  | '\\' :: 'b' :: rest => some (Char.ofNat 8, rest)
  | '\\' :: 'f' :: rest => some (Char.ofNat 12, rest)
  | '\\' :: c :: rest => some (c, rest)
  | c :: rest => some (c, rest)
  | [] => none

theorem control_hex : ∀ n < 32,
    16 * hexValue (hexDigit (n / 16 % 16)) + hexValue (hexDigit (n % 16)) = n := by decide

theorem char_of_toNat {c : Char} {n : Nat} (h : c.toNat = n) : Char.ofNat n = c := by
  rw [← h, Char.ofNat_toNat]

theorem unescape_plain {c : Char} (h : c ≠ '\\') (rest : List Char) :
    unescape (c :: rest) = some (c, rest) := by
  rw [unescape.eq_def]
  split <;> simp_all

theorem unescape_escape (c : Char) (rest : List Char) :
    unescape (escapeChar false c ++ rest) = some (c, rest) := by
  rw [escapeChar]
  simp only [Bool.false_and, Bool.false_eq_true, if_false]
  split_ifs with hquote hslash hline hreturn htab hback hfeed hcontrol
  · subst hquote
    rfl
  · subst hslash
    rfl
  · subst hline
    rfl
  · subst hreturn
    rfl
  · subst htab
    rfl
  · exact congrArg (fun d => some (d, rest)) (char_of_toNat hback)
  · exact congrArg (fun d => some (d, rest)) (char_of_toNat hfeed)
  · refine congrArg (fun d => some (d, rest)) (char_of_toNat ?_)
    exact (control_hex c.toNat hcontrol).symm
  · exact unescape_plain hslash rest

theorem escape_begins (c : Char) : Begins '"' (escapeChar false c) := by
  rw [escapeChar]
  simp only [Bool.false_and, Bool.false_eq_true, if_false]
  split_ifs with hquote
  case neg => exact ⟨c, [], rfl, hquote⟩
  all_goals exact ⟨'\\', _, rfl, by decide⟩

theorem body_readOff {xs ys r s : List Char}
    (h : xs.flatMap (escapeChar false) ++ '"' :: r = ys.flatMap (escapeChar false) ++ '"' :: s) :
    xs = ys ∧ r = s := by
  induction xs generalizing ys with
  | nil =>
    cases ys with
    | nil => exact ⟨rfl, (List.cons.inj h).2⟩
    | cons y ys =>
      obtain ⟨c, rest, hc, hother⟩ := escape_begins y
      rw [List.flatMap_cons, hc] at h
      exact absurd (List.cons.inj h).1.symm hother
  | cons x xs ih =>
    cases ys with
    | nil =>
      obtain ⟨c, rest, hc, hother⟩ := escape_begins x
      rw [List.flatMap_cons, hc] at h
      exact absurd (List.cons.inj h).1 hother
    | cons y ys =>
      rw [List.flatMap_cons, List.flatMap_cons, List.append_assoc, List.append_assoc] at h
      have hread := congrArg unescape h
      rw [unescape_escape, unescape_escape, Option.some.injEq, Prod.mk.injEq] at hread
      obtain ⟨rfl, hrest⟩ := hread
      obtain ⟨rfl, hend⟩ := ih hrest
      exact ⟨rfl, hend⟩

theorem quoted_readOff {a b : String} {r s : List Char} (h : quoted a ++ r = quoted b ++ s) :
    a = b ∧ r = s := by
  rw [quoted, quoted, List.cons_append, List.cons_append, List.append_assoc,
    List.append_assoc] at h
  obtain ⟨hsame, hrest⟩ := body_readOff (List.cons.inj h).2
  exact ⟨String.toList_inj.mp hsame, hrest⟩

def delimiter (c : Char) : Prop := c ∈ [',', ']', '}']

instance : DecidablePred delimiter := fun c => inferInstanceAs (Decidable (c ∈ _))

inductive Kind where
  | null | bool (b : Bool) | number | str | arr | obj
  deriving DecidableEq, Repr

def kindOf : Json → Kind
  | .null => .null
  | .bool b => .bool b
  | .int _ | .float _ => .number
  | .str _ => .str
  | .arr _ => .arr
  | .obj _ => .obj

def leadKind (c : Char) : Kind :=
  if c = 'n' then .null else if c = 't' then .bool true else if c = 'f' then .bool false
  else if c = '"' then .str else if c = '[' then .arr else if c = '{' then .obj else .number

theorem numberChar_lead {c : Char} (h : numberChar c = true) :
    leadKind c = .number ∧ ¬ delimiter c := by
  have hother : ∀ d, numberChar d = false → c ≠ d := by
    rintro d hd rfl
    exact Bool.false_ne_true (hd.symm.trans h)
  constructor
  · rw [leadKind]
    rw [if_neg (hother _ (by decide)), if_neg (hother _ (by decide)), if_neg (hother _ (by decide)),
      if_neg (hother _ (by decide)), if_neg (hother _ (by decide)), if_neg (hother _ (by decide))]
  · intro hdelimiter
    have hall : ([',', ']', '}'].all fun d => !numberChar d) = true := by decide
    have hnot := List.all_eq_true.mp hall c hdelimiter
    rw [h] at hnot
    exact Bool.false_ne_true hnot

theorem natText_digit (n : Nat) : ∀ c ∈ (toString n).toList, c.isDigit = true := by
  intro c hc
  rw [Nat.toString_eq_ofList_toDigits, String.toList_ofList] at hc
  exact Nat.isDigit_of_mem_toDigits (by decide) (by decide) hc

theorem intText_cases (n : Int) :
    (∃ m : Nat, n = m ∧ toString n = toString m) ∨
      ∃ m : Nat, n = Int.negSucc m ∧ toString n = "-" ++ toString (m + 1) := by
  cases n with
  | ofNat m => exact .inl ⟨m, rfl, rfl⟩
  | negSucc m => exact .inr ⟨m, rfl, rfl⟩

theorem intText_char (n : Int) : ∀ c ∈ (toString n).toList, c.isDigit = true ∨ c = '-' := by
  intro c hc
  obtain ⟨m, -, htext⟩ | ⟨m, -, htext⟩ := intText_cases n
  · rw [htext] at hc
    exact .inl (natText_digit m c hc)
  · rw [htext, String.toList_append] at hc
    rcases List.mem_append.mp hc with hsign | hdigit
    · exact .inr (List.mem_singleton.mp hsign)
    · exact .inl (natText_digit (m + 1) c hdigit)

theorem intText_inj {m n : Int} (h : toString m = toString n) : m = n := by
  have hsign : ∀ a b : Nat, toString a ≠ "-" ++ toString b := by
    intro a b hab
    have hdash : '-' ∈ (toString a).toList := by
      rw [hab, String.toList_append]
      exact List.mem_append_left _ List.mem_cons_self
    exact absurd (natText_digit a '-' hdash) (by decide)
  obtain ⟨a, rfl, ha⟩ | ⟨a, rfl, ha⟩ := intText_cases m
  · obtain ⟨b, rfl, hb⟩ | ⟨b, rfl, hb⟩ := intText_cases n
    · rw [ha, hb] at h
      rw [toString_inj h]
    · rw [ha, hb] at h
      exact absurd h (hsign a (b + 1))
  · obtain ⟨b, rfl, hb⟩ | ⟨b, rfl, hb⟩ := intText_cases n
    · rw [ha, hb] at h
      exact absurd h.symm (hsign b (a + 1))
    · rw [ha, hb, String.append_right_inj] at h
      have := toString_inj h
      omega

theorem number_cases {j : Json} (h : kindOf j = .number) :
    (∃ n, j = .int n) ∨ ∃ repr, j = .float repr := by
  cases j with
  | int n => exact .inl ⟨n, rfl⟩
  | float repr => exact .inr ⟨repr, rfl⟩
  | _ => cases h

theorem float_text {repr : String} (h : Valid (.float repr)) : FloatText repr := by
  cases h with
  | float finite => exact finite

theorem text_int (n : Int) : text (.int n) = (toString n).toList := rfl

theorem natText_ne_empty (n : Nat) : toString n ≠ "" := by
  rw [Nat.toString_eq_ofList_toDigits, Ne, ← String.toList_inj, String.toList_ofList]
  exact Nat.toDigits_ne_nil

theorem number_chars {j : Json} (hvalid : Valid j) (h : kindOf j = .number) :
    text j ≠ [] ∧ ∀ c ∈ text j, numberChar c = true := by
  obtain ⟨n, rfl⟩ | ⟨repr, rfl⟩ := number_cases h
  · rw [text_int]
    constructor
    · obtain ⟨m, -, htext⟩ | ⟨m, -, htext⟩ := intText_cases n
      · rw [htext]
        exact mt String.toList_eq_nil_iff.mp (natText_ne_empty m)
      · rw [htext, String.toList_append]
        exact List.cons_ne_nil _ _
    · intro c hc
      rcases intText_char n c hc with hdigit | rfl
      · rw [numberChar, hdigit, Bool.true_or]
      · decide
  · obtain ⟨hall, c, hc, -⟩ := float_text hvalid
    exact ⟨List.ne_nil_of_mem hc, hall⟩

theorem text_leads {j : Json} (h : Valid j) :
    ∃ c rest, text j = c :: rest ∧ leadKind c = kindOf j ∧ ¬ delimiter c := by
  by_cases hnumber : kindOf j = .number
  · obtain ⟨hne, hall⟩ := number_chars h hnumber
    obtain ⟨c, rest, hc⟩ := List.exists_cons_of_ne_nil hne
    obtain ⟨hkind, hstop⟩ := numberChar_lead (hall c (by rw [hc]; exact List.mem_cons_self))
    exact ⟨c, rest, hc, hkind.trans hnumber.symm, hstop⟩
  · cases h with
    | null => exact ⟨'n', _, rfl, rfl, by decide⟩
    | bool b =>
      cases b with
      | true => exact ⟨'t', _, rfl, rfl, by decide⟩
      | false => exact ⟨'f', _, rfl, rfl, by decide⟩
    | int n => exact absurd rfl hnumber
    | float _ => exact absurd rfl hnumber
    | str s => exact ⟨'"', _, text_str s, rfl, by decide⟩
    | arr _ => exact ⟨'[', _, text_arr _, rfl, by decide⟩
    | obj _ _ => exact ⟨'{', _, text_obj _, rfl, by decide⟩

theorem kindOf_eq {a b : Json} (ha : Valid a) (hb : Valid b) {r s : List Char}
    (h : text a ++ r = text b ++ s) : kindOf a = kindOf b := by
  obtain ⟨c, cs, hc, hkind, -⟩ := text_leads ha
  obtain ⟨d, ds, hd, hkind', -⟩ := text_leads hb
  rw [hc, hd, List.cons_append, List.cons_append] at h
  rw [← hkind, ← hkind', (List.cons.inj h).1]

theorem intText_ne_float {n : Int} {repr : String} (h : FloatText repr) : toString n ≠ repr := by
  intro hsame
  obtain ⟨-, c, hc, hpoint⟩ := h
  rw [← hsame] at hc
  have hall : ∀ d, d = '.' ∨ d = 'e' → d.isDigit = false ∧ d ≠ '-' := by
    rintro d (rfl | rfl)
    · decide
    · decide
  obtain ⟨hdigit, hsign⟩ := hall c hpoint
  rcases intText_char n c hc with h | h
  · exact Bool.false_ne_true (hdigit.symm.trans h)
  · exact hsign h

theorem number_inj {a b : Json} (ha : Valid a) (hb : Valid b) (hkind : kindOf a = .number)
    (hkind' : kindOf b = .number) (h : text a = text b) : Same a b := by
  obtain ⟨n, rfl⟩ | ⟨repr, rfl⟩ := number_cases hkind
  · obtain ⟨m, rfl⟩ | ⟨other, rfl⟩ := number_cases hkind'
    · rw [intText_inj (String.toList_inj.mp h)]
      exact .int m
    · exact absurd (String.toList_inj.mp h) (intText_ne_float (float_text hb))
  · obtain ⟨m, rfl⟩ | ⟨other, rfl⟩ := number_cases hkind'
    · exact absurd (String.toList_inj.mp h).symm (intText_ne_float (float_text ha))
    · have hsame : repr = other := String.toList_inj.mp h
      rw [hsame]
      exact .float other

def SameField (a b : String × Json) : Prop := a.1 = b.1 ∧ Same a.2 b.2

theorem number_readOff {a b : Json} (ha : Valid a) (hb : Valid b) (hkind : kindOf a = .number)
    (hkind' : kindOf b = .number) {r s : List Char} (hr : Stopped delimiter r)
    (hs : Stopped delimiter s) (h : text a ++ r = text b ++ s) : Same a b ∧ r = s := by
  have hwords : ∀ {j : Json}, Valid j → kindOf j = .number → ∀ c ∈ text j, ¬ delimiter c :=
    fun hvalid hnumber c hc => (numberChar_lead ((number_chars hvalid hnumber).2 c hc)).2
  obtain ⟨hsame, hrest⟩ := word_readOff (hwords ha hkind) (hwords hb hkind') hr hs h
  exact ⟨number_inj ha hb hkind hkind' hsame, hrest⟩

theorem begins_of_valid {j : Json} (h : Valid j) {close : Char} (hclose : delimiter close) :
    Begins close (text j) := by
  obtain ⟨c, rest, hc, -, hstop⟩ := text_leads h
  refine ⟨c, rest, hc, ?_⟩
  rintro rfl
  exact hstop hclose

theorem field_readOff {field : String × Json}
    (h : ReadOff delimiter text Valid Same field.2) :
    ReadOff delimiter fieldText (fun other => Valid other.2) SameField field := by
  intro other hother r s hr hs htexts
  rw [fieldText, fieldText, List.append_assoc, List.append_assoc] at htexts
  obtain ⟨hkey, hrest⟩ := quoted_readOff htexts
  obtain ⟨hvalue, hend⟩ := h other.2 hother r s hr hs (List.cons.inj hrest).2
  exact ⟨⟨hkey, hvalue⟩, hend⟩

theorem field_begins (field : String × Json) : Begins '}' (fieldText field) :=
  ⟨'"', _, rfl, by decide⟩

theorem same_of_sorted {fields others : Dict}
    (h : List.Forall₂ SameField (sorted fields) (sorted others)) :
    Same (.obj fields) (.obj others) := by
  obtain ⟨middle, heach, hperm⟩ := List.perm_comp_forall₂ (sorted_perm fields).symm h
  have hkeys : fields.map Prod.fst = middle.map Prod.fst :=
    List.forall₂_eq_eq_eq ▸ (List.forall₂_map_left_iff.mpr
      (List.forall₂_map_right_iff.mpr (heach.imp fun _ _ hsame => hsame.1)))
  have hvalues : List.Forall₂ Same (fields.map Prod.snd) (middle.map Prod.snd) :=
    List.forall₂_map_left_iff.mpr
      (List.forall₂_map_right_iff.mpr (heach.imp fun _ _ hsame => hsame.2))
  exact .obj hkeys hvalues (hperm.trans (sorted_perm others))

/-- The text of a value tells which one it is, up to the order of keys, and where it ends. -/
theorem text_readOff {a : Json} (ha : Valid a) : ReadOff delimiter text Valid Same a := by
  induction ha with
  | null =>
    intro b hb r s hr hs h
    have hkind := kindOf_eq .null hb h
    cases hb with
    | null => exact ⟨.null, List.append_cancel_left h⟩
    | _ => cases hkind
  | bool truth =>
    intro b hb r s hr hs h
    have hkind := kindOf_eq (.bool truth) hb h
    cases hb with
    | bool other =>
      cases hkind
      exact ⟨.bool truth, List.append_cancel_left h⟩
    | _ => cases hkind
  | int n =>
    intro b hb r s hr hs h
    exact number_readOff (.int n) hb rfl (kindOf_eq (.int n) hb h).symm hr hs h
  | float finite =>
    intro b hb r s hr hs h
    exact number_readOff (.float finite) hb rfl (kindOf_eq (.float finite) hb h).symm hr hs h
  | str word =>
    intro b hb r s hr hs h
    have hkind := kindOf_eq (.str word) hb h
    cases hb with
    | str other =>
      rw [text_str, text_str] at h
      obtain ⟨rfl, hrest⟩ := quoted_readOff h
      exact ⟨.str word, hrest⟩
    | _ => cases hkind
  | arr items_valid ih =>
    intro b hb r s hr hs h
    have hkind := kindOf_eq (.arr items_valid) hb h
    cases hb with
    | arr others_valid =>
      rw [text_arr, text_arr, List.cons_append, List.cons_append, List.append_assoc,
        List.append_assoc] at h
      obtain ⟨heach, hrest⟩ := joined_readOff (by decide) (by decide) (by decide) ih others_valid
        (fun item hitem => begins_of_valid (items_valid item hitem) (by decide))
        (fun item hitem => begins_of_valid (others_valid item hitem) (by decide))
        (List.cons.inj h).2
      exact ⟨.arr heach, hrest⟩
    | _ => cases hkind
  | obj distinct values ih =>
    intro b hb r s hr hs h
    have hkind := kindOf_eq (.obj distinct values) hb h
    cases hb with
    | obj distinct' values' =>
      rw [text_obj, text_obj, List.cons_append, List.cons_append, List.append_assoc,
        List.append_assoc] at h
      have hfields : ∀ field ∈ sorted _, ReadOff delimiter fieldText (fun other => Valid other.2)
          SameField field :=
        fun field hfield => field_readOff (ih field ((sorted_perm _).mem_iff.mp hfield))
      obtain ⟨heach, hrest⟩ := joined_readOff (by decide) (by decide) (by decide) hfields
        (fun field hfield => values' field ((sorted_perm _).mem_iff.mp hfield))
        (fun field _ => field_begins field) (fun field _ => field_begins field)
        (List.cons.inj h).2
      exact ⟨same_of_sorted heach, hrest⟩
    | _ => cases hkind

theorem map_eq_of_forall₂ {α β γ : Type} {R : α → β → Prop} {f : α → γ} {g : β → γ}
    {xs : List α} {ys : List β} (h : List.Forall₂ R xs ys)
    (hfg : ∀ x ∈ xs, ∀ y, R x y → f x = g y) : xs.map f = ys.map g := by
  induction h with
  | nil => rfl
  | cons hxy _ ih =>
    rw [List.map_cons, List.map_cons, hfg _ List.mem_cons_self _ hxy,
      ih fun x hx => hfg x (List.mem_cons_of_mem _ hx)]

def written (field : String × Json) : String × List Char := (field.1, text field.2)

theorem written_keys (fields : Dict) : (fields.map written).map Prod.fst = fields.map Prod.fst := by
  rw [List.map_map]
  rfl

theorem fieldTexts_eq (fields : Dict) :
    (sorted fields).map fieldText =
      (sorted (fields.map written)).map fun field => quoted field.1 ++ ':' :: field.2 := by
  rw [← map_sorted written fun _ => rfl, List.map_map]
  rfl

theorem written_eq {fields middle : Dict}
    (htext : ∀ field ∈ fields, ∀ b, Same field.2 b → text field.2 = text b)
    (hkeys : fields.map Prod.fst = middle.map Prod.fst)
    (hvalues : List.Forall₂ Same (fields.map Prod.snd) (middle.map Prod.snd)) :
    fields.map written = middle.map written := by
  induction fields generalizing middle with
  | nil =>
    cases middle with
    | nil => rfl
    | cons _ _ => cases hkeys
  | cons field rest ih =>
    cases middle with
    | nil => cases hkeys
    | cons other others =>
      obtain ⟨hkey, hrest⟩ := List.cons.inj hkeys
      obtain ⟨hvalue, hothers⟩ := List.forall₂_cons.mp hvalues
      rw [List.map_cons, List.map_cons,
        ih (fun x hx => htext x (List.mem_cons_of_mem _ hx)) hrest hothers, written, written, hkey,
        htext field List.mem_cons_self other.2 hvalue]

theorem text_of_same {a : Json} (ha : Valid a) : ∀ b, Same a b → text a = text b := by
  induction ha with
  | arr items_valid ih =>
    intro b h
    cases h with
    | arr each =>
      rw [text_arr, text_arr, joined_map ',' text, joined_map ',' text, map_eq_of_forall₂ each ih]
  | obj distinct values ih =>
    intro b h
    cases h with
    | @obj _ middle others keys each order =>
      rw [text_obj, text_obj, joined_map ',' fieldText, joined_map ',' fieldText, fieldTexts_eq,
        fieldTexts_eq, written_eq ih keys each]
      have hdistinct : ((middle.map written).map Prod.fst).Nodup := by
        rw [written_keys, ← keys]
        exact distinct
      rw [sorted_congr (order.map written) hdistinct]
  | _ =>
    intro b h
    cases h
    rfl

/-- Two values have one canonical text iff they are equal up to the order of keys. -/
theorem canonicalJson_eq_iff {a b : Json} (ha : Valid a) (hb : Valid b) :
    canonicalJson a = canonicalJson b ↔ Same a b := by
  rw [← String.toList_inj]
  constructor
  · intro h
    have hstopped : Stopped delimiter [] := fun c hc => nomatch hc
    exact (text_readOff ha b hb [] [] hstopped hstopped (congrArg (· ++ []) h)).1
  · exact text_of_same ha b

open JsonScan

theorem scan_plain {c : Char} (hquote : c ≠ '"') (hslash : c ≠ '\\') (depth : Nat)
    (rest : List Char) :
    scan ⟨depth + 1, .quoted⟩ (c :: rest) = scan ⟨depth + 1, .quoted⟩ rest := by
  simp [scan, step, hquote, hslash]

theorem scan_unicode (n depth : Nat) :
    scan ⟨depth + 1, .quoted⟩ (unicodeEscape n) = some ⟨depth + 1, .quoted⟩ := by
  have hhex : ∀ n < 16, hexDigit n ≠ '"' ∧ hexDigit n ≠ '\\' := by decide
  have hdigit : ∀ n rest, scan ⟨depth + 1, .quoted⟩ (hexDigit (n % 16) :: rest) =
      scan ⟨depth + 1, .quoted⟩ rest := by
    intro n rest
    obtain ⟨hquote, hslash⟩ := hhex (n % 16) (Nat.mod_lt n (by decide))
    exact scan_plain hquote hslash depth rest
  have hmark : ∀ rest, scan ⟨depth + 1, .quoted⟩ ('\\' :: 'u' :: rest) =
      scan ⟨depth + 1, .quoted⟩ rest := fun _ => rfl
  rw [unicodeEscape, hmark, hdigit, hdigit, hdigit, hdigit]
  rfl

theorem scan_escape (c : Char) (depth : Nat) :
    scan ⟨depth + 1, .quoted⟩ (escapeChar false c) = some ⟨depth + 1, .quoted⟩ := by
  rw [escapeChar]
  simp only [Bool.false_and, Bool.false_eq_true, if_false]
  split_ifs with hquote hslash hline hreturn htab hback hfeed hcontrol
  case neg => exact scan_plain hquote hslash depth []
  any_goals rfl
  exact scan_unicode c.toNat depth

theorem scan_body (cs : List Char) (depth : Nat) :
    scan ⟨depth + 1, .quoted⟩ (cs.flatMap (escapeChar false)) = some ⟨depth + 1, .quoted⟩ := by
  induction cs with
  | nil => rfl
  | cons c rest ih =>
    rw [List.flatMap_cons, scan_append, scan_escape, Option.bind_some]
    exact ih

theorem balanced_quoted (s : String) : Balanced (quoted s) := by
  intro depth
  refine ⟨.closed, .inr rfl, ?_⟩
  have hopen : ∀ rest, scan ⟨depth + 1, .between⟩ ('"' :: rest) =
      scan ⟨depth + 1, .quoted⟩ rest := fun _ => rfl
  rw [quoted, hopen, scan_append, scan_body]
  rfl

theorem balanced_joined {α : Type} {f : α → List Char} {xs : List α}
    (h : ∀ x ∈ xs, Balanced (f x)) : Balanced (joined ',' f xs) := by
  cases xs with
  | nil => exact balanced_nil
  | cons x xs =>
    rw [joined]
    induction xs generalizing x with
    | nil =>
      rw [following, List.flatMap_nil, List.append_nil]
      exact h x List.mem_cons_self
    | cons y ys ih =>
      rw [following_cons]
      refine (h x List.mem_cons_self).around (ih y ?_) (.inl rfl)
      intro z hz
      exact h z (List.mem_cons_of_mem _ hz)

theorem balanced_number {j : Json} (hvalid : Valid j) (h : kindOf j = .number) :
    Balanced (text j) := by
  refine balanced_word fun c hc => ?_
  have hnumber := (number_chars hvalid h).2 c hc
  have hother : ∀ d, numberChar d = false → c ≠ d := by
    rintro d hd rfl
    exact Bool.false_ne_true (hd.symm.trans hnumber)
  simp [wordChar, opening, closing, hother '"' (by decide), hother '{' (by decide),
    hother '[' (by decide), hother '}' (by decide), hother ']' (by decide)]

theorem balanced_text {j : Json} (h : Valid j) : Balanced (text j) := by
  induction h with
  | null => exact balanced_word (List.all_eq_true.mp (by decide))
  | bool b =>
    cases b with
    | true => exact balanced_word (List.all_eq_true.mp (by decide))
    | false => exact balanced_word (List.all_eq_true.mp (by decide))
  | int n => exact balanced_number (.int n) rfl
  | float finite => exact balanced_number (.float finite) rfl
  | str s =>
    rw [text_str]
    exact balanced_quoted s
  | arr _ ih =>
    rw [text_arr]
    exact (balanced_joined ih).enclosed (.inr rfl) (.inr rfl)
  | obj _ _ ih =>
    rw [text_obj]
    refine (balanced_joined fun field hfield => ?_).enclosed (.inl rfl) (.inl rfl)
    exact (balanced_quoted field.1).around (ih field ((sorted_perm _).mem_iff.mp hfield)) (.inr rfl)

/-- The scan of an object's text closes its brace with the last character. -/
theorem objectText_canonical {fields : Dict} (h : Valid (.obj fields)) :
    ObjectText (canonicalJson (.obj fields)) := by
  refine Balanced.objectText ?_ (text_obj fields)
  cases h with
  | obj distinct values =>
    refine balanced_joined fun field hfield => ?_
    exact (balanced_quoted field.1).around
      (balanced_text (values field ((sorted_perm _).mem_iff.mp hfield))) (.inr rfl)

end CanonicalJson
