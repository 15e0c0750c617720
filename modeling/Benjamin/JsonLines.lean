import Benjamin.LedgerKeys
import Mathlib.Data.List.DropRight
import Mathlib.Data.List.TakeWhile

/-!
# Files of JSON lines

A file is bytes, read as UTF-8 text with universal newlines and split into lines; a row
is written as one line of JSON. A text of rows has one line that is not blank for each
row.
-/
namespace JsonLines

open PyBase

/-- Strict UTF-8; `none` is a `UnicodeDecodeError`. -/
def decode (content : ByteArray) : Option String := String.fromUTF8? content

def encode (text : String) : ByteArray := text.toUTF8

theorem decode_encode (text : String) : decode (encode text) = some text :=
  dif_pos text.isValidUTF8

theorem decode_eq_some {content : ByteArray} {text : String} :
    decode content = some text ↔ content = encode text := by
  constructor
  · intro h
    unfold decode String.fromUTF8? at h
    split at h
    · cases h
      rfl
    · cases h
  · rintro rfl
    exact decode_encode text

theorem encode_append (text added : String) :
    encode (text ++ added) = encode text ++ encode added := by
  simp [encode]

theorem decode_append (content : ByteArray) (added : String) :
    decode (content ++ encode added) = (decode content).map (· ++ added) := by
  cases hcontent : decode content with
  | some text =>
    rw [decode_eq_some.mp hcontent, ← encode_append, decode_encode]
    rfl
  | none =>
    cases happended : decode (content ++ encode added) with
    | none => rfl
    | some text =>
      exfalso
      have hbytes : text.toByteArray = content ++ added.toByteArray := by
        simpa [encode] using (decode_eq_some.mp happended).symm
      have hvalid : String.Pos.Raw.IsValid text ⟨content.size⟩ := by
        rw [String.Pos.Raw.isValid_iff_isValidUTF8_extract_utf8ByteSize]
        refine ⟨?_, ?_⟩
        · rw [String.Pos.Raw.le_iff, String.byteIdx_rawEndPos, ← String.size_toByteArray, hbytes,
            ByteArray.size_append]
          exact Nat.le_add_right _ _
        · rw [hbytes, ByteArray.extract_append_eq_right rfl]
          · exact added.isValidUTF8
          · rw [← String.size_toByteArray, hbytes, ByteArray.size_append]
      have hfront := (String.Pos.Raw.isValid_iff_isValidUTF8_extract_zero.mp hvalid).2
      rw [hbytes, ByteArray.extract_append_eq_left rfl] at hfront
      rw [decode, String.fromUTF8?, dif_pos hfront] at hcontent
      cases hcontent

def universalNewlines : List Char → List Char
  | [] => []
  | '\r' :: '\n' :: rest => '\n' :: universalNewlines rest
  | '\r' :: rest => '\n' :: universalNewlines rest
  | c :: rest => c :: universalNewlines rest

/-- The lines without their ends. What follows the last end counts as a line, a blank one
where nothing follows. -/
def lines (text : String) : List String :=
  ((universalNewlines text.toList).splitOn '\n').map String.ofList

def filled (ls : List String) : List String := (ls.map strip).filter fun line => line ≠ ""

example : lines "a\r\nb\rc\n" = ["a", "b", "c", ""] := by decide

/-- `json.dumps(row, ensure_ascii=False, separators=(",", ":"))`. -/
def compactJson (row : Dict) : String := dumpsWith ⟨",", ":", false, false⟩ (.obj row)

def rowsText (rows : List Dict) : String :=
  String.ofList (rows.flatMap fun row => (compactJson row).toList ++ ['\n'])

def NoBreaks (cs : List Char) : Prop := ∀ c ∈ cs, c ≠ '\n' ∧ c ≠ '\r'

instance (cs : List Char) : Decidable (NoBreaks cs) := List.decidableBAll _ cs

def Unbroken (s : String) : Prop := NoBreaks s.toList

instance (s : String) : Decidable (Unbroken s) := inferInstanceAs (Decidable (NoBreaks s.toList))

mutual
/-- The `repr` of a float has no line end. -/
def PlainFloats : Json → Prop
  | .float repr => Unbroken repr
  | .arr items => PlainItems items
  | .obj fields => PlainFields fields
  | _ => True
def PlainItems : List Json → Prop
  | [] => True
  | x :: xs => PlainFloats x ∧ PlainItems xs
def PlainFields : List (String × Json) → Prop
  | [] => True
  | (_, v) :: rest => PlainFloats v ∧ PlainFields rest
end

theorem Unbroken.append {s t : String} (hs : Unbroken s) (ht : Unbroken t) : Unbroken (s ++ t) := by
  intro c hc
  rw [String.toList_append, List.mem_append] at hc
  exact hc.elim (hs c) (ht c)

theorem unbroken_intercalate {separator : String} (hsep : Unbroken separator) {parts : List String}
    (hparts : ∀ part ∈ parts, Unbroken part) : Unbroken (separator.intercalate parts) := by
  induction parts with
  | nil => exact nofun
  | cons part rest ih =>
    have hrest := ih fun other hother => hparts other (List.mem_cons_of_mem _ hother)
    have hpart := hparts part List.mem_cons_self
    cases rest with
    | nil =>
      rw [String.intercalate_singleton]
      exact hpart
    | cons next others =>
      rw [String.intercalate_cons_cons]
      exact (hpart.append hsep).append hrest

theorem hexDigit_unbroken (n : Nat) : hexDigit (n % 16) ≠ '\n' ∧ hexDigit (n % 16) ≠ '\r' := by
  have hall : ∀ d < 16, hexDigit d ≠ '\n' ∧ hexDigit d ≠ '\r' := by decide
  exact hall _ (Nat.mod_lt _ (by decide))

theorem unicodeEscape_unbroken (n : Nat) : NoBreaks (unicodeEscape n) := by
  rw [unicodeEscape, NoBreaks]
  simp only [List.mem_cons, List.not_mem_nil, or_false, forall_eq_or_imp, forall_eq]
  exact ⟨by decide, by decide, hexDigit_unbroken _, hexDigit_unbroken _, hexDigit_unbroken _,
    hexDigit_unbroken _⟩

theorem ite_unbroken {p : Prop} [Decidable p] {xs ys : List Char}
    (hpos : p → NoBreaks xs) (hneg : ¬ p → NoBreaks ys) : NoBreaks (if p then xs else ys) := by
  by_cases h : p
  · rw [if_pos h]
    exact hpos h
  · rw [if_neg h]
    exact hneg h

theorem escapeChar_unbroken (ascii : Bool) (d : Char) :
    NoBreaks (escapeChar ascii d) := by
  rw [escapeChar]
  refine ite_unbroken (fun _ => by decide) fun _ => ?_
  refine ite_unbroken (fun _ => by decide) fun _ => ?_
  refine ite_unbroken (fun _ => by decide) fun hline => ?_
  refine ite_unbroken (fun _ => by decide) fun hreturn => ?_
  refine ite_unbroken (fun _ => by decide) fun _ => ?_
  refine ite_unbroken (fun _ => by decide) fun _ => ?_
  refine ite_unbroken (fun _ => by decide) fun _ => ?_
  refine ite_unbroken (fun _ => unicodeEscape_unbroken _) fun _ => ?_
  refine ite_unbroken (fun _ => ite_unbroken (fun _ => unicodeEscape_unbroken _) fun _ => ?_)
    fun _ => ?_
  · intro c hc
    exact (List.mem_append.mp hc).elim (unicodeEscape_unbroken _ c) (unicodeEscape_unbroken _ c)
  · intro c hc
    rw [List.mem_singleton.mp hc]
    exact ⟨hline, hreturn⟩

theorem quote_unbroken (ascii : Bool) (s : String) : Unbroken (quote ascii s) := by
  intro c hc
  rw [quote, String.toList_ofList] at hc
  rcases List.mem_append.mp hc with hc | hc
  · rcases List.mem_cons.mp hc with rfl | hc
    · decide
    · obtain ⟨d, -, hd⟩ := List.mem_flatMap.mp hc
      exact escapeChar_unbroken ascii d c hd
  · rw [List.mem_singleton.mp hc]
    decide

theorem toString_nat_unbroken (n : Nat) : Unbroken (toString n) := by
  intro c hc
  rw [Nat.toString_eq_ofList_toDigits, String.toList_ofList] at hc
  have hdigit := Nat.isDigit_of_mem_toDigits (by decide) (by decide) hc
  refine ⟨?_, ?_⟩ <;> rintro rfl <;> cases hdigit

theorem toString_int_unbroken (n : Int) : Unbroken (toString n) := by
  cases n with
  | ofNat m => exact toString_nat_unbroken m
  | negSucc m => exact Unbroken.append (by decide) (toString_nat_unbroken (m + 1))

/-- A layout that writes a document on one line, its fields in their order. -/
structure OneLine (l : Layout) : Prop where
  item : Unbroken l.itemSeparator
  key : Unbroken l.keySeparator
  unsorted : l.sortKeys = false

mutual
theorem dumpsWith_unbroken {l : Layout} (hl : OneLine l) :
    ∀ {j : Json}, PlainFloats j → Unbroken (dumpsWith l j)
  | .null, _ => by rw [dumpsWith]; decide
  | .bool true, _ => by rw [dumpsWith]; decide
  | .bool false, _ => by rw [dumpsWith]; decide
  | .int n, _ => by rw [dumpsWith]; exact toString_int_unbroken n
  | .float repr, h => by rw [dumpsWith]; exact h
  | .str s, _ => by rw [dumpsWith]; exact quote_unbroken _ s
  | .arr items, h => by
    rw [dumpsWith]
    have hitems : ∀ part ∈ dumpsItems l items, Unbroken part := dumpsItems_unbroken hl h
    exact (Unbroken.append (by decide) (unbroken_intercalate hl.item hitems)).append (by decide)
  | .obj fields, h => by
    have hfields : ∀ kv ∈ dumpsFields l fields, Unbroken kv.2 := dumpsFields_unbroken hl h
    rw [dumpsWith, hl.unsorted]
    refine Unbroken.append (Unbroken.append (by decide) (unbroken_intercalate hl.item ?_))
      (by decide)
    intro part hpart
    obtain ⟨kv, hkv, rfl⟩ := List.mem_map.mp hpart
    exact ((quote_unbroken _ _).append hl.key).append (hfields kv hkv)
theorem dumpsItems_unbroken {l : Layout} (hl : OneLine l) :
    ∀ {items : List Json}, PlainItems items → ∀ part ∈ dumpsItems l items, Unbroken part
  | [], _ => by rw [dumpsItems]; exact nofun
  | x :: xs, h => by
    rw [dumpsItems]
    intro part hpart
    rcases List.mem_cons.mp hpart with rfl | hpart
    · exact dumpsWith_unbroken hl h.1
    · exact dumpsItems_unbroken hl h.2 part hpart
theorem dumpsFields_unbroken {l : Layout} (hl : OneLine l) :
    ∀ {fields : List (String × Json)}, PlainFields fields →
      ∀ kv ∈ dumpsFields l fields, Unbroken kv.2
  | [], _ => by rw [dumpsFields]; exact nofun
  | (k, v) :: rest, h => by
    rw [dumpsFields]
    intro kv hkv
    rcases List.mem_cons.mp hkv with rfl | hkv
    · exact dumpsWith_unbroken hl h.1
    · exact dumpsFields_unbroken hl h.2 kv hkv
end

theorem compactJson_unbroken {row : Dict} (h : PlainFloats (.obj row)) :
    Unbroken (compactJson row) :=
  dumpsWith_unbroken ⟨by decide, by decide, rfl⟩ h

theorem universalNewlines_id {cs : List Char} (h : ∀ c ∈ cs, c ≠ '\r') :
    universalNewlines cs = cs := by
  induction cs with
  | nil => rfl
  | cons c rest ih =>
    have hrest := ih fun d hd => h d (List.mem_cons_of_mem _ hd)
    rw [universalNewlines, hrest]
    · rintro rest' rfl
      exact absurd rfl (h '\r' List.mem_cons_self)
    · rintro rfl
      exact absurd rfl (h '\r' List.mem_cons_self)

def linesText (ls : List String) : String :=
  String.ofList (ls.flatMap fun line => line.toList ++ ['\n'])

theorem splitOn_linesText {ls : List String} (h : ∀ line ∈ ls, Unbroken line) :
    (ls.flatMap fun line => line.toList ++ ['\n']).splitOn '\n' = ls.map String.toList ++ [[]] := by
  induction ls with
  | nil => rfl
  | cons line rest ih =>
    have hline := h line List.mem_cons_self
    rw [List.flatMap_cons, List.append_assoc, List.singleton_append,
      List.splitOn_append_cons_self, List.splitOn_eq_singleton fun hmem => (hline _ hmem).1 rfl,
      ih fun other hother => h other (List.mem_cons_of_mem _ hother)]
    rfl

theorem lines_linesText {ls : List String} (h : ∀ line ∈ ls, Unbroken line) :
    lines (linesText ls) = ls ++ [""] := by
  rw [lines, linesText, String.toList_ofList, universalNewlines_id, splitOn_linesText h]
  · simp [Function.comp_def]
  · intro c hc
    obtain ⟨line, hline, hc⟩ := List.mem_flatMap.mp hc
    rcases List.mem_append.mp hc with hc | hc
    · exact (h line hline c hc).2
    · rw [List.mem_singleton.mp hc]
      decide

theorem rowsText_eq (rows : List Dict) : rowsText rows = linesText (rows.map compactJson) := by
  rw [rowsText, linesText, List.flatMap_map]

theorem lines_rowsText {rows : List Dict} (h : ∀ row ∈ rows, PlainFloats (.obj row)) :
    lines (rowsText rows) = rows.map compactJson ++ [""] := by
  rw [rowsText_eq, lines_linesText]
  intro line hline
  obtain ⟨row, hrow, rfl⟩ := List.mem_map.mp hline
  exact compactJson_unbroken (h row hrow)

def unindented (s : String) : String := String.ofList (s.toList.dropWhile isSpace)

theorem unindented_eq_empty {s : String} : unindented s = "" ↔ strip s = "" := by
  rw [unindented, strip]
  cases h : s.toList.dropWhile isSpace with
  | nil => simp
  | cons c cs =>
    have hc : isSpace c = false := by
      have hhead := List.head?_dropWhile_not isSpace s.toList
      rw [h] at hhead
      simpa using hhead
    constructor
    · intro hempty
      cases String.ofList_inj.mp hempty
    · intro hempty
      have hnil : ((c :: cs).reverse.dropWhile isSpace) = [] :=
        List.reverse_eq_nil_iff.mp (String.ofList_inj.mp hempty)
      have hspace := List.dropWhile_eq_nil_iff.mp hnil c (by simp)
      rw [hc] at hspace
      cases hspace

theorem strip_append {a b : Char} (ha : isSpace a = false) (hb : isSpace b = false)
    (front : String) (middle : List Char) :
    strip (front ++ String.ofList (a :: middle ++ [b])) =
      unindented front ++ String.ofList (a :: middle ++ [b]) := by
  have hdrop : (front.toList ++ (a :: middle ++ [b])).dropWhile isSpace =
      front.toList.dropWhile isSpace ++ (a :: middle ++ [b]) := by
    rw [List.dropWhile_append]
    split
    · rename_i hempty
      rw [List.isEmpty_iff.mp hempty, List.cons_append, List.dropWhile_cons_of_neg (by simp [ha])]
      rfl
    · rfl
  have hlast : ∀ xs : List Char, ((xs ++ [b]).reverse.dropWhile isSpace).reverse = xs ++ [b] := by
    intro xs
    rw [List.reverse_append, List.reverse_singleton, List.singleton_append,
      List.dropWhile_cons_of_neg (by simp [hb]), List.reverse_cons, List.reverse_reverse]
  refine String.toList_inj.mp ?_
  rw [strip, String.toList_ofList, String.toList_append, String.toList_ofList, hdrop,
    ← List.append_assoc, hlast, String.toList_append, unindented, String.toList_ofList,
    String.toList_ofList, List.append_assoc]

theorem strip_between {a b : Char} (ha : isSpace a = false) (hb : isSpace b = false)
    (middle : List Char) :
    strip (String.ofList (a :: middle ++ [b])) = String.ofList (a :: middle ++ [b]) := by
  have h := strip_append ha hb "" middle
  rwa [String.empty_append, show unindented "" = "" from rfl, String.empty_append] at h

theorem dropWhile_idem {α : Type*} {p : α → Bool} {xs ys : List α} (h : ys <+: xs.dropWhile p) :
    ys.dropWhile p = ys := by
  cases ys with
  | nil => rfl
  | cons y ys =>
    obtain ⟨rest, hrest⟩ := h
    have hne : xs.dropWhile p ≠ [] := by simp [← hrest]
    have hhead : p y = false := by
      have hkept := List.head_dropWhile_not p hne
      simpa only [← hrest, List.cons_append, List.head_cons] using hkept
    rw [List.dropWhile_cons_of_neg (by simp [hhead])]

theorem strip_strip (s : String) : strip (strip s) = strip s := by
  have htrimmed : (strip s).toList = (s.toList.dropWhile isSpace).rdropWhile isSpace := by
    rw [strip, String.toList_ofList]
    rfl
  have hfront : (strip s).toList.dropWhile isSpace = (strip s).toList := by
    rw [htrimmed]
    exact dropWhile_idem (List.rdropWhile_prefix _ _)
  have hback : (strip s).toList.rdropWhile isSpace = (strip s).toList := by
    rw [htrimmed, List.rdropWhile_idempotent]
  have htwice : strip (strip s) =
      String.ofList (((strip s).toList.dropWhile isSpace).rdropWhile isSpace) := rfl
  rw [htwice, hfront, hback, String.ofList_toList]

theorem unindented_idem (s : String) : unindented (unindented s) = unindented s := by
  rw [unindented, unindented, String.toList_ofList, List.dropWhile_idempotent]

theorem braced (middle : String) : r"{" ++ middle ++ r"}" =
    String.ofList ('{' :: middle.toList ++ ['}']) := by
  refine String.toList_inj.mp ?_
  rw [String.toList_append, String.toList_append, String.toList_ofList]
  simp

theorem dumpsWith_braces (l : Layout) (fields : Dict) : ∃ middle : List Char,
    dumpsWith l (.obj fields) = String.ofList ('{' :: middle ++ ['}']) := by
  rw [dumpsWith]
  exact ⟨_, braced _⟩

theorem compactJson_braces (row : Dict) : ∃ middle : List Char,
    compactJson row = String.ofList ('{' :: middle ++ ['}']) :=
  dumpsWith_braces _ row

theorem strip_compactJson (row : Dict) : strip (compactJson row) = compactJson row := by
  obtain ⟨middle, hrow⟩ := compactJson_braces row
  rw [hrow]
  exact strip_between (by decide) (by decide) middle

theorem compactJson_ne_empty (row : Dict) : compactJson row ≠ "" := by
  obtain ⟨middle, hrow⟩ := compactJson_braces row
  rw [hrow]
  intro h
  cases String.ofList_inj.mp h

theorem filled_cons (line : String) (rest : List String) :
    filled (line :: rest) = (if strip line = "" then [] else [strip line]) ++ filled rest := by
  unfold filled
  by_cases h : strip line = "" <;> simp [h]

theorem filled_append (xs ys : List String) : filled (xs ++ ys) = filled xs ++ filled ys := by
  simp [filled]

theorem filled_id {ls : List String} (h : ∀ line ∈ ls, strip line = line ∧ line ≠ "") :
    filled ls = ls := by
  induction ls with
  | nil => rfl
  | cons line rest ih =>
    have ⟨hstrip, hne⟩ := h line List.mem_cons_self
    rw [filled_cons, hstrip, if_neg hne, ih fun other hother =>
        h other (List.mem_cons_of_mem _ hother)]
    rfl

/-- The lines of a text of rows that are not blank are its rows. -/
theorem filled_rowsText {rows : List Dict} (h : ∀ row ∈ rows, PlainFloats (.obj row)) :
    filled (lines (rowsText rows)) = rows.map compactJson := by
  rw [lines_rowsText h, filled_append, filled_id]
  · simp [filled, strip]
  · intro line hline
    obtain ⟨row, -, rfl⟩ := List.mem_map.mp hline
    exact ⟨strip_compactJson row, compactJson_ne_empty row⟩

theorem universalNewlines_append {c : Char} (hc : c ≠ '\n') (xs ys : List Char) :
    universalNewlines (xs ++ c :: ys) = universalNewlines xs ++ universalNewlines (c :: ys) := by
  fun_induction universalNewlines xs with
  | case1 => rfl
  | case2 rest ih =>
    rw [List.cons_append, List.cons_append, universalNewlines, ih, List.cons_append]
  | case3 rest hrest ih =>
    rw [List.cons_append, universalNewlines, ih, List.cons_append]
    intro rest' heq
    cases rest with
    | nil => exact hc (List.cons.inj heq).1
    | cons d others => exact hrest others (by rw [(List.cons.inj heq).1])
  | case4 d rest hbreak hreturn ih =>
    rw [List.cons_append, universalNewlines, ih, List.cons_append]
    · intro rest' hd _
      exact hreturn hd
    · exact hreturn

theorem splitOn_append (a : Char) (xs : List Char) : ∃ front last, xs.splitOn a = front ++ [last] ∧
    ∀ ys : List Char, (xs ++ ys).splitOn a = front ++ (ys.splitOn a).modifyHead (last ++ ·) := by
  induction xs with
  | nil =>
    refine ⟨[], [], rfl, fun ys => ?_⟩
    obtain ⟨part, parts, hsplit⟩ := List.exists_cons_of_ne_nil (List.splitOn_ne_nil a ys)
    simp [hsplit]
  | cons x rest ih =>
    obtain ⟨front, last, hrest, hall⟩ := ih
    by_cases hx : x = a
    · refine ⟨[] :: front, last, ?_, fun ys => ?_⟩
      · rw [List.splitOn_cons_eq_if_modifyHead, if_pos (by simpa using hx), hrest,
          List.cons_append]
      · rw [List.cons_append, List.splitOn_cons_eq_if_modifyHead, if_pos (by simpa using hx), hall,
          List.cons_append]
    · have hne : ¬ (x == a) = true := by simpa using hx
      cases front with
      | nil =>
        refine ⟨[], x :: last, ?_, fun ys => ?_⟩
        · rw [List.splitOn_cons_eq_if_modifyHead, if_neg hne, hrest]
          rfl
        · rw [List.cons_append, List.splitOn_cons_eq_if_modifyHead, if_neg hne, hall]
          obtain ⟨part, parts, hsplit⟩ := List.exists_cons_of_ne_nil (List.splitOn_ne_nil a ys)
          simp [hsplit]
      | cons part parts =>
        refine ⟨(x :: part) :: parts, last, ?_, fun ys => ?_⟩
        · rw [List.splitOn_cons_eq_if_modifyHead, if_neg hne, hrest]
          rfl
        · rw [List.cons_append, List.splitOn_cons_eq_if_modifyHead, if_neg hne, hall]
          rfl

def finished (text : String) : List String := (lines text).dropLast

def unfinished (text : String) : String := (lines text).getLast?.getD ""

theorem lines_append (text : String) {line : String} (hline : Unbroken line) (hne : line ≠ "") :
    lines (text ++ line ++ "\n") = finished text ++ [unfinished text ++ line, ""] := by
  obtain ⟨c, cs, hcs⟩ := List.exists_cons_of_ne_nil (mt String.toList_eq_nil_iff.mp hne)
  obtain ⟨front, last, hsplit, happend⟩ := splitOn_append '\n' (universalNewlines text.toList)
  have hlines : lines text = front.map String.ofList ++ [String.ofList last] := by
    rw [lines, hsplit, List.map_append]
    rfl
  have hwritten : universalNewlines (line.toList ++ ['\n']) = line.toList ++ ['\n'] := by
    refine universalNewlines_id fun d hd => ?_
    rcases List.mem_append.mp hd with hd | hd
    · exact (hline d hd).2
    · rw [List.mem_singleton.mp hd]
      decide
  have hrest : (line.toList ++ ['\n']).splitOn '\n' = [line.toList, []] := by
    rw [List.splitOn_append_cons_self, List.splitOn_eq_singleton fun hmem => (hline _ hmem).1 rfl]
    rfl
  have hc : c ≠ '\n' := (hline c (by rw [hcs]; exact List.mem_cons_self)).1
  rw [finished, unfinished, hlines, List.dropLast_concat, List.getLast?_concat, lines,
    String.toList_append, String.toList_append, List.append_assoc, hcs, List.cons_append,
    universalNewlines_append hc, ← List.cons_append, ← hcs]
  rw [show "\n".toList = ['\n'] from rfl, hwritten, happend, hrest]
  simp

end JsonLines
