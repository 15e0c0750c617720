import Benjamin.CanonicalJson
import Benjamin.RecordModels

/-!
# `json.loads`

The reader of the `json` module over the characters of a text: literals, numbers, strings
with their escapes, arrays and objects. What the reader cannot tell is left to parameters:
what the `repr` of the float in a text is, and which texts it gives up on for their depth.
A lone surrogate is no character here, so a text with one does not read.
-/
namespace JsonReader

open PyBase RecordModels SeparatedText

def isWhite (c : Char) : Bool := c = ' ' || c = '\t' || c = '\n' || c = '\r'

def skipWhite (cs : List Char) : List Char := cs.dropWhile isWhite

def hexDigitOf (c : Char) : Option Nat :=
  if c.isDigit then some (c.toNat - 48)
  else if 97 ≤ c.toNat ∧ c.toNat ≤ 102 then some (c.toNat - 87)
  else if 65 ≤ c.toNat ∧ c.toNat ≤ 70 then some (c.toNat - 55)
  else none

/-- The four digits behind a `\u`. -/
def codeUnit : List Char → Option (Nat × List Char)
  | a :: b :: c :: d :: rest => do
    let a ← hexDigitOf a
    let b ← hexDigitOf b
    let c ← hexDigitOf c
    let d ← hexDigitOf d
    some (4096 * a + 256 * b + 16 * c + d, rest)
  | _ => none

def isHigh (unit : Nat) : Bool := decide (0xD800 ≤ unit ∧ unit ≤ 0xDBFF)

def isLow (unit : Nat) : Bool := decide (0xDC00 ≤ unit ∧ unit ≤ 0xDFFF)

/-- What follows a `\u`: one code unit, or the two of a surrogate pair. -/
def unicodeCharacter (cs : List Char) : Option (Char × List Char) := do
  let (unit, rest) ← codeUnit cs
  if isHigh unit then
    match rest with
    | '\\' :: 'u' :: more => do
      let (low, more) ← codeUnit more
      if isLow low then some (Char.ofNat (65536 + (unit - 55296) * 1024 + (low - 56320)), more)
      else none
    | _ => none
  else if isLow unit then none
  else some (Char.ofNat unit, rest)

def simpleEscape (c : Char) : Option Char :=
  if c = '"' ∨ c = '\\' ∨ c = '/' then some c
  else if c = 'n' then some '\n'
  else if c = 'r' then some '\r'
  else if c = 't' then some '\t'
  else if c = 'b' then some (Char.ofNat 8)
  else if c = 'f' then some (Char.ofNat 12)
  else none

def character : List Char → Option (Char × List Char)
  | [] => none
  | c :: rest =>
    if c = '\\' then
      match rest with
      | [] => none
      | e :: more =>
        if e = 'u' then unicodeCharacter more
        else (simpleEscape e).map fun d => (d, more)
    else if c.toNat < 32 then none
    else some (c, rest)

def stringBody : Nat → List Char → Option (List Char × List Char)
  | 0, _ => none
  | _ + 1, [] => none
  | n + 1, c :: cs =>
    if c = '"' then some ([], cs)
    else do
      let (d, rest) ← character (c :: cs)
      let (ds, rest) ← stringBody n rest
      some (d :: ds, rest)

/-- `scanstring`. -/
def scanString (cs : List Char) : Option (String × List Char) :=
  (stringBody (cs.length + 1) cs).map fun (body, rest) => (String.ofList body, rest)

def digits (cs : List Char) : List Char × List Char :=
  (cs.takeWhile Char.isDigit, cs.dropWhile Char.isDigit)

/-- `[-]?`, `[-+]?`: one of the characters, where the text begins with it. -/
def oneOf (chars : List Char) : List Char → List Char × List Char
  | [] => ([], [])
  | c :: rest => if c ∈ chars then ([c], rest) else ([], c :: rest)

/-- `0|[1-9]\d*`. -/
def whole : List Char → List Char × List Char
  | [] => ([], [])
  | c :: rest => if c = '0' then (['0'], rest) else digits (c :: rest)

/-- `(\.\d+)?`. -/
def fraction : List Char → List Char × List Char
  | [] => ([], [])
  | c :: rest =>
    if c = '.' ∧ (digits rest).1 ≠ [] then (c :: (digits rest).1, (digits rest).2)
    else ([], c :: rest)

/-- `([eE][-+]?\d+)?`. -/
def exponent : List Char → List Char × List Char
  | [] => ([], [])
  | c :: rest =>
    let signed := oneOf ['-', '+'] rest
    let power := digits signed.2
    if c ∈ ['e', 'E'] ∧ power.1 ≠ [] then (c :: signed.1 ++ power.1, power.2) else ([], c :: rest)

structure Parts where
  sign : List Char
  whole : List Char
  fraction : List Char
  exponent : List Char
  rest : List Char

def parts (cs : List Char) : Parts :=
  let s := oneOf ['-'] cs
  let w := whole s.2
  let f := fraction w.2
  let e := exponent f.2
  ⟨s.1, w.1, f.1, e.1, e.2⟩

def Parts.text (p : Parts) : List Char := p.sign ++ p.whole ++ p.fraction ++ p.exponent

def Parts.integer (p : Parts) : Int :=
  if p.sign = [] then Nat.ofDigitChars 10 p.whole 0 else -Nat.ofDigitChars 10 p.whole 0

def Parts.IsFloat (p : Parts) : Prop := p.whole ≠ [] ∧ p.fraction ++ p.exponent ≠ []

instance (p : Parts) : Decidable p.IsFloat := inferInstanceAs (Decidable (_ ∧ _))

def FloatLiteral (text : String) : Prop :=
  (parts text.toList).IsFloat ∧ (parts text.toList).rest = []

instance (text : String) : Decidable (FloatLiteral text) := inferInstanceAs (Decidable (_ ∧ _))

def infinity : String := "Infinity"
def negativeInfinity : String := "-Infinity"

/-- `repr(float(text))` of the texts that the scanner takes for a float: a float has one
`repr`, and `float` takes it back to the float. -/
structure Floats where
  repr : String → String
  settled : ∀ cs, (parts cs).IsFloat →
    let read := repr (String.ofList (parts cs).text)
    (FloatLiteral read ∧ repr read = read) ∨ read = infinity ∨ read = negativeInfinity

section Reader

variable (floats : Floats)

def number (cs : List Char) : Option (Json × List Char) :=
  let p := parts cs
  if p.whole = [] then none
  else if p.fraction ++ p.exponent = [] then some (.int p.integer, p.rest)
  else some (.float (floats.repr (String.ofList p.text)), p.rest)

def constants : List (String × Json) :=
  [("null", .null), ("true", .bool true), ("false", .bool false), ("NaN", .float "NaN"),
    (infinity, .float infinity), (negativeInfinity, .float negativeInfinity)]

def behind (word : List Char) (cs : List Char) : Option (List Char) :=
  if word.isPrefixOf cs then some (cs.drop word.length) else none

def constant (cs : List Char) : Option (Json × List Char) :=
  constants.findSome? fun (word, j) => (behind word.toList cs).map fun rest => (j, rest)

def sequence {α : Type} (item : List Char → Option (α × List Char)) (close : Char) :
    Nat → List Char → Option (List α × List Char)
  | 0, _ => none
  | n + 1, cs => do
    let (x, rest) ← item cs
    match skipWhite rest with
    | [] => none
    | c :: rest =>
      if c = close then some ([x], rest)
      else if c = ',' then do
        let (xs, rest) ← sequence item close n (skipWhite rest)
        some (x :: xs, rest)
      else none

def bracketed {α : Type} (item : List Char → Option (α × List Char)) (close : Char) (n : Nat)
    (cs : List Char) : Option (List α × List Char) :=
  match skipWhite cs with
  | [] => none
  | c :: rest => if c = close then some ([], rest) else sequence item close n (c :: rest)

/-- `"key": value`. -/
def member (value : List Char → Option (Json × List Char)) :
    List Char → Option ((String × Json) × List Char)
  | [] => none
  | c :: cs =>
    if c = '"' then do
      let (key, rest) ← scanString cs
      match skipWhite rest with
      | [] => none
      | c :: rest =>
        if c = ':' then do
          let (j, rest) ← value (skipWhite rest)
          some ((key, j), rest)
        else none
    else none

/-- `scan_once`; each bracket takes one unit of fuel. A key that comes twice keeps its first
place and its last value. -/
def value : Nat → List Char → Option (Json × List Char)
  | 0, _ => none
  | _ + 1, [] => none
  | n + 1, c :: cs =>
    if c = '"' then (scanString cs).map fun (s, rest) => (.str s, rest)
    else if c = '[' then
      (bracketed (value n) ']' cs.length cs).map fun (items, rest) => (.arr items, rest)
    else if c = '{' then
      (bracketed (member (value n)) '}' cs.length cs).map fun (fields, rest) =>
        (.obj (Dict.update [] fields), rest)
    else (constant (c :: cs)).orElse fun _ => number floats (c :: cs)

/-- `json.loads(text)`, `none` for a `JSONDecodeError`. -/
def loads (text : String) : Option Json := do
  let (j, rest) ← value floats (text.length + 1) (skipWhite text.toList)
  if skipWhite rest = [] then some j else none

end Reader

/-- A layout whose separators are a comma and a colon with white space behind them, and
that leaves the fields in their order. -/
structure Plain (l : Layout) : Prop where
  item : ∃ space : List Char, l.itemSeparator.toList = ',' :: space ∧ space.all isWhite = true
  key : ∃ space : List Char, l.keySeparator.toList = ':' :: space ∧ space.all isWhite = true
  unsorted : l.sortKeys = false

/-- What `repr` writes of a float, and what the `json` module writes of the others. -/
def IsFloat (floats : Floats) (repr : String) : Prop :=
  (FloatLiteral repr ∧ floats.repr repr = repr) ∨ repr ∈ ["NaN", infinity, negativeInfinity]

def Opens (c : Char) : Prop := isWhite c = false ∧ c ≠ ']' ∧ c ≠ '}'

instance : DecidablePred Opens := fun c =>
  inferInstanceAs (Decidable (isWhite c = false ∧ c ≠ ']' ∧ c ≠ '}'))

theorem hexDigitOf_hexDigit (n : Nat) : hexDigitOf (hexDigit (n % 16)) = some (n % 16) := by
  have hall : ∀ m < 16, hexDigitOf (hexDigit m) = some m := by decide
  exact hall _ (Nat.mod_lt _ (by decide))

theorem codeUnit_digits {n : Nat} (h : n < 65536) (rest : List Char) :
    codeUnit (hexDigit (n / 4096 % 16) :: hexDigit (n / 256 % 16) :: hexDigit (n / 16 % 16) ::
      hexDigit (n % 16) :: rest) = some (n, rest) := by
  have hn : 4096 * (n / 4096 % 16) + 256 * (n / 256 % 16) + 16 * (n / 16 % 16) + n % 16 = n := by
    omega
  simp [codeUnit, hexDigitOf_hexDigit, hn]

theorem char_valid (c : Char) : c.toNat < 55296 ∨ 57343 < c.toNat ∧ c.toNat < 1114112 := c.valid

theorem unicodeCharacter_unit {c : Char} (h : c.toNat < 65536) (rest : List Char) :
    unicodeCharacter ((unicodeEscape c.toNat).drop 2 ++ rest) = some (c, rest) := by
  have hhigh : isHigh c.toNat = false := by
    have := char_valid c
    simp only [isHigh, decide_eq_false_iff_not]
    omega
  have hlow : isLow c.toNat = false := by
    have := char_valid c
    simp only [isLow, decide_eq_false_iff_not]
    omega
  have hunit := codeUnit_digits h rest
  simp only [unicodeEscape, List.drop_succ_cons, List.drop_zero, List.cons_append, List.nil_append]
  simp [unicodeCharacter, hunit, hhigh, hlow]

theorem unicodeCharacter_pair {high low : Nat} (hhigh : isHigh high = true)
    (hlow : isLow low = true) (rest : List Char) :
    unicodeCharacter ((unicodeEscape high).drop 2 ++ (unicodeEscape low ++ rest)) =
      some (Char.ofNat (65536 + (high - 55296) * 1024 + (low - 56320)), rest) := by
  have hbounds : high < 65536 ∧ low < 65536 := by
    simp only [isHigh, isLow, decide_eq_true_eq] at hhigh hlow
    omega
  have hfirst := codeUnit_digits hbounds.1 (unicodeEscape low ++ rest)
  have hsecond := codeUnit_digits hbounds.2 rest
  simp only [unicodeEscape, List.drop_succ_cons, List.drop_zero, List.cons_append,
    List.nil_append] at hfirst ⊢
  simp [unicodeCharacter, hfirst, hsecond, hhigh, hlow]

theorem unicodeCharacter_wide {c : Char} (h : 65536 ≤ c.toNat) (rest : List Char) :
    unicodeCharacter ((unicodeEscape (55296 + (c.toNat - 65536) / 1024)).drop 2 ++
      (unicodeEscape (56320 + (c.toNat - 65536) % 1024) ++ rest)) = some (c, rest) := by
  have hvalid := char_valid c
  have hhigh : isHigh (55296 + (c.toNat - 65536) / 1024) = true := by
    simp only [isHigh, decide_eq_true_eq]
    omega
  have hlow : isLow (56320 + (c.toNat - 65536) % 1024) = true := by
    simp only [isLow, decide_eq_true_eq]
    omega
  rw [unicodeCharacter_pair hhigh hlow]
  refine congrArg (fun d => some (d, rest)) (CanonicalJson.char_of_toNat ?_)
  omega

theorem character_unicode {n : Nat} (rest : List Char) :
    character (unicodeEscape n ++ rest) = unicodeCharacter ((unicodeEscape n).drop 2 ++ rest) := rfl

/-- What `json.dumps` writes for a character. -/
inductive Escapes (c : Char) : List Char → Prop
  | simple {e : Char} (h : simpleEscape e = some c) (hother : e ≠ 'u') : Escapes c ['\\', e]
  | unit (h : c.toNat < 65536) : Escapes c (unicodeEscape c.toNat)
  | pair (h : 65536 ≤ c.toNat) : Escapes c
      (unicodeEscape (55296 + (c.toNat - 65536) / 1024) ++
        unicodeEscape (56320 + (c.toNat - 65536) % 1024))
  | plain (hquote : c ≠ '"') (hslash : c ≠ '\\') (h : 32 ≤ c.toNat) : Escapes c [c]

theorem escapeChar_escapes (ascii : Bool) (c : Char) : Escapes c (escapeChar ascii c) := by
  have hsimple : ∀ e, simpleEscape e = some c → e ≠ 'u' → Escapes c ['\\', e] := fun _ => .simple
  rw [escapeChar]
  by_cases hquote : c = '"'
  · rw [if_pos hquote]
    exact hsimple '"' (by rw [hquote]; decide) (by decide)
  rw [if_neg hquote]
  by_cases hslash : c = '\\'
  · rw [if_pos hslash]
    exact hsimple '\\' (by rw [hslash]; decide) (by decide)
  rw [if_neg hslash]
  by_cases hline : c = '\n'
  · rw [if_pos hline]
    exact hsimple 'n' (hline ▸ rfl) (by decide)
  rw [if_neg hline]
  by_cases hreturn : c = '\r'
  · rw [if_pos hreturn]
    exact hsimple 'r' (hreturn ▸ rfl) (by decide)
  rw [if_neg hreturn]
  by_cases htab : c = '\t'
  · rw [if_pos htab]
    exact hsimple 't' (htab ▸ rfl) (by decide)
  rw [if_neg htab]
  by_cases hback : c.toNat = 8
  · rw [if_pos hback]
    exact hsimple 'b' (CanonicalJson.char_of_toNat hback ▸ rfl) (by decide)
  rw [if_neg hback]
  by_cases hfeed : c.toNat = 12
  · rw [if_pos hfeed]
    exact hsimple 'f' (CanonicalJson.char_of_toNat hfeed ▸ rfl) (by decide)
  rw [if_neg hfeed]
  by_cases hcontrol : c.toNat < 32
  · rw [if_pos hcontrol]
    exact .unit (by omega)
  rw [if_neg hcontrol]
  by_cases hascii : (ascii && decide (126 < c.toNat)) = true
  · rw [if_pos hascii]
    by_cases hshort : c.toNat < 65536
    · rw [if_pos hshort]
      exact .unit hshort
    · rw [if_neg hshort]
      exact .pair (by omega)
  · rw [if_neg hascii]
    exact .plain hquote hslash (by omega)

theorem character_escape (ascii : Bool) (c : Char) (rest : List Char) :
    character (escapeChar ascii c ++ rest) = some (c, rest) := by
  have hescapes := escapeChar_escapes ascii c
  generalize escapeChar ascii c = cs at hescapes
  cases hescapes with
  | simple h hother => simp [character, h, hother]
  | unit h => exact (character_unicode rest).trans (unicodeCharacter_unit h rest)
  | pair h =>
    rw [List.append_assoc, character_unicode]
    exact unicodeCharacter_wide h rest
  | plain hquote hslash h =>
    have hcontrol : ¬ c.toNat < 32 := by omega
    simp [character, hslash, hcontrol]

theorem escape_opens (ascii : Bool) (c : Char) :
    ∃ d ds, escapeChar ascii c = d :: ds ∧ d ≠ '"' := by
  have hescapes := escapeChar_escapes ascii c
  generalize escapeChar ascii c = cs at hescapes
  cases hescapes with
  | simple h hother => exact ⟨'\\', _, rfl, by decide⟩
  | unit h => exact ⟨'\\', _, rfl, by decide⟩
  | pair h => exact ⟨'\\', _, rfl, by decide⟩
  | plain hquote hslash h => exact ⟨c, [], rfl, hquote⟩

theorem stringBody_escaped (ascii : Bool) (s rest : List Char) {n : Nat} (hn : s.length < n) :
    stringBody n (s.flatMap (escapeChar ascii) ++ '"' :: rest) = some (s, rest) := by
  induction s generalizing n with
  | nil =>
    obtain ⟨m, rfl⟩ : ∃ m, n = m + 1 := ⟨n - 1, by simp at hn; omega⟩
    rfl
  | cons c s ih =>
    obtain ⟨m, rfl⟩ : ∃ m, n = m + 1 := ⟨n - 1, by simp at hn; omega⟩
    obtain ⟨d, ds, hescape, hother⟩ := escape_opens ascii c
    have hread := character_escape ascii c (s.flatMap (escapeChar ascii) ++ '"' :: rest)
    rw [hescape, List.cons_append] at hread
    rw [List.flatMap_cons, hescape, List.append_assoc, List.cons_append]
    simp only [stringBody, hother, if_false, hread, Option.bind_eq_bind, Option.bind_some]
    rw [ih (by simpa using hn)]
    rfl

theorem escaped_length (ascii : Bool) (s : List Char) :
    s.length ≤ (s.flatMap (escapeChar ascii)).length := by
  induction s with
  | nil => simp
  | cons c s ih =>
    obtain ⟨d, ds, hescape, -⟩ := escape_opens ascii c
    rw [List.flatMap_cons, hescape]
    simp only [List.length_cons, List.length_append]
    omega

/-- The characters of `quote` behind the opening one. -/
def quotedRest (ascii : Bool) (s : String) : List Char :=
  s.toList.flatMap (escapeChar ascii) ++ ['"']

theorem toList_quote (ascii : Bool) (s : String) :
    (quote ascii s).toList = '"' :: quotedRest ascii s := by
  rw [quote, String.toList_ofList, quotedRest, List.cons_append]

theorem scanString_quoted (ascii : Bool) (s : String) (rest : List Char) :
    scanString (quotedRest ascii s ++ rest) = some (s, rest) := by
  have hlength := escaped_length ascii s.toList
  rw [scanString, quotedRest, List.append_assoc, List.singleton_append, stringBody_escaped]
  · simp
  · simp only [List.length_append, List.length_cons]
    omega

def Follows (c : Char) : Prop := c ∈ [',', ']', '}', '\n']

instance : DecidablePred Follows := fun c => inferInstanceAs (Decidable (c ∈ _))

/-- A piece of a number is read off whatever follows the number. -/
def ReadsOff (piece : List Char → List Char × List Char) : Prop :=
  ∀ cs rest, Stopped Follows rest →
    piece (cs ++ rest) = ((piece cs).1, (piece cs).2 ++ rest)

theorem follows_cases {rest : List Char} (h : Stopped Follows rest) :
    rest = [] ∨ ∃ c more, rest = c :: more ∧ (c = ',' ∨ c = ']' ∨ c = '}' ∨ c = '\n') := by
  cases rest with
  | nil => exact .inl rfl
  | cons c more =>
    have hc : c ∈ [',', ']', '}', '\n'] := h c rfl
    simp only [List.mem_cons, List.not_mem_nil, or_false] at hc
    exact .inr ⟨c, more, rfl, hc⟩

theorem digits_readsOff : ReadsOff digits := by
  intro cs rest hrest
  unfold digits
  induction cs with
  | nil => obtain rfl | ⟨c, more, rfl, rfl | rfl | rfl | rfl⟩ := follows_cases hrest <;> rfl
  | cons c cs ih =>
    cases hc : c.isDigit with
    | true =>
      simp only [List.cons_append, List.takeWhile_cons, List.dropWhile_cons, hc, if_true]
      rw [Prod.mk.injEq] at ih ⊢
      exact ⟨by rw [ih.1], ih.2⟩
    | false => simp [hc]

theorem oneOf_readsOff (chars : List Char)
    (h : chars.all (fun c => decide (¬ Follows c)) = true) : ReadsOff (oneOf chars) := by
  intro cs rest hrest
  cases cs with
  | nil =>
    cases rest with
    | nil => rfl
    | cons c more =>
      have hstop : Follows c := hrest c rfl
      have hc : c ∉ chars := fun hin => absurd hstop (by simpa using List.all_eq_true.mp h c hin)
      simp [oneOf, hc]
  | cons c cs =>
    simp only [List.cons_append, oneOf]
    split <;> rfl

theorem whole_readsOff : ReadsOff whole := by
  intro cs rest hrest
  cases cs with
  | nil => obtain rfl | ⟨c, more, rfl, rfl | rfl | rfl | rfl⟩ := follows_cases hrest <;> rfl
  | cons c cs =>
    have hdigits := digits_readsOff (c :: cs) rest hrest
    rw [List.cons_append] at hdigits ⊢
    simp only [whole]
    split
    · rfl
    · exact hdigits

theorem fraction_readsOff : ReadsOff fraction := by
  intro cs rest hrest
  cases cs with
  | nil => obtain rfl | ⟨c, more, rfl, rfl | rfl | rfl | rfl⟩ := follows_cases hrest <;> rfl
  | cons c cs =>
    simp only [List.cons_append, fraction, digits_readsOff cs rest hrest]
    split <;> rfl

theorem exponent_readsOff : ReadsOff exponent := by
  intro cs rest hrest
  cases cs with
  | nil => obtain rfl | ⟨c, more, rfl, rfl | rfl | rfl | rfl⟩ := follows_cases hrest <;> rfl
  | cons c cs =>
    have hsigned := oneOf_readsOff ['-', '+'] (by decide) cs rest hrest
    simp only [List.cons_append, exponent, hsigned, digits_readsOff _ rest hrest]
    split <;> rfl

theorem parts_append (cs : List Char) {rest : List Char}
    (h : Stopped Follows rest) :
    parts (cs ++ rest) = { parts cs with rest := (parts cs).rest ++ rest } := by
  have hsign := oneOf_readsOff ['-'] (by decide) cs rest h
  simp only [parts, hsign, whole_readsOff _ rest h, fraction_readsOff _ rest h,
    exponent_readsOff _ rest h]

theorem digits_text (cs : List Char) : (digits cs).1 ++ (digits cs).2 = cs :=
  List.takeWhile_append_dropWhile

theorem oneOf_text (chars cs : List Char) : (oneOf chars cs).1 ++ (oneOf chars cs).2 = cs := by
  cases cs with
  | nil => rfl
  | cons c cs =>
    simp only [oneOf]
    split <;> rfl

theorem whole_text (cs : List Char) : (whole cs).1 ++ (whole cs).2 = cs := by
  cases cs with
  | nil => rfl
  | cons c cs =>
    simp only [whole]
    split
    · rename_i hc
      simp [hc]
    · exact digits_text (c :: cs)

theorem fraction_text (cs : List Char) : (fraction cs).1 ++ (fraction cs).2 = cs := by
  cases cs with
  | nil => rfl
  | cons c cs =>
    have htext := digits_text cs
    simp only [fraction]
    split
    · rw [List.cons_append, htext]
    · rfl

theorem exponent_text (cs : List Char) : (exponent cs).1 ++ (exponent cs).2 = cs := by
  cases cs with
  | nil => rfl
  | cons c cs =>
    have hsigned := oneOf_text ['-', '+'] cs
    have hpower := digits_text (oneOf ['-', '+'] cs).2
    simp only [exponent]
    split
    · rw [List.cons_append, List.cons_append, List.append_assoc, hpower, hsigned]
    · rfl

theorem parts_text (cs : List Char) : (parts cs).text ++ (parts cs).rest = cs := by
  simp only [parts, Parts.text, List.append_assoc]
  rw [exponent_text, fraction_text, whole_text, oneOf_text]

theorem whole_digits (cs : List Char) : ∀ c ∈ (whole cs).1, c.isDigit = true := by
  cases cs with
  | nil => simp [whole]
  | cons c cs =>
    simp only [whole]
    split
    · simp
    · exact fun d hd => by simpa using List.mem_takeWhile_imp hd

section Numbers

variable {floats : Floats} {rest : List Char}

theorem number_append {cs : List Char} (hwhole : (parts cs).whole ≠ [])
    (hend : (parts cs).rest = []) (hrest : Stopped Follows rest) :
    number floats (cs ++ rest) = (number floats cs).map fun (j, _) => (j, rest) := by
  simp only [number, parts_append cs hrest, hend, hwhole, if_false, List.nil_append, Parts.text,
    Parts.integer]
  split <;> rfl

theorem number_float {repr : String} (h : FloatLiteral repr) :
    number floats repr.toList = some (.float (floats.repr repr), []) := by
  obtain ⟨⟨hwhole, hpoint⟩, hend⟩ := h
  have htext := parts_text repr.toList
  rw [hend, List.append_nil] at htext
  simp [number, hwhole, hpoint, hend, htext]

theorem toDigits_leads {n : Nat} (h : 0 < n) :
    ∃ c cs, Nat.toDigits 10 n = c :: cs ∧ c ≠ '0' := by
  induction n using Nat.strongRecOn with
  | _ n ih =>
    by_cases hsmall : n < 10
    · refine ⟨n.digitChar, [], Nat.toDigits_of_lt_base hsmall, ?_⟩
      have hall : ∀ m < 10, 0 < m → m.digitChar ≠ '0' := by decide
      exact hall n hsmall h
    · obtain ⟨c, cs, hcs, hc⟩ := ih (n / 10) (by omega) (by omega)
      refine ⟨c, cs ++ [(n % 10).digitChar], ?_, hc⟩
      rw [Nat.toDigits_of_base_le (by decide) (by omega), hcs, List.cons_append]

theorem whole_natural (n : Nat) : whole (Nat.toDigits 10 n) = (Nat.toDigits 10 n, []) := by
  by_cases hzero : n = 0
  · subst hzero
    rfl
  · obtain ⟨c, cs, hcs, hc⟩ := toDigits_leads (Nat.pos_of_ne_zero hzero)
    have hall : ∀ d ∈ Nat.toDigits 10 n, d.isDigit = true :=
      fun d hd => Nat.isDigit_of_mem_toDigits (by decide) (by decide) hd
    rw [hcs] at hall ⊢
    simp only [whole, hc, if_false, digits]
    rw [List.takeWhile_eq_self_iff.mpr hall, List.dropWhile_eq_nil_iff.mpr hall]

theorem parts_natural (n : Nat) :
    parts (Nat.toDigits 10 n) = ⟨[], Nat.toDigits 10 n, [], [], []⟩ := by
  have hsign : oneOf ['-'] (Nat.toDigits 10 n) = ([], Nat.toDigits 10 n) := by
    cases hdigits : Nat.toDigits 10 n with
    | nil => rfl
    | cons c cs =>
      have hc : c.isDigit = true := by
        refine Nat.isDigit_of_mem_toDigits (b := 10) (n := n) (by decide) (by decide) ?_
        rw [hdigits]
        exact List.mem_cons_self
      have hne : c ≠ '-' := by
        rintro rfl
        exact absurd hc (by decide)
      simp [oneOf, hne]
  simp [parts, hsign, whole_natural, fraction, exponent]

theorem parts_negative (n : Nat) :
    parts ('-' :: Nat.toDigits 10 n) = ⟨['-'], Nat.toDigits 10 n, [], [], []⟩ := by
  simp [parts, oneOf, whole_natural, fraction, exponent]

theorem toList_negative (m : Nat) :
    ("-" ++ toString (m + 1)).toList = '-' :: Nat.toDigits 10 (m + 1) := by
  have hdigits : (toString (m + 1)).toList = Nat.toDigits 10 (m + 1) := by
    rw [Nat.toString_eq_ofList_toDigits, String.toList_ofList]
  rw [String.toList_append]
  exact congrArg (['-'] ++ ·) hdigits

theorem number_int (n : Int) : number floats (toString n).toList = some (.int n, []) := by
  obtain ⟨m, rfl, htext⟩ | ⟨m, rfl, htext⟩ := CanonicalJson.intText_cases n
  · rw [htext, Nat.toString_eq_ofList_toDigits, String.toList_ofList]
    simp [number, parts_natural, Parts.integer, Nat.toDigits_ne_nil]
  · rw [htext, toList_negative]
    simp [number, parts_negative, Parts.integer, Nat.toDigits_ne_nil, Int.negSucc_eq]

theorem parts_int (n : Int) : (parts (toString n).toList).whole ≠ [] ∧
    (parts (toString n).toList).rest = [] := by
  obtain ⟨m, -, htext⟩ | ⟨m, -, htext⟩ := CanonicalJson.intText_cases n
  · rw [htext, Nat.toString_eq_ofList_toDigits, String.toList_ofList, parts_natural]
    exact ⟨Nat.toDigits_ne_nil, rfl⟩
  · rw [htext, toList_negative, parts_negative]
    exact ⟨Nat.toDigits_ne_nil, rfl⟩

inductive NumberLeads : List Char → Prop
  | digit {c : Char} (cs : List Char) (h : c.isDigit = true) : NumberLeads (c :: cs)
  | signed {c : Char} (cs : List Char) (h : c.isDigit = true) : NumberLeads ('-' :: c :: cs)

theorem parts_leads {cs : List Char} (h : (parts cs).whole ≠ []) : NumberLeads cs := by
  have hsign := oneOf_text ['-'] cs
  have hwhole := whole_text (oneOf ['-'] cs).2
  have hdigits := whole_digits (oneOf ['-'] cs).2
  change (whole (oneOf ['-'] cs).2).1 ≠ [] at h
  obtain ⟨d, ds, hd⟩ := List.exists_cons_of_ne_nil h
  rw [hd, List.cons_append] at hwhole
  have hdigit : d.isDigit = true := hdigits d (by rw [hd]; exact List.mem_cons_self)
  rw [← hwhole] at hsign
  have hcases : (oneOf ['-'] cs).1 = [] ∨ (oneOf ['-'] cs).1 = ['-'] := by
    cases cs with
    | nil => exact .inl rfl
    | cons c cs =>
      simp only [oneOf, List.mem_singleton]
      split
      · rename_i hc
        exact .inr (by rw [hc])
      · exact .inl rfl
  obtain hnone | hsome := hcases
  · rw [hnone] at hsign
    rw [← hsign]
    exact .digit _ hdigit
  · rw [hsome] at hsign
    rw [← hsign]
    exact .signed _ hdigit

theorem NumberLeads.append {cs : List Char} (h : NumberLeads cs) (rest : List Char) :
    NumberLeads (cs ++ rest) := by
  cases h with
  | digit cs h => exact .digit (cs ++ rest) h
  | signed cs h => exact .signed (cs ++ rest) h

theorem digit_ne {c d : Char} (h : c.isDigit = true) (hd : d.isDigit = false) : c ≠ d := by
  rintro rfl
  exact Bool.false_ne_true (hd.symm.trans h)

theorem constant_number {cs : List Char} (h : NumberLeads cs) : constant cs = none := by
  cases h with
  | digit cs h =>
    have hne : ∀ d : Char, d.isDigit = false → d ≠ _ := fun d hd => (digit_ne h hd).symm
    simp [constant, constants, behind, infinity, negativeInfinity, hne 'n' rfl, hne 't' rfl,
      hne 'f' rfl, hne 'N' rfl, hne 'I' rfl, hne '-' rfl]
  | signed cs h =>
    have hne : 'I' ≠ _ := (digit_ne h (d := 'I') rfl).symm
    simp [constant, constants, behind, infinity, negativeInfinity, hne]

end Numbers

section Documents

variable (l : Layout)

def text (j : Json) : List Char := (dumpsWith l j).toList

def memberOf (valueText : Json → List Char) (field : String × Json) : List Char :=
  '"' :: (quotedRest l.ensureAscii field.1 ++ (l.keySeparator.toList ++ valueText field.2))

def memberText (field : String × Json) : List Char := memberOf l (text l) field

def further {α : Type} (itemText : α → List Char) (items : List α) : List Char :=
  items.flatMap fun item => l.itemSeparator.toList ++ itemText item

theorem toList_intercalate {α : Type} (f : α → String) (x : α) (xs : List α) :
    (l.itemSeparator.intercalate ((x :: xs).map f)).toList =
      (f x).toList ++ further l (fun y => (f y).toList) xs := by
  induction xs generalizing x with
  | nil => simp [further]
  | cons y ys ih =>
    have hrest := ih y
    rw [List.map_cons] at hrest
    rw [List.map_cons, List.map_cons, String.intercalate_cons_cons, String.toList_append,
      String.toList_append, hrest]
    simp [further]

theorem dumpsItems_map (items : List Json) : dumpsItems l items = items.map (dumpsWith l) := by
  induction items with
  | nil => rfl
  | cons item rest ih => rw [dumpsItems, ih, List.map_cons]

theorem dumpsFields_map (fields : Dict) :
    dumpsFields l fields = fields.map fun field => (field.1, dumpsWith l field.2) := by
  induction fields with
  | nil => rfl
  | cons field rest ih =>
    obtain ⟨key, value⟩ := field
    rw [dumpsFields, ih, List.map_cons]

def fieldString (field : String × Json) : String :=
  quote l.ensureAscii field.1 ++ l.keySeparator ++ dumpsWith l field.2

theorem toList_fieldString (field : String × Json) :
    (fieldString l field).toList = memberText l field := by
  simp [fieldString, memberText, memberOf, toList_quote, text]

theorem dumpsWith_arr (items : List Json) : dumpsWith l (.arr items) =
    "[" ++ l.itemSeparator.intercalate (items.map (dumpsWith l)) ++ "]" := by
  rw [dumpsWith, dumpsItems_map]

theorem dumpsWith_obj (hl : l.sortKeys = false) (fields : Dict) : dumpsWith l (.obj fields) =
    r"{" ++ l.itemSeparator.intercalate (fields.map (fieldString l)) ++ r"}" := by
  rw [dumpsWith, dumpsFields_map, hl]
  simp only [Bool.false_eq_true, if_false, List.map_map]
  rfl

theorem toList_between (a b : Char) (s : String) :
    (String.singleton a ++ s ++ String.singleton b).toList = a :: (s.toList ++ [b]) := by
  simp

theorem text_arr_nil : text l (.arr []) = ['[', ']'] := by
  rw [text, dumpsWith_arr]
  exact toList_between '[' ']' ""

theorem text_arr_cons (x : Json) (xs : List Json) :
    text l (.arr (x :: xs)) = '[' :: (text l x ++ further l (text l) xs ++ [']']) := by
  have hitems := toList_intercalate l (dumpsWith l) x xs
  rw [text, dumpsWith_arr]
  refine (toList_between '[' ']' _).trans ?_
  rw [hitems]
  rfl

theorem text_obj_nil (hl : l.sortKeys = false) : text l (.obj []) = ['{', '}'] := by
  rw [text, dumpsWith_obj l hl]
  exact toList_between '{' '}' ""

theorem text_obj_cons (hl : l.sortKeys = false) (x : String × Json) (xs : Dict) :
    text l (.obj (x :: xs)) =
      '{' :: (memberText l x ++ further l (memberText l) xs ++ ['}']) := by
  have hmember : (fun field => (fieldString l field).toList) = memberText l :=
    funext (toList_fieldString l)
  have hfields := toList_intercalate l (fieldString l) x xs
  rw [hmember, toList_fieldString] at hfields
  rw [text, dumpsWith_obj l hl]
  refine (toList_between '{' '}' _).trans ?_
  rw [hfields]

end Documents

theorem skipWhite_opens {c : Char} (hc : isWhite c = false) (cs : List Char) :
    skipWhite (c :: cs) = c :: cs := by
  simp [skipWhite, hc]

theorem skipWhite_space {space : List Char} (h : space.all isWhite = true) {c : Char}
    (hc : isWhite c = false) (cs : List Char) :
    skipWhite (space ++ c :: cs) = c :: cs := by
  rw [skipWhite, List.dropWhile_append_of_pos (fun d hd => List.all_eq_true.mp h d hd)]
  exact skipWhite_opens hc cs

section Sequences

variable {α : Type} {l : Layout} {item : List Char → Option (α × List Char)}
  {itemText : α → List Char} {close : Char} {rest : List Char}

/-- Whatever follows behind a stop, the item is read and nothing else. -/
def Reads (item : List Char → Option (α × List Char)) (itemText : α → List Char) (x : α) : Prop :=
  (∃ c cs, itemText x = c :: cs ∧ Opens c) ∧
    ∀ rest, Stopped Follows rest → item (itemText x ++ rest) = some (x, rest)

theorem sequence_spaced (hl : Plain l) (hclose : close = ']' ∨ close = '}')
    {after : List Char} (hafter : after.all isWhite = true)
    (hstop : ∀ rest, Stopped Follows (after ++ close :: rest)) {x : α} {xs : List α}
    (h : ∀ y ∈ x :: xs, Reads item itemText y) {n : Nat} (hn : xs.length < n) :
    sequence item close n (itemText x ++ (further l itemText xs ++ (after ++ close :: rest))) =
      some (x :: xs, rest) := by
  have hwhite : isWhite close = false := by obtain rfl | rfl := hclose <;> rfl
  have hcomma : ',' ≠ close := by obtain rfl | rfl := hclose <;> decide
  induction xs generalizing x n with
  | nil =>
    obtain ⟨m, rfl⟩ : ∃ m, n = m + 1 := ⟨n - 1, by omega⟩
    have hread := (h x List.mem_cons_self).2 (after ++ close :: rest) (hstop rest)
    simp [sequence, further, hread, skipWhite_space hafter hwhite]
  | cons y ys ih =>
    obtain ⟨m, rfl⟩ : ∃ m, n = m + 1 := ⟨n - 1, by omega⟩
    obtain ⟨space, hitem, hspace⟩ := hl.item
    obtain ⟨⟨c, cs, hc, hopens⟩, -⟩ := h y (by simp)
    have htail := ih (x := y) (fun z hz => h z (List.mem_cons_of_mem x hz)) (n := m)
      (by simp only [List.length_cons] at hn; omega)
    have hread := (h x List.mem_cons_self).2 (',' :: (space ++ (itemText y ++
      (further l itemText ys ++ (after ++ close :: rest))))) (stopped_cons (by decide))
    have hskip : skipWhite (space ++ (itemText y ++ (further l itemText ys ++
        (after ++ close :: rest)))) =
        itemText y ++ (further l itemText ys ++ (after ++ close :: rest)) := by
      rw [hc, List.cons_append]
      exact skipWhite_space hspace hopens.1 _
    have htext : further l itemText (y :: ys) ++ (after ++ close :: rest) =
        ',' :: (space ++ (itemText y ++ (further l itemText ys ++ (after ++ close :: rest)))) := by
      simp [further, hitem]
    rw [htext]
    simp only [sequence, hread, Option.bind_eq_bind, Option.bind_some,
      skipWhite_opens (show isWhite ',' = false from rfl), hcomma, if_false, if_true, hskip, htail]

theorem bracketed_nil (hclose : isWhite close = false) (n : Nat) :
    bracketed item close n (close :: rest) = some ([], rest) := by
  simp [bracketed, skipWhite_opens hclose]

theorem bracketed_spaced (hl : Plain l) (hclose : close = ']' ∨ close = '}')
    {before after : List Char} (hbefore : before.all isWhite = true)
    (hafter : after.all isWhite = true)
    (hstop : ∀ rest, Stopped Follows (after ++ close :: rest)) {x : α} {xs : List α}
    (h : ∀ y ∈ x :: xs, Reads item itemText y) {n : Nat} (hn : xs.length < n) :
    bracketed item close n
        (before ++ (itemText x ++ (further l itemText xs ++ (after ++ close :: rest)))) =
      some (x :: xs, rest) := by
  obtain ⟨⟨c, cs, hc, hwhite, hbracket, hbrace⟩, -⟩ := h x List.mem_cons_self
  have hne : c ≠ close := by obtain rfl | rfl := hclose <;> assumption
  have hsequence : sequence item close n (itemText x ++ (further l itemText xs ++
      (after ++ close :: rest))) = some (x :: xs, rest) :=
    sequence_spaced hl hclose hafter hstop h hn
  rw [hc, List.cons_append] at hsequence ⊢
  simp only [bracketed, skipWhite_space hbefore hwhite, hne, if_false, hsequence]

theorem bracketed_reads (hl : Plain l) (hclose : close = ']' ∨ close = '}') {x : α} {xs : List α}
    (h : ∀ y ∈ x :: xs, Reads item itemText y) {n : Nat} (hn : xs.length < n) :
    bracketed item close n (itemText x ++ (further l itemText xs ++ close :: rest)) =
      some (x :: xs, rest) := by
  have hstop : ∀ rest, Stopped Follows ([] ++ close :: rest) := by
    obtain rfl | rfl := hclose <;> exact fun rest => stopped_cons (by decide)
  have hnone : ([] : List Char).all isWhite = true := rfl
  exact bracketed_spaced hl hclose hnone hnone hstop h hn

theorem further_length (itemText : α → List Char) (hl : Plain l) (xs : List α) :
    xs.length ≤ (further l itemText xs).length := by
  obtain ⟨space, hitem, -⟩ := hl.item
  induction xs with
  | nil => simp
  | cons x xs ih =>
    have hcons : further l itemText (x :: xs) =
        l.itemSeparator.toList ++ itemText x ++ further l itemText xs := by simp [further]
    rw [hcons, hitem]
    simp only [List.length_cons, List.length_append]
    omega

theorem mem_length (l : Layout) (itemText : α → List Char) {x y : α} {xs : List α}
    (h : y ∈ x :: xs) :
    (itemText y).length ≤ (itemText x ++ further l itemText xs).length := by
  induction xs generalizing x with
  | nil => simp_all
  | cons z zs ih =>
    have hcons : further l itemText (z :: zs) =
        l.itemSeparator.toList ++ (itemText z ++ further l itemText zs) := by simp [further]
    rcases List.mem_cons.mp h with rfl | hrest
    · simp
    · have := ih hrest
      rw [hcons]
      simp only [List.length_append] at this ⊢
      omega

end Sequences

section Values

variable {floats : Floats} {l : Layout}

theorem value_string (ascii : Bool) (s : String) (n : Nat) (rest : List Char) :
    value floats (n + 1) ('"' :: (quotedRest ascii s ++ rest)) = some (.str s, rest) := by
  simp [value, scanString_quoted]

theorem value_constant {word : String} {j : Json} (h : (word, j) ∈ constants) (n : Nat)
    (rest : List Char) : value floats (n + 1) (word.toList ++ rest) = some (j, rest) := by
  simp only [constants, List.mem_cons, List.not_mem_nil, or_false, Prod.mk.injEq] at h
  obtain ⟨rfl, rfl⟩ | ⟨rfl, rfl⟩ | ⟨rfl, rfl⟩ | ⟨rfl, rfl⟩ | ⟨rfl, rfl⟩ | ⟨rfl, rfl⟩ := h <;>
    simp [value, constant, constants, behind, infinity, negativeInfinity]

theorem value_number {cs : List Char} {j : Json} (h : number floats cs = some (j, []))
    (hwhole : (parts cs).whole ≠ []) (hend : (parts cs).rest = []) (n : Nat) {rest : List Char}
    (hrest : Stopped Follows rest) :
    value floats (n + 1) (cs ++ rest) = some (j, rest) := by
  have hleads := (parts_leads hwhole).append rest
  have hread : number floats (cs ++ rest) = some (j, rest) := by
    rw [number_append hwhole hend hrest, h]
    rfl
  have hconstant := constant_number hleads
  generalize cs ++ rest = text at hleads hread hconstant
  cases hleads with
  | digit cs h =>
    have hne : ∀ d : Char, d.isDigit = false → ¬ _ = d := fun d hd => digit_ne h hd
    simp [value, hne '"' rfl, hne '[' rfl, hne '{' rfl, hconstant, hread]
  | signed cs h => simp [value, hconstant, hread]

theorem text_opens {j : Json} (h : Genuine (IsFloat floats) j) (hl : Plain l) :
    ∃ c cs, text l j = c :: cs ∧ Opens c := by
  have hnumber : ∀ {cs : List Char}, NumberLeads cs → ∃ c ds, cs = c :: ds ∧ Opens c := by
    intro cs hcs
    cases hcs with
    | digit cs h =>
      refine ⟨_, cs, rfl, ?_, digit_ne h rfl, digit_ne h rfl⟩
      simp [isWhite, digit_ne h (d := ' ') rfl, digit_ne h (d := '\t') rfl,
        digit_ne h (d := '\n') rfl, digit_ne h (d := '\r') rfl]
    | signed cs h => exact ⟨'-', _, rfl, by decide⟩
  cases h with
  | null => exact ⟨'n', ['u', 'l', 'l'], by simp [text, dumpsWith], by decide⟩
  | bool b =>
    cases b with
    | true => exact ⟨'t', ['r', 'u', 'e'], by simp [text, dumpsWith], by decide⟩
    | false => exact ⟨'f', ['a', 'l', 's', 'e'], by simp [text, dumpsWith], by decide⟩
  | int n =>
    rw [text, dumpsWith]
    exact hnumber (parts_leads (parts_int n).1)
  | @float repr h =>
    rw [text, dumpsWith]
    rcases h with ⟨⟨⟨hwhole, -⟩, -⟩, -⟩ | hconstant
    · exact hnumber (parts_leads hwhole)
    · simp only [List.mem_cons, List.not_mem_nil, or_false] at hconstant
      obtain rfl | rfl | rfl := hconstant
      · exact ⟨'N', ['a', 'N'], by simp, by decide⟩
      · exact ⟨'I', _, by simp [infinity]; rfl, by decide⟩
      · exact ⟨'-', _, by simp [negativeInfinity]; rfl, by decide⟩
  | str s =>
    rw [text, dumpsWith, toList_quote]
    exact ⟨'"', _, rfl, by decide⟩
  | @arr items h =>
    cases items with
    | nil => exact ⟨'[', _, text_arr_nil l, by decide⟩
    | cons x xs => exact ⟨'[', _, text_arr_cons l x xs, by decide⟩
  | @obj fields h =>
    cases fields with
    | nil => exact ⟨'{', _, text_obj_nil l hl.unsorted, by decide⟩
    | cons x xs => exact ⟨'{', _, text_obj_cons l hl.unsorted x xs, by decide⟩

theorem member_reads {value : List Char → Option (Json × List Char)} {valueText : Json → List Char}
    (hl : Plain l) {field : String × Json} (h : Reads value valueText field.2) :
    Reads (member value) (memberOf l valueText) field := by
  obtain ⟨⟨c, cs, hc, hopens⟩, hread⟩ := h
  obtain ⟨space, hkey, hspace⟩ := hl.key
  refine ⟨⟨'"', _, rfl, by decide⟩, fun rest hrest => ?_⟩
  have hvalue := hread rest hrest
  have hskip : skipWhite (space ++ (valueText field.2 ++ rest)) = valueText field.2 ++ rest := by
    rw [hc, List.cons_append]
    exact skipWhite_space hspace hopens.1 _
  have htext : memberOf l valueText field ++ rest =
      '"' :: (quotedRest l.ensureAscii field.1 ++
        ':' :: (space ++ (valueText field.2 ++ rest))) := by
    simp [memberOf, hkey]
  rw [htext]
  simp only [member, if_true, scanString_quoted, Option.bind_eq_bind, Option.bind_some,
    skipWhite_opens (show isWhite ':' = false from rfl), hskip, hvalue]

theorem update_distinct (front : Dict) {fields : Dict}
    (h : ((front ++ fields).map Prod.fst).Nodup) : Dict.update front fields = front ++ fields := by
  have hset : ∀ (d : Dict) (kv : String × Json), kv.1 ∉ d.map Prod.fst →
      d.set kv.1 kv.2 = d ++ [kv] := by
    intro d kv hkv
    induction d with
    | nil => rfl
    | cons head rest ih =>
      simp only [List.map_cons, List.mem_cons, not_or] at hkv
      simp [Dict.set, Ne.symm hkv.1, ih hkv.2]
  induction fields generalizing front with
  | nil => simp [Dict.update]
  | cons kv rest ih =>
    have hfresh : kv.1 ∉ front.map Prod.fst := by
      rw [List.map_append, List.nodup_append] at h
      intro hin
      exact h.2.2 _ hin _ (by simp) rfl
    have hrest := ih (front ++ [kv]) (by simpa using h)
    rw [List.append_assoc, List.singleton_append] at hrest
    rw [← hrest, Dict.update, List.foldl_cons, hset front kv hfresh]
    rfl

/-- The reader takes the text of a document off the front of whatever holds it. -/
theorem value_reads (hl : Plain l) {j : Json} (h : Genuine (IsFloat floats) j) :
    ∀ n, (text l j).length ≤ n → Reads (value floats (n + 1)) (text l) j := by
  have hopens : ∀ {j}, Genuine (IsFloat floats) j → ∃ c cs, text l j = c :: cs ∧ Opens c :=
    fun h => text_opens h hl
  induction h with
  | null =>
    intro n _
    refine ⟨hopens .null, fun rest _ => ?_⟩
    exact value_constant (show ("null", Json.null) ∈ constants by simp [constants]) n rest
  | bool b =>
    intro n _
    refine ⟨hopens (.bool b), fun rest _ => ?_⟩
    cases b with
    | true =>
      exact value_constant (show ("true", Json.bool true) ∈ constants by simp [constants]) n rest
    | false =>
      exact value_constant (show ("false", Json.bool false) ∈ constants by simp [constants]) n rest
  | int m =>
    intro n _
    refine ⟨hopens (.int m), fun rest hrest => ?_⟩
    rw [text, dumpsWith]
    exact value_number (number_int m) (parts_int m).1 (parts_int m).2 n hrest
  | @float repr h =>
    intro n _
    refine ⟨hopens (.float h), fun rest hrest => ?_⟩
    rw [text, dumpsWith]
    rcases h with ⟨hliteral, hrepr⟩ | hconstant
    · have hnumber : number floats repr.toList = some (.float repr, []) := by
        rw [number_float hliteral, hrepr]
      exact value_number hnumber hliteral.1.1 hliteral.2 n hrest
    · refine value_constant ?_ n rest
      simp only [List.mem_cons, List.not_mem_nil, or_false] at hconstant
      obtain rfl | rfl | rfl := hconstant <;> simp [constants]
  | str s =>
    intro n _
    refine ⟨hopens (.str s), fun rest _ => ?_⟩
    rw [text, dumpsWith, toList_quote, List.cons_append]
    exact value_string _ s n rest
  | @arr items each ih =>
    intro n hn
    refine ⟨hopens (.arr each), fun rest _ => ?_⟩
    cases items with
    | nil =>
      have hnil : ∀ k, bracketed (value floats n) ']' k (']' :: rest) = some ([], rest) :=
        bracketed_nil rfl
      rw [text_arr_nil]
      simp [value, hnil]
    | cons x xs =>
      have hfurther := further_length (text l) hl xs
      rw [text_arr_cons] at hn
      have hbound : (text l x ++ further l (text l) xs).length + 2 ≤ n := by
        simp only [List.length_cons, List.length_append, List.length_nil] at hn ⊢
        omega
      obtain ⟨m, rfl⟩ : ∃ m, n = m + 1 := ⟨n - 1, by omega⟩
      have hreads : ∀ y ∈ x :: xs, Reads (value floats (m + 1)) (text l) y := by
        intro y hy
        have := mem_length l (text l) hy
        exact ih y hy m (by omega)
      have hbracketed : ∀ k, xs.length < k → bracketed (value floats (m + 1)) ']' k
          (text l x ++ (further l (text l) xs ++ ']' :: rest)) = some (x :: xs, rest) :=
        fun k hk => bracketed_reads hl (.inl rfl) hreads hk
      have hlength : xs.length < (text l x ++ (further l (text l) xs ++ ']' :: rest)).length := by
        simp only [List.length_append, List.length_cons]
        omega
      rw [text_arr_cons]
      simp only [List.cons_append, List.append_assoc, List.nil_append]
      simp only [value, hbracketed _ hlength]
      rfl
  | @obj fields keys values ih =>
    intro n hn
    refine ⟨hopens (.obj keys values), fun rest _ => ?_⟩
    cases fields with
    | nil =>
      have hnil : ∀ k, bracketed (member (value floats n)) '}' k ('}' :: rest) =
          some ([], rest) := bracketed_nil rfl
      rw [text_obj_nil l hl.unsorted]
      simp [value, hnil, Dict.update]
    | cons x xs =>
      have hfurther := further_length (memberText l) hl xs
      rw [text_obj_cons l hl.unsorted] at hn
      have hbound : (memberText l x ++ further l (memberText l) xs).length + 2 ≤ n := by
        simp only [List.length_cons, List.length_append, List.length_nil] at hn ⊢
        omega
      obtain ⟨m, rfl⟩ : ∃ m, n = m + 1 := ⟨n - 1, by omega⟩
      have hreads : ∀ y ∈ x :: xs, Reads (member (value floats (m + 1))) (memberText l) y := by
        intro y hy
        have := mem_length l (memberText l) hy
        have hinner : (text l y.2).length ≤ (memberText l y).length := by
          simp only [memberText, memberOf, List.length_cons, List.length_append]
          omega
        exact member_reads hl (ih y hy m (by omega))
      have hbracketed : ∀ k, xs.length < k → bracketed (member (value floats (m + 1))) '}' k
          (memberText l x ++ (further l (memberText l) xs ++ '}' :: rest)) =
            some (x :: xs, rest) := fun k hk => bracketed_reads hl (.inr rfl) hreads hk
      have hlength : xs.length <
          (memberText l x ++ (further l (memberText l) xs ++ '}' :: rest)).length := by
        simp only [List.length_append, List.length_cons]
        omega
      have hupdate : Dict.update [] (x :: xs) = x :: xs := update_distinct [] keys
      rw [text_obj_cons l hl.unsorted]
      simp only [List.cons_append, List.append_assoc, List.nil_append]
      simp only [value, hbracketed _ hlength, Option.map_some, hupdate]
      rfl

/-- What `json.dumps` has written, `json.loads` reads. -/
theorem loads_dumpsWith (hl : Plain l) {j : Json} (h : Genuine (IsFloat floats) j) :
    loads floats (dumpsWith l j) = some j := by
  have hlength : (text l j).length = (dumpsWith l j).length := String.length_toList
  obtain ⟨⟨c, cs, hc, hopens⟩, hread⟩ := value_reads hl h (dumpsWith l j).length hlength.le
  have hvalue := hread [] (by simp [Stopped])
  rw [List.append_nil] at hvalue
  have hskip : skipWhite (text l j) = text l j := by
    rw [hc]
    exact skipWhite_opens hopens.1 cs
  rw [loads, ← text, hskip, hvalue]
  rfl

end Values

section Genuine

variable {floats : Floats}

theorem sequence_each {α : Type} {item : List Char → Option (α × List Char)} {close : Char}
    {P : α → Prop} (hitem : ∀ cs x rest, item cs = some (x, rest) → P x) {n : Nat} {cs : List Char}
    {xs : List α} {rest : List Char} (h : sequence item close n cs = some (xs, rest)) :
    ∀ x ∈ xs, P x := by
  induction n generalizing cs xs with
  | zero => cases h
  | succ n ih =>
    simp only [sequence, Option.bind_eq_bind, Option.bind_eq_some_iff] at h
    obtain ⟨⟨x, more⟩, hread, h⟩ := h
    have hx := hitem cs x more hread
    dsimp only at h
    split at h
    · cases h
    · split_ifs at h with hclose hcomma
      · cases h
        simpa using hx
      · obtain ⟨⟨ys, rest'⟩, hrest, heq⟩ := Option.bind_eq_some_iff.mp h
        cases heq
        intro y hy
        rcases List.mem_cons.mp hy with rfl | hy
        · exact hx
        · exact ih hrest y hy

theorem bracketed_each {α : Type} {item : List Char → Option (α × List Char)} {close : Char}
    {P : α → Prop} (hitem : ∀ cs x rest, item cs = some (x, rest) → P x) {n : Nat} {cs : List Char}
    {xs : List α} {rest : List Char} (h : bracketed item close n cs = some (xs, rest)) :
    ∀ x ∈ xs, P x := by
  unfold bracketed at h
  split at h
  · cases h
  · split_ifs at h
    · cases h
      simp
    · exact sequence_each hitem h

theorem set_genuine {IsFloat : String → Prop} {d : Dict} (h : Genuine IsFloat (.obj d))
    (key : String) {j : Json} (hj : Genuine IsFloat j) : Genuine IsFloat (.obj (d.set key j)) := by
  obtain ⟨hkeys, hvalues⟩ := genuine_obj_iff.mp h
  rw [genuine_obj_iff]
  have hmem : ∀ (e : Dict) k, k ∈ (e.set key j).map Prod.fst ↔ k = key ∨ k ∈ e.map Prod.fst := by
    intro e k
    induction e with
    | nil => simp [Dict.set]
    | cons kv rest ih =>
      obtain ⟨k', v⟩ := kv
      by_cases hk : k' = key
      · subst hk
        simp [Dict.set]
      · simp only [Dict.set, hk, if_false, List.map_cons, List.mem_cons, ih]
        tauto
  clear h
  induction d with
  | nil => simpa [Dict.set] using hj
  | cons kv rest ih =>
    obtain ⟨k, v⟩ := kv
    by_cases hk : k = key
    · subst hk
      simp only [Dict.set, if_true]
      refine ⟨hkeys, fun kv hkv => ?_⟩
      rcases List.mem_cons.mp hkv with rfl | hkv
      · exact hj
      · exact hvalues kv (List.mem_cons_of_mem _ hkv)
    · rw [List.map_cons, List.nodup_cons] at hkeys
      obtain ⟨hkeys', hvalues'⟩ := ih hkeys.2 fun kv hkv => hvalues kv (List.mem_cons_of_mem _ hkv)
      simp only [Dict.set, hk, if_false]
      refine ⟨?_, fun kv hkv => ?_⟩
      · rw [List.map_cons, List.nodup_cons]
        exact ⟨fun hin => ((hmem rest k).mp hin).elim hk hkeys.1, hkeys'⟩
      · rcases List.mem_cons.mp hkv with rfl | hkv
        · exact hvalues _ List.mem_cons_self
        · exact hvalues' kv hkv

theorem update_genuine {IsFloat : String → Prop} {d more : Dict} (h : Genuine IsFloat (.obj d))
    (hmore : ∀ kv ∈ more, Genuine IsFloat kv.2) : Genuine IsFloat (.obj (d.update more)) := by
  induction more generalizing d with
  | nil => exact h
  | cons kv rest ih =>
    rw [Dict.update, List.foldl_cons]
    exact ih (set_genuine h kv.1 (hmore kv List.mem_cons_self))
      fun kv hkv => hmore kv (List.mem_cons_of_mem _ hkv)

theorem number_genuine {cs rest : List Char} {j : Json} (h : number floats cs = some (j, rest)) :
    Genuine (IsFloat floats) j := by
  unfold number at h
  dsimp only at h
  split_ifs at h with hwhole hpoint
  · cases h
    exact .int _
  · cases h
    refine .float ?_
    rcases floats.settled cs ⟨hwhole, hpoint⟩ with hliteral | hinfinite
    · exact .inl hliteral
    · exact .inr (List.mem_cons_of_mem _ (by simpa using hinfinite))

theorem constant_genuine {cs rest : List Char} {j : Json} (h : constant cs = some (j, rest)) :
    Genuine (IsFloat floats) j := by
  obtain ⟨⟨word, k⟩, hmem, hword⟩ := List.exists_of_findSome?_eq_some h
  obtain ⟨more, -, heq⟩ := Option.map_eq_some_iff.mp hword
  cases heq
  simp only [constants, List.mem_cons, List.not_mem_nil, or_false, Prod.mk.injEq] at hmem
  obtain ⟨-, rfl⟩ | ⟨-, rfl⟩ | ⟨-, rfl⟩ | ⟨-, rfl⟩ | ⟨-, rfl⟩ | ⟨-, rfl⟩ := hmem
  · exact .null
  · exact .bool true
  · exact .bool false
  all_goals exact .float (.inr (by simp))

theorem member_genuine {value : List Char → Option (Json × List Char)} {IsFloat : String → Prop}
    (hvalue : ∀ cs j rest, value cs = some (j, rest) → Genuine IsFloat j) (cs : List Char)
    (field : String × Json) (rest : List Char) (h : member value cs = some (field, rest)) :
    Genuine IsFloat field.2 := by
  cases cs with
  | nil => cases h
  | cons c cs =>
    simp only [member] at h
    split_ifs at h
    obtain ⟨⟨key, more⟩, -, h⟩ := Option.bind_eq_some_iff.mp h
    dsimp only at h
    split at h
    · cases h
    · split_ifs at h
      obtain ⟨⟨j, rest'⟩, hread, heq⟩ := Option.bind_eq_some_iff.mp h
      cases heq
      exact hvalue _ j rest' hread

/-- The objects of what is read have each key once, and its floats are floats. -/
theorem value_genuine (n : Nat) (cs : List Char) (j : Json) (rest : List Char)
    (h : value floats n cs = some (j, rest)) : Genuine (IsFloat floats) j := by
  induction n generalizing cs j rest with
  | zero => cases h
  | succ n ih =>
    cases cs with
    | nil => cases h
    | cons c cs =>
      simp only [value] at h
      split_ifs at h with hquote hbracket hbrace
      · obtain ⟨⟨s, more⟩, -, heq⟩ := Option.map_eq_some_iff.mp h
        cases heq
        exact .str s
      · obtain ⟨⟨items, more⟩, hread, heq⟩ := Option.map_eq_some_iff.mp h
        cases heq
        exact .arr (bracketed_each ih hread)
      · obtain ⟨⟨fields, more⟩, hread, heq⟩ := Option.map_eq_some_iff.mp h
        cases heq
        exact update_genuine genuine_empty (bracketed_each (member_genuine ih) hread)
      · cases hconstant : constant (c :: cs) with
        | none =>
          rw [hconstant] at h
          exact number_genuine h
        | some read =>
          rw [hconstant] at h
          cases h
          exact constant_genuine hconstant

theorem loads_genuine {text : String} {j : Json} (h : loads floats text = some j) :
    Genuine (IsFloat floats) j := by
  obtain ⟨⟨read, rest⟩, hvalue, hend⟩ := Option.bind_eq_some_iff.mp h
  dsimp only at hend
  split_ifs at hend
  cases hend
  exact value_genuine _ _ _ _ hvalue

end Genuine

def Consumes {α : Type} (read : List Char → Option (α × List Char)) : Prop :=
  ∀ cs x rest, read cs = some (x, rest) → rest.length < cs.length

theorem skipWhite_length (cs : List Char) : (skipWhite cs).length ≤ cs.length :=
  (List.dropWhile_sublist _).length_le

theorem codeUnit_consumes : Consumes codeUnit := by
  intro cs unit rest h
  unfold codeUnit at h
  split at h
  · simp only [Option.bind_eq_bind, Option.bind_eq_some_iff] at h
    obtain ⟨_, -, _, -, _, -, _, -, heq⟩ := h
    obtain rfl := (Prod.mk.inj (Option.some.inj heq)).2
    simp only [List.length_cons]
    omega
  · cases h

theorem unicodeCharacter_consumes : Consumes unicodeCharacter := by
  intro cs c rest h
  obtain ⟨⟨unit, more⟩, hunit, h⟩ := Option.bind_eq_some_iff.mp h
  have hmore := codeUnit_consumes cs unit more hunit
  dsimp only at h
  split_ifs at h
  · split at h
    · obtain ⟨⟨low, rest'⟩, hlow, h⟩ := Option.bind_eq_some_iff.mp h
      have hrest := codeUnit_consumes _ low rest' hlow
      dsimp only at h
      split_ifs at h
      obtain rfl := (Prod.mk.inj (Option.some.inj h)).2
      simp only [List.length_cons] at hmore
      omega
    · cases h
  · cases h
    exact hmore

theorem character_consumes : Consumes character := by
  intro cs c rest h
  unfold character at h
  split at h
  · cases h
  · split_ifs at h
    · split at h
      · cases h
      · split_ifs at h
        · have := unicodeCharacter_consumes _ c rest h
          simp only [List.length_cons]
          omega
        · obtain ⟨d, -, heq⟩ := Option.map_eq_some_iff.mp h
          cases heq
          simp only [List.length_cons]
          omega
    · cases h
      simp

theorem stringBody_consumes (n : Nat) : Consumes (stringBody n) := by
  induction n with
  | zero =>
    intro cs s rest h
    cases h
  | succ n ih =>
    intro cs s rest h
    cases cs with
    | nil => cases h
    | cons c cs =>
      simp only [stringBody] at h
      split_ifs at h
      · cases h
        simp
      · obtain ⟨⟨d, more⟩, hcharacter, h⟩ := Option.bind_eq_some_iff.mp h
        obtain ⟨⟨ds, rest'⟩, hbody, heq⟩ := Option.bind_eq_some_iff.mp h
        cases heq
        have hmore := character_consumes _ d more hcharacter
        exact lt_trans (ih more ds rest' hbody) hmore

theorem scanString_consumes : Consumes scanString := by
  intro cs s rest h
  obtain ⟨⟨body, more⟩, hbody, heq⟩ := Option.map_eq_some_iff.mp h
  cases heq
  exact stringBody_consumes _ cs body rest hbody

theorem stringBody_fuel {n m : Nat} {cs : List Char} (hn : cs.length < n) (hm : cs.length < m) :
    stringBody n cs = stringBody m cs := by
  induction n generalizing m cs with
  | zero => omega
  | succ n ih =>
    obtain ⟨m, rfl⟩ : ∃ k, m = k + 1 := ⟨m - 1, by omega⟩
    cases cs with
    | nil => rfl
    | cons c cs =>
      simp only [stringBody]
      split
      · rfl
      · refine Option.bind_congr fun read hread => ?_
        have hlength := character_consumes _ read.1 read.2 hread
        simp only [List.length_cons] at hn hm hlength
        have hrest : stringBody n read.2 = stringBody m read.2 := ih (by omega) (by omega)
        rw [hrest]

section Fuel

variable {floats : Floats}

theorem number_consumes : Consumes (number floats) := by
  intro cs j rest h
  have htext := congrArg List.length (parts_text cs)
  have hlength : (parts cs).whole ≠ [] → (parts cs).rest.length < cs.length := by
    intro hwhole
    have hpos := List.length_pos_of_ne_nil hwhole
    simp only [Parts.text, List.length_append] at htext
    omega
  unfold number at h
  dsimp only at h
  split_ifs at h with hwhole
  all_goals
    cases h
    exact hlength hwhole

theorem constant_consumes : Consumes constant := by
  intro cs j rest h
  obtain ⟨⟨word, k⟩, hmem, hword⟩ := List.exists_of_findSome?_eq_some h
  obtain ⟨more, hbehind, heq⟩ := Option.map_eq_some_iff.mp hword
  cases heq
  have hpos : 0 < word.toList.length := by
    have hall : (constants.all fun entry => decide (0 < entry.1.toList.length)) = true := by decide
    simpa using List.all_eq_true.mp hall _ hmem
  unfold behind at hbehind
  split_ifs at hbehind with hfront
  cases hbehind
  have hle : word.toList <+: cs := by simpa using hfront
  have := hle.length_le
  rw [List.length_drop]
  omega

theorem sequence_consumes {α : Type} {item : List Char → Option (α × List Char)} {close : Char}
    (hitem : Consumes item) (n : Nat) : Consumes (sequence item close n) := by
  induction n with
  | zero =>
    intro cs xs rest h
    cases h
  | succ n ih =>
    intro cs xs rest h
    simp only [sequence, Option.bind_eq_bind, Option.bind_eq_some_iff] at h
    obtain ⟨⟨x, more⟩, hread, h⟩ := h
    have hmore := hitem cs x more hread
    have hskip := skipWhite_length more
    dsimp only at h
    split at h
    · cases h
    · rename_i c behindItem hfound
      rw [hfound] at hskip
      simp only [List.length_cons] at hskip
      split_ifs at h
      · cases h
        omega
      · obtain ⟨⟨ys, rest'⟩, hrest, heq⟩ := Option.bind_eq_some_iff.mp h
        cases heq
        have htail := ih _ ys rest' hrest
        have := skipWhite_length behindItem
        change rest'.length < cs.length
        omega

theorem bracketed_consumes {α : Type} {item : List Char → Option (α × List Char)} {close : Char}
    (hitem : Consumes item) (n : Nat) : Consumes (bracketed item close n) := by
  intro cs xs rest h
  have hskip := skipWhite_length cs
  unfold bracketed at h
  split at h
  · cases h
  · rename_i c more hfound
    rw [hfound] at hskip
    split_ifs at h
    · cases h
      simp only [List.length_cons] at hskip
      omega
    · have := sequence_consumes hitem n _ xs rest h
      omega

theorem member_consumes {value : List Char → Option (Json × List Char)} (hvalue : Consumes value) :
    Consumes (member value) := by
  intro cs field rest h
  cases cs with
  | nil => cases h
  | cons c cs =>
    simp only [member] at h
    split_ifs at h
    obtain ⟨⟨key, more⟩, hkey, h⟩ := Option.bind_eq_some_iff.mp h
    have hmore := scanString_consumes cs key more hkey
    have hskip := skipWhite_length more
    dsimp only at h
    split at h
    · cases h
    · rename_i d behindKey hfound
      rw [hfound] at hskip
      split_ifs at h
      obtain ⟨⟨j, rest'⟩, hread, heq⟩ := Option.bind_eq_some_iff.mp h
      cases heq
      have := hvalue _ j _ hread
      have := skipWhite_length behindKey
      simp only [List.length_cons] at hskip ⊢
      omega

theorem value_consumes (n : Nat) : Consumes (value floats n) := by
  induction n with
  | zero =>
    intro cs j rest h
    cases h
  | succ n ih =>
    intro cs j rest h
    cases cs with
    | nil => cases h
    | cons c cs =>
      simp only [value] at h
      split_ifs at h
      · obtain ⟨⟨s, more⟩, hread, heq⟩ := Option.map_eq_some_iff.mp h
        cases heq
        have := scanString_consumes cs s _ hread
        simp only [List.length_cons]
        omega
      · obtain ⟨⟨items, more⟩, hread, heq⟩ := Option.map_eq_some_iff.mp h
        cases heq
        have := bracketed_consumes ih _ cs items _ hread
        simp only [List.length_cons]
        omega
      · obtain ⟨⟨fields, more⟩, hread, heq⟩ := Option.map_eq_some_iff.mp h
        cases heq
        have := bracketed_consumes (member_consumes ih) _ cs fields _ hread
        simp only [List.length_cons]
        omega
      · cases hconstant : constant (c :: cs) with
        | none =>
          rw [hconstant] at h
          exact number_consumes _ j rest h
        | some read =>
          rw [hconstant] at h
          cases h
          exact constant_consumes _ j rest hconstant

/-- The readers agree on texts of at most `k` characters. -/
def AgreeTo {α : Type} (k : Nat) (read other : List Char → Option (α × List Char)) : Prop :=
  ∀ cs, cs.length ≤ k → read cs = other cs

theorem sequence_agree {α : Type} {item other : List Char → Option (α × List Char)} {close : Char}
    {k : Nat} (hagree : AgreeTo k item other) (hitem : Consumes item) (n : Nat) :
    AgreeTo k (sequence item close n) (sequence other close n) := by
  induction n with
  | zero => exact fun _ _ => rfl
  | succ n ih =>
    intro cs hcs
    simp only [sequence, ← hagree cs hcs]
    refine Option.bind_congr fun read hread => ?_
    have hmore := hitem cs read.1 read.2 hread
    have hskip := skipWhite_length read.2
    split
    · rfl
    · rename_i c more hfound
      rw [hfound] at hskip
      simp only [List.length_cons] at hskip
      have := skipWhite_length more
      rw [ih (skipWhite more) (by omega)]

theorem bracketed_agree {α : Type} {item other : List Char → Option (α × List Char)} {close : Char}
    {k : Nat} (hagree : AgreeTo k item other) (hitem : Consumes item) (n : Nat) :
    AgreeTo k (bracketed item close n) (bracketed other close n) := by
  intro cs hcs
  have hskip := skipWhite_length cs
  unfold bracketed
  split
  · rfl
  · rename_i c more hfound
    rw [hfound] at hskip
    rw [sequence_agree hagree hitem n (c :: more) (by omega)]

theorem member_agree {value other : List Char → Option (Json × List Char)} {k : Nat}
    (hagree : AgreeTo k value other) : AgreeTo k (member value) (member other) := by
  intro cs hcs
  cases cs with
  | nil => rfl
  | cons c cs =>
    simp only [member]
    split
    · refine Option.bind_congr fun read hread => ?_
      have hmore := scanString_consumes cs read.1 read.2 hread
      have hskip := skipWhite_length read.2
      split
      · rfl
      · rename_i d more hfound
        rw [hfound] at hskip
        have := skipWhite_length more
        simp only [List.length_cons] at hskip hcs
        rw [hagree (skipWhite more) (by omega)]
    · rfl

/-- With more fuel than characters the reader never runs out. -/
theorem value_fuel {n m k : Nat} (hn : k < n) (hm : k < m) :
    AgreeTo k (value floats n) (value floats m) := by
  induction k generalizing n m with
  | zero =>
    obtain ⟨n, rfl⟩ : ∃ i, n = i + 1 := ⟨n - 1, by omega⟩
    obtain ⟨m, rfl⟩ : ∃ i, m = i + 1 := ⟨m - 1, by omega⟩
    intro cs hcs
    rw [List.length_eq_zero_iff.mp (by omega : cs.length = 0)]
    rfl
  | succ k ih =>
    obtain ⟨n, rfl⟩ : ∃ i, n = i + 1 := ⟨n - 1, by omega⟩
    obtain ⟨m, rfl⟩ : ∃ i, m = i + 1 := ⟨m - 1, by omega⟩
    have hinner : AgreeTo k (value floats n) (value floats m) := ih (by omega) (by omega)
    intro cs hcs
    cases cs with
    | nil => rfl
    | cons c cs =>
      simp only [List.length_cons, Nat.add_le_add_iff_right] at hcs
      simp only [value]
      rw [bracketed_agree hinner (value_consumes n) _ cs hcs,
        bracketed_agree (member_agree hinner) (member_consumes (value_consumes n)) _ cs hcs]

end Fuel

/-- The libraries with this reader for `json.loads`. -/
def reading (lib : Libraries) (floats : Floats) : Libraries := { lib with loads := loads floats }

theorem readsFloat_iff {lib : Libraries} {floats : Floats} {repr : String} :
    (reading lib floats).loads repr = some (.float repr) ↔ IsFloat floats repr := by
  constructor
  · intro h
    have hgenuine := loads_genuine h
    cases hgenuine with
    | float hfloat => exact hfloat
  · intro h
    have hplain : Plain ⟨",", ":", false, false⟩ := ⟨⟨[], rfl, rfl⟩, ⟨[], rfl, rfl⟩, rfl⟩
    have hback := loads_dumpsWith hplain (.float h)
    rwa [dumpsWith] at hback

end JsonReader
