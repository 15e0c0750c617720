import Mathlib.Data.List.Basic

/-!
# Scanning JSON texts

What any reader of JSON notices before it builds a value: where strings begin and end,
and how deep the brackets nest. The text of an object opens with a brace, and the scan of
the rest closes that brace with the last character and not before.
-/
namespace JsonScan

/-- `closed` is the place after the end of a string. -/
inductive Mode where
  | between | quoted | escaped | closed
  deriving DecidableEq, Repr

structure Scanner where
  depth : Nat
  mode : Mode
  deriving DecidableEq, Repr

def opening (c : Char) : Bool := c ∈ ['{', '[']
def closing (c : Char) : Bool := c ∈ ['}', ']']

def escapes : List Char := ['"', '\\', '/', 'b', 'f', 'n', 'r', 't', 'u']

/-- A character outside strings, within `depth + 1` brackets. -/
def stepOutside (depth : Nat) (c : Char) : Scanner :=
  if c = '"' then ⟨depth + 1, .quoted⟩
  else if opening c then ⟨depth + 2, .between⟩
  else if closing c then ⟨depth, .between⟩
  else ⟨depth + 1, .between⟩

/-- One character; nothing may follow the last closing bracket, no letter and no second
string the end of a string. -/
def step (s : Scanner) (c : Char) : Option Scanner :=
  match s.depth, s.mode with
  | 0, _ => none
  | depth + 1, .quoted =>
    if c = '"' then some ⟨depth + 1, .closed⟩
    else if c = '\\' then some ⟨depth + 1, .escaped⟩
    else some ⟨depth + 1, .quoted⟩
  | depth + 1, .escaped => if c ∈ escapes then some ⟨depth + 1, .quoted⟩ else none
  | depth + 1, .closed => if c.isAlpha ∨ c = '"' then none else some (stepOutside depth c)
  | depth + 1, .between => some (stepOutside depth c)

def scan (s : Scanner) : List Char → Option Scanner
  | [] => some s
  | c :: cs => (step s c).bind fun next => scan next cs

def ObjectText (text : String) : Prop :=
  match text.toList with
  | '{' :: rest => (scan ⟨1, .between⟩ rest).map Scanner.depth = some 0
  | _ => False

instance (text : String) : Decidable (ObjectText text) := by
  rw [ObjectText]
  split <;> infer_instance

example : ObjectText r#"{"a": [1, "}"]}"# := by decide

theorem objectText_iff {text : String} : ObjectText text ↔ ∃ rest mode,
    text.toList = '{' :: rest ∧ scan ⟨1, .between⟩ rest = some ⟨0, mode⟩ := by
  rw [ObjectText]
  constructor
  · intro h
    split at h
    · rename_i rest hrest
      obtain ⟨s, hscan, hdepth⟩ := Option.map_eq_some_iff.mp h
      refine ⟨rest, s.mode, hrest, ?_⟩
      rw [hscan, ← hdepth]
    · exact h.elim
  · rintro ⟨rest, mode, hrest, hscan⟩
    rw [hrest]
    simp [hscan]

theorem scan_append (s : Scanner) (xs ys : List Char) :
    scan s (xs ++ ys) = (scan s xs).bind fun next => scan next ys := by
  induction xs generalizing s with
  | nil => rfl
  | cons x rest ih =>
    rw [List.cons_append, scan, scan]
    cases step s x with
    | none => rfl
    | some next => exact ih next

theorem scan_finished (mode : Mode) (c : Char) (cs : List Char) :
    scan ⟨0, mode⟩ (c :: cs) = none := rfl

/-- What is scanned inside more brackets stays inside them. -/
def Scanner.under (s : Scanner) (k : Nat) : Scanner := { s with depth := s.depth + k }

theorem stepOutside_under (depth k : Nat) (c : Char) :
    stepOutside (depth + k) c = (stepOutside depth c).under k := by
  unfold stepOutside Scanner.under
  split_ifs
  · simp; omega
  · simp; omega
  · rfl
  · simp; omega

theorem step_under {s s' : Scanner} {c : Char} (h : step s c = some s') (k : Nat) :
    step (s.under k) c = some (s'.under k) := by
  obtain ⟨depth, mode⟩ := s
  cases depth with
  | zero => cases h
  | succ depth =>
    have hdepth : (Scanner.under ⟨depth + 1, mode⟩ k) = ⟨depth + k + 1, mode⟩ := by
      simp [Scanner.under]
      omega
    rw [hdepth]
    cases mode with
    | between =>
      cases h
      exact congrArg some (stepOutside_under depth k c)
    | quoted =>
      simp only [step] at h ⊢
      split_ifs at h ⊢ <;> cases h <;> simp [Scanner.under] <;> omega
    | escaped =>
      simp only [step] at h ⊢
      split_ifs at h ⊢
      cases h
      simp [Scanner.under]
      omega
    | closed =>
      simp only [step] at h ⊢
      split_ifs at h ⊢
      cases h
      exact congrArg some (stepOutside_under depth k c)

theorem scan_under {s s' : Scanner} {cs : List Char} (h : scan s cs = some s') (k : Nat) :
    scan (s.under k) cs = some (s'.under k) := by
  induction cs generalizing s with
  | nil =>
    cases h
    rfl
  | cons c rest ih =>
    rw [scan] at h ⊢
    obtain ⟨next, hstep, hrest⟩ := Option.bind_eq_some_iff.mp h
    rw [step_under hstep k]
    exact ih hrest

/-- The text opens with the name of its first field, and the name with a letter. -/
def Named (text : String) : Prop :=
  ∃ letter rest, letter.isAlpha = true ∧ text.toList = '{' :: '"' :: letter :: rest

/-- No object's text ends in the text of another one. Outside strings the first brace is
still open at its end; inside a string its own first quote ends the string. -/
theorem not_objectText_append {front text : String} (htext : ObjectText text) (hnamed : Named text)
    (hfront : front ≠ "") : ¬ ObjectText (front ++ text) := by
  intro hwhole
  obtain ⟨c, cs, hcs⟩ := List.exists_cons_of_ne_nil (mt String.toList_eq_nil_iff.mp hfront)
  obtain ⟨inner, mode, hinner, hscan⟩ := objectText_iff.mp htext
  obtain ⟨letter, rest, hletter, hopen⟩ := hnamed
  obtain ⟨whole, mode', hopened, hclosed⟩ := objectText_iff.mp hwhole
  rw [String.toList_append, hcs, List.cons_append] at hopened
  obtain ⟨rfl, rfl⟩ := List.cons.inj hopened
  rw [scan_append] at hclosed
  obtain ⟨⟨depth, before⟩, -, hafter⟩ := Option.bind_eq_some_iff.mp hclosed
  cases depth with
  | zero =>
    rw [hopen, scan_finished] at hafter
    cases hafter
  | succ depth =>
    have hnested : scan ⟨depth + 2, .between⟩ inner = some ⟨depth + 1, mode⟩ := by
      have h := scan_under hscan (depth + 1)
      rwa [show Scanner.under ⟨1, .between⟩ (depth + 1) = ⟨depth + 2, .between⟩ by
        simp [Scanner.under]; omega, show Scanner.under ⟨0, mode⟩ (depth + 1) =
          ⟨depth + 1, mode⟩ by simp [Scanner.under]] at h
    cases before with
    | between =>
      rw [hinner, scan] at hafter
      have hbrace : step ⟨depth + 1, .between⟩ '{' = some ⟨depth + 2, .between⟩ := rfl
      rw [hbrace, Option.bind_some, hnested] at hafter
      cases hafter
    | closed =>
      rw [hinner, scan] at hafter
      have hbrace : step ⟨depth + 1, .closed⟩ '{' = some ⟨depth + 2, .between⟩ := rfl
      rw [hbrace, Option.bind_some, hnested] at hafter
      cases hafter
    | quoted =>
      have hquoted : step ⟨depth + 1, .quoted⟩ '{' = some ⟨depth + 1, .quoted⟩ := rfl
      have hquote : step ⟨depth + 1, .quoted⟩ '"' = some ⟨depth + 1, .closed⟩ := rfl
      have hstop : step ⟨depth + 1, .closed⟩ letter = none := if_pos (Or.inl hletter)
      rw [hopen, scan, hquoted, Option.bind_some, scan, hquote, Option.bind_some, scan,
        hstop] at hafter
      cases hafter
    | escaped =>
      have hstop : step ⟨depth + 1, .escaped⟩ '{' = none := rfl
      rw [hopen, scan, hstop] at hafter
      cases hafter

def Mode.Resting (mode : Mode) : Prop := mode = .between ∨ mode = .closed

/-- Within brackets the text ends at the depth at which it began, outside strings. -/
def Balanced (cs : List Char) : Prop :=
  ∀ depth, ∃ mode : Mode, mode.Resting ∧ scan ⟨depth + 1, .between⟩ cs = some ⟨depth + 1, mode⟩

theorem balanced_nil : Balanced [] := fun _ => ⟨.between, .inl rfl, rfl⟩

theorem step_resting {mode : Mode} (h : mode.Resting) {c : Char} (hletter : c.isAlpha = false)
    (hquote : c ≠ '"') (depth : Nat) : step ⟨depth + 1, mode⟩ c = some (stepOutside depth c) := by
  rcases h with rfl | rfl
  · rfl
  · have hplain : ¬ (c.isAlpha = true ∨ c = '"') := by simp [hletter, hquote]
    exact if_neg hplain

def wordChar (c : Char) : Bool := c != '"' && !opening c && !closing c

theorem scan_word {cs : List Char} (h : ∀ c ∈ cs, wordChar c = true) (depth : Nat) :
    scan ⟨depth + 1, .between⟩ cs = some ⟨depth + 1, .between⟩ := by
  induction cs with
  | nil => rfl
  | cons c rest ih =>
    have hword := h c List.mem_cons_self
    simp only [wordChar, Bool.and_eq_true, bne_iff_ne, Bool.not_eq_true'] at hword
    obtain ⟨⟨hquote, hopening⟩, hclosing⟩ := hword
    have hstep : step ⟨depth + 1, .between⟩ c = some ⟨depth + 1, .between⟩ := by
      simp [step, stepOutside, hquote, hopening, hclosing]
    rw [scan, hstep]
    exact ih fun d hd => h d (List.mem_cons_of_mem _ hd)

theorem balanced_word {cs : List Char} (h : ∀ c ∈ cs, wordChar c = true) : Balanced cs :=
  fun depth => ⟨.between, .inl rfl, scan_word h depth⟩

theorem Balanced.around {front back : List Char} (hfront : Balanced front) (hback : Balanced back)
    {c : Char} (hc : c = ',' ∨ c = ':') : Balanced (front ++ c :: back) := by
  intro depth
  obtain ⟨mode, hresting, hscan⟩ := hfront depth
  obtain ⟨mode', hresting', hscan'⟩ := hback depth
  have hstep : step ⟨depth + 1, mode⟩ c = some ⟨depth + 1, .between⟩ := by
    rcases hc with rfl | rfl
    · exact step_resting hresting (by decide) (by decide) depth
    · exact step_resting hresting (by decide) (by decide) depth
  refine ⟨mode', hresting', ?_⟩
  rw [scan_append, hscan, Option.bind_some, scan, hstep]
  exact hscan'

theorem Balanced.closed {inner : List Char} (h : Balanced inner) {close : Char}
    (hclose : close = '}' ∨ close = ']') (depth : Nat) :
    scan ⟨depth + 1, .between⟩ (inner ++ [close]) = some ⟨depth, .between⟩ := by
  obtain ⟨mode, hresting, hscan⟩ := h depth
  have hstep : step ⟨depth + 1, mode⟩ close = some ⟨depth, .between⟩ := by
    rcases hclose with rfl | rfl
    · exact step_resting hresting (by decide) (by decide) depth
    · exact step_resting hresting (by decide) (by decide) depth
  rw [scan_append, hscan, Option.bind_some, scan, hstep]
  rfl

theorem Balanced.enclosed {inner : List Char} (h : Balanced inner) {start close : Char}
    (hstart : start = '{' ∨ start = '[') (hclose : close = '}' ∨ close = ']') :
    Balanced (start :: (inner ++ [close])) := by
  intro depth
  have hstep : step ⟨depth + 1, .between⟩ start = some ⟨depth + 2, .between⟩ := by
    rcases hstart with rfl | rfl
    · rfl
    · rfl
  refine ⟨.between, .inl rfl, ?_⟩
  rw [scan, hstep, Option.bind_some]
  exact h.closed hclose (depth + 1)

theorem Balanced.objectText {inner : List Char} (h : Balanced inner) {text : String}
    (htext : text.toList = '{' :: (inner ++ ['}'])) : ObjectText text :=
  objectText_iff.mpr ⟨_, .between, htext, h.closed (.inl rfl) 0⟩

end JsonScan
