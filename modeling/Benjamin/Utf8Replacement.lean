import Mathlib.Data.List.Basic

/-!
# UTF-8 with replacement

The decoder that puts `U+FFFD` for every longest piece that begins a character and does not
end one, and for every byte that begins none.
-/
namespace Utf8Replacement

/-- A character that has begun: the bytes that are missing, the bits so far and the range of
the next byte. -/
structure Begun where
  missing : Nat
  bits : Nat
  least : Nat
  most : Nat

def replacement : Char := Char.ofNat 0xFFFD

/-- A range of first bytes: the bytes that follow, the marker of the first byte and the range
of the second one. -/
structure Lead where
  least : Nat
  most : Nat
  following : Nat
  marker : Nat
  nextLeast : Nat
  nextMost : Nat

def leads : List Lead :=
  [⟨0xC2, 0xDF, 1, 0xC0, 0x80, 0xBF⟩,
    ⟨0xE0, 0xE0, 2, 0xE0, 0xA0, 0xBF⟩, ⟨0xE1, 0xEC, 2, 0xE0, 0x80, 0xBF⟩,
    ⟨0xED, 0xED, 2, 0xE0, 0x80, 0x9F⟩, ⟨0xEE, 0xEF, 2, 0xE0, 0x80, 0xBF⟩,
    ⟨0xF0, 0xF0, 3, 0xF0, 0x90, 0xBF⟩, ⟨0xF1, 0xF3, 3, 0xF0, 0x80, 0xBF⟩,
    ⟨0xF4, 0xF4, 3, 0xF0, 0x80, 0x8F⟩]

def first (b : Nat) : List Char × Option Begun :=
  if b < 0x80 then ([Char.ofNat b], none)
  else
    match leads.find? fun lead => lead.least ≤ b ∧ b ≤ lead.most with
    | some lead =>
      ([], some ⟨lead.following, b - lead.marker, lead.nextLeast, lead.nextMost⟩)
    | none => ([replacement], none)

def step : Option Begun → Nat → List Char × Option Begun
  | none, b => first b
  | some p, b =>
    if p.least ≤ b ∧ b ≤ p.most then
      if p.missing = 1 then ([Char.ofNat (p.bits * 64 + (b - 0x80))], none)
      else ([], some ⟨p.missing - 1, p.bits * 64 + (b - 0x80), 0x80, 0xBF⟩)
    else (replacement :: (first b).1, (first b).2)

def decodeFrom : Option Begun → List Nat → List Char
  | none, [] => []
  | some _, [] => [replacement]
  | state, b :: rest => (step state b).1 ++ decodeFrom (step state b).2 rest

/-- `bytes.decode("utf-8", errors="replace")`. -/
def decode (bytes : List Nat) : List Char := decodeFrom none bytes

example : decode [0x68, 0xE2, 0x82, 0xAC, 0xE2, 0x82, 0xFF] =
    ['h', '€', replacement, replacement] := by decide

/-- No byte is lost: it ends a character, begins one or is replaced. -/
theorem first_cases (b : Nat) : (first b).1 ≠ [] ∨ ∃ p, (first b).2 = some p := by
  rw [first]
  by_cases hascii : b < 0x80
  · rw [if_pos hascii]
    exact .inl (List.cons_ne_nil _ _)
  · rw [if_neg hascii]
    cases leads.find? fun lead => lead.least ≤ b ∧ b ≤ lead.most with
    | some lead => exact .inr ⟨_, rfl⟩
    | none => exact .inl (List.cons_ne_nil _ _)

theorem step_cases (state : Option Begun) (b : Nat) :
    (step state b).1 ≠ [] ∨ ∃ p, (step state b).2 = some p := by
  cases state with
  | none => exact first_cases b
  | some p =>
    rw [step]
    by_cases hnext : p.least ≤ b ∧ b ≤ p.most
    · rw [if_pos hnext]
      by_cases hlast : p.missing = 1
      · rw [if_pos hlast]
        exact .inl (List.cons_ne_nil _ _)
      · rw [if_neg hlast]
        exact .inr ⟨_, rfl⟩
    · rw [if_neg hnext]
      exact .inl (List.cons_ne_nil _ _)

theorem decodeFrom_begun (p : Begun) (bytes : List Nat) : decodeFrom (some p) bytes ≠ [] := by
  induction bytes generalizing p with
  | nil => simp [decodeFrom]
  | cons b rest ih =>
    rw [decodeFrom]
    rcases step_cases (some p) b with hout | ⟨p', hp'⟩
    · simp [hout]
    · simp [hp', ih p']

theorem decode_nil_iff (bytes : List Nat) : decode bytes = [] ↔ bytes = [] := by
  constructor
  · intro h
    cases bytes with
    | nil => rfl
    | cons b rest =>
      rw [decode, decodeFrom, List.append_eq_nil_iff] at h
      rcases step_cases none b with hout | ⟨p, hp⟩
      · exact absurd h.1 hout
      · rw [hp] at h
        exact absurd h.2 (decodeFrom_begun p rest)
  · rintro rfl
    rfl

end Utf8Replacement
