import Mathlib.Data.List.Basic
import Mathlib.Data.List.Infix

/-!
# Base64

The lenient decoder: characters outside of the alphabet are passed over, and the decoder
stops at the padding that completes a group. Both spellings of the last two digits are read.
-/
namespace Base64

def sextet (c : Char) : Option Nat :=
  if c.isUpper then some (c.toNat - 65)
  else if c.isLower then some (c.toNat - 71)
  else if c.isDigit then some (c.toNat + 4)
  else if c = '-' ∨ c = '+' then some 62
  else if c = '_' ∨ c = '/' then some 63
  else none

/-- A group that is left incomplete; `lone` has one character more than so many. -/
inductive Incomplete where
  | lone (characters : Nat)
  | unpadded
  deriving DecidableEq, Repr

/-- The place in the group of four, the bits left over from the last character, and the
padding and the bytes read so far. -/
structure Scan where
  place : Nat
  left : Nat
  pads : Nat
  bytes : List Nat

namespace Scan

def push (s : Scan) (n : Nat) : Scan :=
  match s.place with
  | 0 => ⟨1, n, 0, s.bytes⟩
  | 1 => ⟨2, n % 16, 0, s.bytes ++ [s.left * 4 + n / 16]⟩
  | 2 => ⟨3, n % 4, 0, s.bytes ++ [s.left * 16 + n / 4]⟩
  | _ => ⟨0, 0, 0, s.bytes ++ [s.left * 64 + n]⟩

def finish (s : Scan) : Except Incomplete (List Nat) :=
  if s.place = 0 then .ok s.bytes
  else if s.place = 1 then .error (.lone (s.bytes.length / 3 * 4 + 1))
  else .error .unpadded

/-- The next state, `none` where the padding is complete. It counts from the third place on. -/
def step (s : Scan) (c : Char) : Option Scan :=
  if c = '=' then
    if s.place < 2 then some s
    else if 4 ≤ s.place + (s.pads + 1) then none
    else some { s with pads := s.pads + 1 }
  else
    match sextet c with
    | none => some s
    | some n => some (s.push n)

def run : Scan → List Char → Except Incomplete (List Nat)
  | s, [] => s.finish
  | s, c :: rest =>
    match s.step c with
    | none => .ok s.bytes
    | some s' => run s' rest

end Scan

def start : Scan := ⟨0, 0, 0, []⟩

def decode (text : List Char) : Except Incomplete (List Nat) := start.run text

section Empty

variable {s s' : Scan} {c : Char} {text : List Char}

theorem sextet_pad : sextet '=' = none := by decide

theorem step_sextet {n : Nat} (h : sextet c = some n) : s.step c = some (s.push n) := by
  have hpad : c ≠ '=' := by
    rintro rfl
    cases sextet_pad.symm.trans h
  rw [Scan.step, if_neg hpad, h]

theorem step_other (hplace : s.place < 2) (h : sextet c = none) : s.step c = some s := by
  rw [Scan.step, h]
  split_ifs
  · rfl
  · rfl

theorem bytes_step (h : s.step c = some s') : s.bytes <+: s'.bytes := by
  cases hc : sextet c with
  | some n =>
    rw [step_sextet hc] at h
    cases h
    rw [Scan.push]
    split <;> simp
  | none =>
    rw [Scan.step, hc] at h
    split_ifs at h <;> cases h <;> exact List.prefix_rfl

theorem bytes_run {bytes : List Nat} (h : s.run text = .ok bytes) : s.bytes <+: bytes := by
  induction text generalizing s with
  | nil =>
    rw [Scan.run, Scan.finish] at h
    split_ifs at h
    cases h
    exact List.prefix_rfl
  | cons c rest ih =>
    rw [Scan.run] at h
    cases hstep : s.step c with
    | none =>
      rw [hstep] at h
      cases h
      exact List.prefix_rfl
    | some s' =>
      rw [hstep] at h
      exact (bytes_step hstep).trans (ih h)

theorem run_ne_nil (hplace : s.place = 1) : s.run text ≠ .ok [] := by
  induction text with
  | nil => simp [Scan.run, Scan.finish, hplace]
  | cons c rest ih =>
    rw [Scan.run]
    cases hc : sextet c with
    | none =>
      rw [step_other (by omega) hc]
      exact ih
    | some n =>
      rw [step_sextet hc]
      intro h
      have hbytes := bytes_run h
      simp [Scan.push, hplace] at hbytes

/-- Exactly a text without characters of the alphabet stands for no bytes. -/
theorem decode_nil_iff (text : List Char) :
    decode text = .ok [] ↔ ∀ c ∈ text, sextet c = none := by
  rw [decode]
  induction text with
  | nil => simp [Scan.run, Scan.finish, start]
  | cons c rest ih =>
    rw [Scan.run, List.forall_mem_cons]
    cases hc : sextet c with
    | none =>
      rw [step_other (by decide) hc, and_iff_right rfl]
      exact ih
    | some n =>
      rw [step_sextet hc]
      refine iff_of_false (run_ne_nil rfl) ?_
      simp

end Empty

end Base64
