import Benjamin.IsoOrder

/-!
# Reading timestamps back

`fromisoformat` on the texts that `isoformat` writes of aware UTC values: it gives the
instant that was written, and it gives no other.
-/
namespace IsoReading

open PyBase IsoOrder

def readDigits (digits : List Char) : Int :=
  digits.foldl (fun n c => n * 10 + (c.toNat - 48)) 0

def readField (width : Nat) (text : List Char) : Int × List Char :=
  (readDigits (text.take width), text.drop width)

theorem digitChar_value {n : Nat} (h : n < 10) : ((Nat.digitChar n).toNat : Int) - 48 = n := by
  have hall : ∀ n < 10, (Nat.digitChar n).toNat = n + 48 := by decide
  have hn := hall n h
  omega

theorem readDigits_fixedDigits {width n : Nat} (h : n < 10 ^ width) :
    readDigits (fixedDigits width n) = n := by
  induction width generalizing n with
  | zero =>
    have hzero : n = 0 := by omega
    rw [hzero]
    rfl
  | succ width ih =>
    have hfront : n / 10 < 10 ^ width := by
      rw [Nat.div_lt_iff_lt_mul (by decide)]
      exact h
    have hih := ih hfront
    have hdigit := digitChar_value (Nat.mod_lt n (by decide : 0 < 10))
    rw [readDigits] at hih ⊢
    rw [fixedDigits, List.foldl_append, hih, List.foldl_cons, List.foldl_nil, hdigit]
    omega

theorem readField_padded {width : Nat} {n : Int} (h0 : 0 ≤ n) (hn : n < (10 ^ (width + 1) : Nat))
    (rest : List Char) :
    readField (width + 1) ((padded (width + 1) n).toList ++ rest) = (n, rest) := by
  obtain ⟨m, rfl⟩ := Int.eq_ofNat_of_zero_le h0
  have hm : m < 10 ^ (width + 1) := by exact_mod_cast hn
  have hlength := length_fixedDigits (width + 1) m
  rw [padded_eq hm, readField, List.take_left' hlength, List.drop_left' hlength,
    readDigits_fixedDigits hm]

/-- A date gives back the day it was made from. -/
theorem daysFromCivil_civilFromDays (days : Int) :
    daysFromCivil (civilFromDays days).1 (civilFromDays days).2.1 (civilFromDays days).2.2 =
      days := by
  have hyear := yearOfEra_spec (Int.emod_nonneg (days + 719468) (by decide))
    (Int.emod_lt_of_pos (days + 719468) (by decide))
  have hday := yearDay_range (days + 719468)
  rw [civilFromDays_eq]
  rw [yearDay] at *
  generalize yearOfEra ((days + 719468) % 146097) = year at *
  dsimp only at *
  generalize hdoy : (days + 719468) % 146097 - yearStart year = doy at *
  have hera : (year + (days + 719468) / 146097 * 400) / 400 = (days + 719468) / 146097 := by omega
  have hyearOfEra : (year + (days + 719468) / 146097 * 400) % 400 = year := by omega
  have hmonth : 0 ≤ monthOf doy ∧ monthOf doy ≤ 11 := by
    rw [monthOf]
    omega
  unfold daysFromCivil
  generalize monthOf doy = mp at *
  dsimp only
  by_cases hmarch : mp < 10
  · have hlate : ¬ mp + 3 ≤ 2 := by omega
    have hback : mp + 3 > 2 := by omega
    simp only [if_pos hmarch, if_neg hlate, if_pos hback, Int.add_zero, hera, hyearOfEra]
    rw [yearStart] at hdoy
    omega
  · have hearly : mp - 9 ≤ 2 := by omega
    have hback : ¬ mp - 9 > 2 := by omega
    simp only [if_neg hmarch, if_pos hearly, if_neg hback, Int.add_sub_cancel, hera, hyearOfEra]
    rw [yearStart] at hdoy
    omega

def readFraction : List Char → Int × List Char
  | '.' :: rest => readField 6 rest
  | rest => (0, rest)

/-- The instant in the fields of a timestamp; what stands between them is not looked at. -/
def readInstant (text : List Char) : Int :=
  let year := readField 4 text
  let month := readField 2 (year.2.drop 1)
  let day := readField 2 (month.2.drop 1)
  let hour := readField 2 (day.2.drop 1)
  let minute := readField 2 (hour.2.drop 1)
  let second := readField 2 (minute.2.drop 1)
  daysFromCivil year.1 month.1 day.1 * microsPerDay +
    ((hour.1 * 60 + minute.1) * 60 + second.1) * 1000000 + (readFraction second.2).1

theorem readFraction_text {fraction : Int} (h0 : 0 ≤ fraction) (h1 : fraction < 1000000) :
    (readFraction ((fractionText fraction).toList ++ "+00:00".toList)).1 = fraction := by
  by_cases hzero : fraction = 0
  · subst hzero
    decide
  · have hdot : (fractionText fraction).toList = '.' :: (padded 6 fraction).toList := by
      rw [fractionText, if_neg hzero, String.toList_append]
      rfl
    rw [hdot, List.cons_append, readFraction, readField_padded h0 (by omega)]

theorem readInstant_isoformat {t : Int} (h : InRange t) : readInstant (isoformat t).toList = t := by
  have hdays : -719162 ≤ t / microsPerDay ∧ t / microsPerDay ≤ 2932896 := by
    rw [InRange, minInstant, maxInstant, microsPerDay] at *
    omega
  have htime : 0 ≤ t % microsPerDay ∧ t % microsPerDay < 86400000000 := by
    rw [microsPerDay]
    omega
  have hdate := civil_range hdays.1 hdays.2
  have hcivil := daysFromCivil_civilFromDays (t / microsPerDay)
  have hsplit : t / microsPerDay * microsPerDay + t % microsPerDay = t :=
    Int.ediv_mul_add_emod t microsPerDay
  rw [isoformat_toList]
  generalize civilFromDays (t / microsPerDay) = date at *
  generalize t % microsPerDay = time at *
  rw [readInstant]
  -- Each field is read off, and the separator behind it dropped.
  simp (disch := omega) only [readField_padded, List.drop_succ_cons, List.drop_zero]
  rw [readFraction_text (by omega) (by omega), hcivil]
  omega

/-- `fromisoformat`, which refuses every text that is not a timestamp of this form. -/
def fromIsoformat (text : String) : Option Datetime :=
  if InRange (readInstant text.toList) ∧ isoformat (readInstant text.toList) = text then
    some (.aware (readInstant text.toList))
  else none

theorem fromIsoformat_isoformat {t : Int} (h : InRange t) :
    fromIsoformat (isoformat t) = some (.aware t) := by
  rw [fromIsoformat, readInstant_isoformat h]
  exact if_pos ⟨h, rfl⟩

def ReadsTimestamps (rt : Runtime) : Prop :=
  ∀ t, InRange t → rt.fromisoformat (isoformat t) = some (.aware t)

end IsoReading
