import Benjamin.PyJson

/-!
# The order of ISO timestamps

`isoformat` writes the fields of an instant from the year on, each with a fixed number of
digits; only the microseconds are left out when they are zero, and then a `+` stands
where they would have a `.`. So the texts are in the order of the instants.
-/
namespace IsoOrder

open PyBase

/-- The last `width` decimal digits of a number. -/
def fixedDigits : Nat → Nat → List Char
  | 0, _ => []
  | width + 1, n => fixedDigits width (n / 10) ++ [Nat.digitChar (n % 10)]

theorem length_fixedDigits (width n : Nat) : (fixedDigits width n).length = width := by
  induction width generalizing n with
  | zero => rfl
  | succ width ih => rw [fixedDigits, List.length_append, ih, List.length_singleton]

theorem fixedDigits_eq {width n : Nat} (h : n < 10 ^ (width + 1)) :
    List.replicate (width + 1 - (Nat.toDigits 10 n).length) '0' ++ Nat.toDigits 10 n =
      fixedDigits (width + 1) n := by
  induction width generalizing n with
  | zero =>
    have hsmall : n < 10 := by omega
    rw [Nat.toDigits_of_lt_base hsmall, fixedDigits, Nat.mod_eq_of_lt hsmall]
    rfl
  | succ width ih =>
    have hfront : n / 10 < 10 ^ (width + 1) := by
      rw [Nat.div_lt_iff_lt_mul (by decide)]
      exact h
    have hih := ih hfront
    rw [fixedDigits, ← hih]
    by_cases hsmall : n < 10
    · rw [Nat.div_eq_of_lt hsmall, Nat.mod_eq_of_lt hsmall, Nat.toDigits_of_lt_base hsmall,
        Nat.toDigits_zero]
      simp only [List.length_singleton, Nat.add_sub_cancel]
      rw [List.replicate_succ']
    · rw [Nat.toDigits_of_base_le (n := n) (by decide) (by omega), List.length_append,
        List.length_singleton, Nat.add_sub_add_right, List.append_assoc]

theorem padded_eq {width n : Nat} (h : n < 10 ^ (width + 1)) :
    (padded (width + 1) (n : Int)).toList = fixedDigits (width + 1) n := by
  rw [padded, Int.toNat_natCast, Nat.toString_eq_ofList_toDigits, String.toList_ofList,
    String.toList_ofList, String.length_ofList]
  exact fixedDigits_eq h

theorem digitChar_lt {a b : Nat} (hab : a < b) (hb : b < 10) :
    Nat.digitChar a < Nat.digitChar b := by
  have hall : ∀ b < 10, ∀ a < b, Nat.digitChar a < Nat.digitChar b := by decide
  exact hall b hb a hab

theorem append_lt_append {xs ys : List Char} (h : xs < ys) (hlength : xs.length = ys.length)
    (s t : List Char) : xs ++ s < ys ++ t := by
  induction xs generalizing ys with
  | nil =>
    cases ys with
    | nil => exact absurd h (List.not_lt_nil [])
    | cons y ys => cases hlength
  | cons x xs ih =>
    cases ys with
    | nil => cases hlength
    | cons y ys =>
      rw [List.cons_append, List.cons_append, List.cons_lt_cons_iff]
      rcases List.cons_lt_cons_iff.mp h with hxy | ⟨hxy, htail⟩
      · exact Or.inl hxy
      · exact Or.inr ⟨hxy, ih htail (Nat.succ.inj hlength)⟩

theorem fixedDigits_lt {width a b : Nat} (hab : a < b) (hb : b < 10 ^ width) :
    fixedDigits width a < fixedDigits width b := by
  induction width generalizing a b with
  | zero => omega
  | succ width ih =>
    rw [fixedDigits, fixedDigits]
    have hfront : b / 10 < 10 ^ width := by
      rw [Nat.div_lt_iff_lt_mul (by decide)]
      exact hb
    rcases Nat.lt_or_ge (a / 10) (b / 10) with hlt | hge
    · exact append_lt_append (ih hlt hfront)
        ((length_fixedDigits _ _).trans (length_fixedDigits _ _).symm) _ _
    · have hsame : a / 10 = b / 10 := by omega
      rw [hsame]
      refine List.append_left_lt (List.cons_lt_cons_iff.mpr (Or.inl ?_))
      exact digitChar_lt (by omega) (Nat.mod_lt _ (by decide))

section Fields

variable {width : Nat} {a b : Int} {xs ys : List Char}

theorem field_lt (ha : 0 ≤ a) (hab : a < b) (hb : b < (10 ^ (width + 1) : Nat))
    (xs ys : List Char) :
    (padded (width + 1) a).toList ++ xs < (padded (width + 1) b).toList ++ ys := by
  obtain ⟨m, rfl⟩ := Int.eq_ofNat_of_zero_le ha
  obtain ⟨n, rfl⟩ := Int.eq_ofNat_of_zero_le (by omega : 0 ≤ b)
  have hn : n < 10 ^ (width + 1) := by exact_mod_cast hb
  have hmn : m < n := by exact_mod_cast hab
  rw [padded_eq hn, padded_eq (hmn.trans hn)]
  exact append_lt_append (fixedDigits_lt hmn hn)
    ((length_fixedDigits _ _).trans (length_fixedDigits _ _).symm) xs ys

theorem fields_lt (ha : 0 ≤ a) (hb : b < (10 ^ (width + 1) : Nat)) (h : a < b ∨ a = b ∧ xs < ys) :
    (padded (width + 1) a).toList ++ xs < (padded (width + 1) b).toList ++ ys := by
  rcases h with hab | ⟨rfl, htail⟩
  · exact field_lt ha hab hb xs ys
  · exact List.append_left_lt htail

end Fields

def yearStart (year : Int) : Int := 365 * year + year / 4 - year / 100

def yearOfEra (doe : Int) : Int := (doe - doe / 1460 + doe / 36524 - doe / 146096) / 365

theorem yearOfEra_spec {doe : Int} (h0 : 0 ≤ doe) (h1 : doe < 146097) :
    0 ≤ yearOfEra doe ∧ yearOfEra doe ≤ 399 ∧ yearStart (yearOfEra doe) ≤ doe ∧
      doe ≤ yearStart (yearOfEra doe) + 365 := by
  rw [yearStart, yearOfEra]
  by_cases hlast : doe = 146096
  · subst hlast
    decide
  · have hcentury : doe / 36524 = 0 ∨ doe / 36524 = 1 ∨ doe / 36524 = 2 ∨
        doe / 36524 = 3 := by omega
    have hera : doe / 146096 = 0 := by omega
    rw [hera, Int.sub_zero]
    generalize hyear : (doe - doe / 1460 + doe / 36524) / 365 = year
    have hq : year / 100 = doe / 36524 := by
      rcases hcentury with hc | hc | hc | hc <;> rw [hc] at hyear ⊢ <;> omega
    omega

theorem yearStart_lt {a b : Int} (h : a < b) : yearStart a + 365 ≤ yearStart b := by
  unfold yearStart
  omega

/-- The year, counted from March, and its day, both from 0. -/
def yearDay (z : Int) : Int × Int :=
  (yearOfEra (z % 146097) + z / 146097 * 400,
    z % 146097 - yearStart (yearOfEra (z % 146097)))

theorem yearDay_range (z : Int) : 0 ≤ (yearDay z).2 ∧ (yearDay z).2 ≤ 365 := by
  have hz := yearOfEra_spec (Int.emod_nonneg z (by decide)) (Int.emod_lt_of_pos z (by decide))
  rw [yearDay]
  dsimp only
  omega

theorem yearDay_lt {a b : Int} (h : a < b) : (yearDay a).1 < (yearDay b).1 ∨
    (yearDay a).1 = (yearDay b).1 ∧ (yearDay a).2 < (yearDay b).2 := by
  have ha := yearOfEra_spec (Int.emod_nonneg a (by decide)) (Int.emod_lt_of_pos a (by decide))
  have hb := yearOfEra_spec (Int.emod_nonneg b (by decide)) (Int.emod_lt_of_pos b (by decide))
  unfold yearDay
  dsimp only
  by_cases hera : a / 146097 = b / 146097
  · have hdoe : a % 146097 < b % 146097 := by omega
    rcases Int.lt_trichotomy (yearOfEra (a % 146097)) (yearOfEra (b % 146097)) with hlt | heq | hgt
    · left; omega
    · right
      rw [heq, hera]
      omega
    · have := yearStart_lt hgt
      omega
  · left
    omega

def monthOf (doy : Int) : Int := (5 * doy + 2) / 153

theorem civilFromDays_eq (days : Int) : civilFromDays days =
    let year := yearDay (days + 719468)
    let mp := monthOf year.2
    let m := if mp < 10 then mp + 3 else mp - 9
    (year.1 + (if m ≤ 2 then 1 else 0), m, year.2 - (153 * mp + 2) / 5 + 1) := rfl

theorem civil_lt {a b : Int} (h : a < b) : (civilFromDays a).1 < (civilFromDays b).1 ∨
    (civilFromDays a).1 = (civilFromDays b).1 ∧
      ((civilFromDays a).2.1 < (civilFromDays b).2.1 ∨
        (civilFromDays a).2.1 = (civilFromDays b).2.1 ∧
          (civilFromDays a).2.2 < (civilFromDays b).2.2) := by
  have hday := yearDay_lt (by omega : a + 719468 < b + 719468)
  have ha := yearDay_range (a + 719468)
  have hb := yearDay_range (b + 719468)
  rw [civilFromDays_eq, civilFromDays_eq]
  generalize yearDay (a + 719468) = p at *
  generalize yearDay (b + 719468) = q at *
  obtain ⟨Y, doy⟩ := p
  obtain ⟨Y', doy'⟩ := q
  simp only [monthOf] at *
  omega

theorem civil_range {days : Int} (h0 : -719162 ≤ days) (h1 : days ≤ 2932896) :
    0 ≤ (civilFromDays days).1 ∧ (civilFromDays days).1 < 10000 ∧ 0 ≤ (civilFromDays days).2.1 ∧
      (civilFromDays days).2.1 < 100 ∧ 0 ≤ (civilFromDays days).2.2 ∧
      (civilFromDays days).2.2 < 100 := by
  have hfirst : civilFromDays (-719162) = (1, 1, 1) := by decide
  have hlast : civilFromDays 2932896 = (9999, 12, 31) := by decide
  have hyear : 1 ≤ (civilFromDays days).1 ∧ (civilFromDays days).1 ≤ 9999 := by
    constructor
    · rcases Int.lt_or_eq_of_le h0 with hlt | rfl
      · have hcivil := civil_lt hlt
        rw [hfirst] at hcivil
        omega
      · rw [hfirst]
    · rcases Int.lt_or_eq_of_le h1 with hlt | rfl
      · have hcivil := civil_lt hlt
        rw [hlast] at hcivil
        omega
      · rw [hlast]
  have hday := yearDay_range (days + 719468)
  refine ⟨by omega, by omega, ?_⟩
  rw [civilFromDays_eq]
  generalize yearDay (days + 719468) = p at *
  obtain ⟨year, doy⟩ := p
  simp only [monthOf] at *
  omega

def fractionText (fraction : Int) : String := if fraction = 0 then "" else "." ++ padded 6 fraction

/-- No fraction comes before any, since `+` comes before `.`. -/
theorem fraction_lt {a b : Int} (ha : 0 ≤ a) (hab : a < b) (hb : b < 1000000) :
    (fractionText a).toList ++ "+00:00".toList < (fractionText b).toList ++ "+00:00".toList := by
  have hdot : (fractionText b).toList = '.' :: (padded 6 b).toList := by
    rw [fractionText, if_neg (by omega), String.toList_append]
    rfl
  rw [hdot]
  by_cases hzero : a = 0
  · subst hzero
    exact List.cons_lt_cons_iff.mpr (Or.inl (by decide))
  · rw [fractionText, if_neg hzero, String.toList_append]
    refine List.cons_lt_cons_iff.mpr (Or.inr ⟨rfl, ?_⟩)
    exact field_lt ha hab (by omega) _ _

theorem isoformat_toList (t : Int) : (isoformat t).toList =
    (padded 4 (civilFromDays (t / microsPerDay)).1).toList ++ '-' ::
      ((padded 2 (civilFromDays (t / microsPerDay)).2.1).toList ++ '-' ::
        ((padded 2 (civilFromDays (t / microsPerDay)).2.2).toList ++ 'T' ::
          ((padded 2 (t % microsPerDay / 1000000 / 3600)).toList ++ ':' ::
            ((padded 2 (t % microsPerDay / 1000000 / 60 % 60)).toList ++ ':' ::
              ((padded 2 (t % microsPerDay / 1000000 % 60)).toList ++
                ((fractionText (t % microsPerDay % 1000000)).toList ++ "+00:00".toList)))))) := by
  have hdash : "-".toList = ['-'] := rfl
  have htee : "T".toList = ['T'] := rfl
  have hcolon : ":".toList = [':'] := rfl
  simp only [isoformat, fractionText, String.toList_append, List.append_assoc, hdash, htee, hcolon,
    List.cons_append, List.nil_append]

theorem isoformat_lt {t u : Int} (ht : InRange t) (hu : InRange u) (h : t < u) :
    isoformat t < isoformat u := by
  have hcons : ∀ {c : Char} {xs ys : List Char}, xs < ys → c :: xs < c :: ys :=
    fun hlt => List.cons_lt_cons_iff.mpr (Or.inr ⟨rfl, hlt⟩)
  rw [String.lt_iff_toList_lt, isoformat_toList, isoformat_toList]
  have htdays : -719162 ≤ t / microsPerDay ∧ t / microsPerDay ≤ 2932896 := by
    rw [InRange, minInstant, maxInstant, microsPerDay] at *
    omega
  have hudays : -719162 ≤ u / microsPerDay ∧ u / microsPerDay ≤ 2932896 := by
    rw [InRange, minInstant, maxInstant, microsPerDay] at *
    omega
  have htdate := civil_range htdays.1 htdays.2
  have hudate := civil_range hudays.1 hudays.2
  have hrest : t / microsPerDay < u / microsPerDay ∨ t / microsPerDay = u / microsPerDay ∧
      t % microsPerDay < u % microsPerDay := by
    rw [microsPerDay]
    omega
  have hlimit : ∀ n : Int, 0 ≤ n % microsPerDay ∧ n % microsPerDay < 86400000000 := by
    intro n
    rw [microsPerDay]
    omega
  have htlimit := hlimit t
  have hulimit := hlimit u
  rcases hrest with hdays | ⟨hdays, htime⟩
  · -- The dates differ.
    have hcivil := civil_lt hdays
    refine fields_lt (by omega) (by omega) ?_
    rcases hcivil with hyear | ⟨hyear, hcivil⟩
    · exact Or.inl hyear
    refine Or.inr ⟨hyear, hcons (fields_lt (by omega) (by omega) ?_)⟩
    rcases hcivil with hmonth | ⟨hmonth, hday⟩
    · exact Or.inl hmonth
    exact Or.inr ⟨hmonth, hcons (field_lt (by omega) hday (by omega) _ _)⟩
  · -- The same date; a field of the time is the first that differs.
    rw [hdays]
    generalize t % microsPerDay = a at *
    generalize u % microsPerDay = b at *
    refine List.append_left_lt (hcons (List.append_left_lt (hcons (List.append_left_lt
      (hcons (fields_lt (by omega) (by omega) ?_))))))
    by_cases hhour : a / 1000000 / 3600 < b / 1000000 / 3600
    · exact Or.inl hhour
    refine Or.inr ⟨by omega, hcons (fields_lt (by omega) (by omega) ?_)⟩
    by_cases hminute : a / 1000000 / 60 % 60 < b / 1000000 / 60 % 60
    · exact Or.inl hminute
    refine Or.inr ⟨by omega, hcons (fields_lt (by omega) (by omega) ?_)⟩
    by_cases hsecond : a / 1000000 % 60 < b / 1000000 % 60
    · exact Or.inl hsecond
    exact Or.inr ⟨by omega, fraction_lt (by omega) (by omega) (by omega)⟩

/-- Timestamps are in the order of their instants. -/
theorem isoformat_le_iff {t u : Int} (ht : InRange t) (hu : InRange u) :
    isoformat t ≤ isoformat u ↔ t ≤ u := by
  rcases Int.lt_trichotomy t u with hlt | rfl | hgt
  · exact ⟨fun _ => hlt.le, fun _ => (isoformat_lt ht hu hlt).le⟩
  · simp
  · have h := isoformat_lt hu ht hgt
    exact ⟨fun hle => absurd hle (not_le.mpr h), fun hle => absurd hle (not_le.mpr hgt)⟩

end IsoOrder
