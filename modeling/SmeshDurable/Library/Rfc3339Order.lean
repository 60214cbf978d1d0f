import Mathlib.Data.String.Basic
import SmeshDurable.Library.Framing
import SmeshDurable.Library.Rfc3339

/-!
# The order of RFC 3339 texts

Instants of one year are ordered as their texts: every field has a fixed width, and the zone behind
a shorter fraction starts with a sign that sorts before digits and before the point. Instants of
different years are ordered as their years are written.
-/

namespace Instant

/-! ## Texts of blocks -/

section Lex

variable {a b s t : List Char}

theorem append_lt_of_lt (hlength : a.length = b.length) (h : a < b) : a ++ s < b ++ t := by
  induction a generalizing b with
  | nil =>
    rw [List.length_eq_zero_iff.mp hlength.symm] at h
    exact absurd h (lt_irrefl _)
  | cons c a ih =>
    cases b with
    | nil => cases hlength
    | cons d b =>
      rw [List.cons_append, List.cons_append]
      rcases List.cons_lt_cons_iff.mp h with hlt | ⟨rfl, hlt⟩
      · exact List.cons_lt_cons_iff.mpr (Or.inl hlt)
      · exact List.cons_lt_cons_iff.mpr (Or.inr ⟨rfl, ih (Nat.succ.inj hlength) hlt⟩)

theorem append_lt_append_left (a : List Char) (h : s < t) : a ++ s < a ++ t := by
  induction a with
  | nil => exact h
  | cons c a ih => exact List.cons_lt_cons_iff.mpr (Or.inr ⟨rfl, ih⟩)

/-- Texts that do not start alike are compared where they differ. -/
theorem append_lt_append_iff (h : ∀ s t, a ++ s ≠ b ++ t) : a ++ s < b ++ t ↔ a < b := by
  induction a generalizing b with
  | nil => exact absurd (List.append_nil b).symm (h b [])
  | cons c a ih =>
    cases b with
    | nil => exact absurd (List.append_nil _) (h [] (c :: a))
    | cons d b =>
      rw [List.cons_append, List.cons_append, List.cons_lt_cons_iff, List.cons_lt_cons_iff]
      refine or_congr_right (and_congr_right ?_)
      rintro rfl
      apply ih
      intro s t heq
      exact h s t (congrArg (c :: ·) heq)

end Lex

/-! ## Numbers of a fixed width -/

/-- The last digits of a number. -/
def fixed : Nat → Nat → List Char
  | 0, _ => []
  | width + 1, n => fixed width (n / 10) ++ [Nat.digitChar (n % 10)]

@[simp] theorem length_fixed (width n : Nat) : (fixed width n).length = width := by
  induction width generalizing n with
  | zero => rfl
  | succ width ih => rw [fixed, List.length_append, ih, List.length_singleton]

theorem fixed_zero (width : Nat) : fixed width 0 = List.replicate width '0' := by
  induction width with
  | zero => rfl
  | succ width ih =>
    rw [fixed, Nat.zero_div, ih, List.replicate_succ']
    rfl

theorem padded_eq {width n : Nat} (h : n < 10 ^ width) (hwidth : 0 < width) :
    (padded width n).toList = fixed width n := by
  rw [padded, String.toList_ofList]
  induction width generalizing n with
  | zero => cases hwidth
  | succ width ih =>
    rw [fixed]
    by_cases hn : n < 10
    · rw [Nat.toDigits_of_lt_base hn, List.length_singleton, Nat.add_sub_cancel,
        Nat.div_eq_of_lt hn, fixed_zero, Nat.mod_eq_of_lt hn]
    · have hpos : 0 < width := by
        rcases Nat.eq_zero_or_pos width with rfl | hpos
        · omega
        · exact hpos
      have hdiv : n / 10 < 10 ^ width := Nat.div_lt_of_lt_mul (by rwa [← Nat.pow_succ'])
      rw [Nat.toDigits_of_base_le (by decide) (Nat.not_lt.mp hn), List.length_append,
        List.length_singleton, ← ih hdiv hpos, ← List.append_assoc]
      congr 3
      omega

theorem digitChar_lt {n m : Nat} (h : n < m) (hm : m < 10) : Nat.digitChar n < Nat.digitChar m := by
  have hall : ∀ m < 10, ∀ n < m, Nat.digitChar n < Nat.digitChar m := by decide
  exact hall m hm n h

theorem fixed_lt {width n m : Nat} (h : n < m) (hm : m < 10 ^ width) :
    fixed width n < fixed width m := by
  induction width generalizing n m with
  | zero =>
    rw [Nat.pow_zero] at hm
    omega
  | succ width ih =>
    have hdiv : m / 10 < 10 ^ width := Nat.div_lt_of_lt_mul (by rwa [← Nat.pow_succ'])
    rw [fixed, fixed]
    rcases Nat.lt_or_ge (n / 10) (m / 10) with hlt | hge
    · exact append_lt_of_lt (by simp) (ih hlt hdiv)
    · have heq : n / 10 = m / 10 := by omega
      rw [heq]
      refine append_lt_append_left _ (List.cons_lt_cons_iff.mpr (Or.inl ?_))
      exact digitChar_lt (by omega) (by omega)

/-- A field, and what follows it if it is the same. -/
theorem field_lt {width n m : Nat} {s t : List Char} (hm : m < 10 ^ width)
    (h : n < m ∨ n = m ∧ s < t) : fixed width n ++ s < fixed width m ++ t := by
  rcases h with hlt | ⟨rfl, hlt⟩
  · exact append_lt_of_lt (by simp) (fixed_lt hlt hm)
  · exact append_lt_append_left _ hlt

theorem field_sep_lt {width n m : Nat} {sep s t : List Char} (hm : m < 10 ^ width)
    (h : n < m ∨ n = m ∧ s < t) : fixed width n ++ (sep ++ s) < fixed width m ++ (sep ++ t) := by
  apply field_lt hm
  rcases h with hlt | ⟨heq, hlt⟩
  · exact Or.inl hlt
  · exact Or.inr ⟨heq, append_lt_append_left sep hlt⟩

theorem fixed_add (width width' n : Nat) :
    fixed (width + width') n = fixed width (n / 10 ^ width') ++ fixed width' (n % 10 ^ width') := by
  induction width' generalizing n with
  | zero => rw [Nat.add_zero, Nat.pow_zero, Nat.div_one, fixed, List.append_nil]
  | succ width' ih =>
    rw [← Nat.add_assoc, fixed, ih, fixed, Nat.pow_succ', Nat.div_div_eq_div_mul,
      Nat.mod_mul_right_div_self, Nat.mod_mul_right_mod, List.append_assoc]

/-! ## Fractions -/

def zone : List Char := "+00:00".toList

/-- Groups of three digits up to the last one that is not zero, and the zone. -/
def groups : Nat → Nat → List Char
  | 0, _ => zone
  | k + 1, n => if n = 0 then zone else fixed 3 (n / 1000 ^ k) ++ groups k (n % 1000 ^ k)

theorem zone_lt_fixed (n : Nat) (s : List Char) : zone < fixed 3 n ++ s := by
  have hdigit : ∀ d < 10, '+' < Nat.digitChar d := by decide
  exact List.cons_lt_cons_iff.mpr (Or.inl (hdigit _ (Nat.mod_lt _ (by decide))))

theorem groups_lt {k n m : Nat} (h : n < m) (hm : m < 1000 ^ k) : groups k n < groups k m := by
  induction k generalizing n m with
  | zero =>
    rw [Nat.pow_zero] at hm
    omega
  | succ k ih =>
    have hpos : 0 < 1000 ^ k := Nat.pow_pos (by decide)
    rw [groups, groups, if_neg (Nat.ne_of_gt (Nat.zero_lt_of_lt h))]
    split
    · exact zone_lt_fixed _ _
    · apply field_lt
      · rw [Nat.pow_succ] at hm
        exact Nat.div_lt_of_lt_mul hm
      · rcases lt_or_eq_of_le (Nat.div_le_div_right h.le) with hlt | heq
        · exact Or.inl hlt
        · have hn := Nat.div_add_mod n (1000 ^ k)
          have hmod := Nat.div_add_mod m (1000 ^ k)
          rw [heq] at hn
          exact Or.inr ⟨heq, ih (by omega) (Nat.mod_lt _ hpos)⟩

/-- A fraction and the zone. -/
def fractionText (nanos : Nat) : List Char := if nanos = 0 then zone else '.' :: groups 3 nanos

theorem renderFraction_zone {nanos : Nat} (h : nanos < 1000000000) :
    (renderFraction nanos).toList ++ zone = fractionText nanos := by
  rw [renderFraction, fractionText]
  split
  · rfl
  next hnanos =>
    simp only [groups, hnanos, if_false, Nat.reducePow, Nat.div_one]
    split
    · rw [String.toList_append, padded_eq (by omega) (by decide)]
      rfl
    next hmicros =>
      have hgroup : nanos % 1000000 % 1000 = nanos % 1000 := by omega
      rw [hgroup]
      split
      · have hdiv : nanos / 1000 / 10 ^ 3 = nanos / 1000000 := by omega
        have hmod : nanos / 1000 % 10 ^ 3 = nanos % 1000000 / 1000 := by omega
        rw [String.toList_append, padded_eq (by omega) (by decide), fixed_add 3 3, hdiv, hmod]
        simp only [List.append_assoc]
        rfl
      · have hdiv : nanos / 10 ^ 3 / 10 ^ 3 = nanos / 1000000 := by omega
        have hmod : nanos / 10 ^ 3 % 10 ^ 3 = nanos % 1000000 / 1000 := by omega
        rw [String.toList_append, padded_eq (by omega) (by decide), fixed_add 6 3,
          fixed_add 3 3, hdiv, hmod]
        simp only [List.append_assoc]
        rfl

theorem fractionText_lt {nanos nanos' : Nat} (h : nanos < nanos') (hnanos' : nanos' < 1000000000) :
    fractionText nanos < fractionText nanos' := by
  rw [fractionText, fractionText, if_neg (Nat.ne_of_gt (Nat.zero_lt_of_lt h))]
  split
  · exact List.cons_lt_cons_iff.mpr (Or.inl (by decide))
  · exact List.cons_lt_cons_iff.mpr (Or.inr ⟨rfl, groups_lt h hnanos'⟩)

/-! ## Dates -/

/-- The year that starts with March, counted in eras of 400 years. -/
def marchYear (days : Int) : Int :=
  let shifted := days + 719468
  let era := shifted.fdiv 146097
  let dayOfEra := (shifted - era * 146097).toNat
  era * 400 + ((dayOfEra - dayOfEra / 1460 + dayOfEra / 36524 - dayOfEra / 146096) / 365 : Nat)

/-- The day of a year that starts with March. -/
def marchDay (days : Int) : Nat :=
  let shifted := days + 719468
  let era := shifted.fdiv 146097
  let dayOfEra := (shifted - era * 146097).toNat
  let yearOfEra := (dayOfEra - dayOfEra / 1460 + dayOfEra / 36524 - dayOfEra / 146096) / 365
  dayOfEra - (365 * yearOfEra + yearOfEra / 4 - yearOfEra / 100)

/-- The date of a day of a year that starts with March. -/
def ofMarch (year : Int) (dayOfYear : Nat) : Int × Nat × Nat :=
  let monthIndex := (5 * dayOfYear + 2) / 153
  let day := dayOfYear - (153 * monthIndex + 2) / 5 + 1
  let month := if monthIndex < 10 then monthIndex + 3 else monthIndex - 9
  (if month ≤ 2 then year + 1 else year, month, day)

theorem civilOfDays_eq (days : Int) : civilOfDays days = ofMarch (marchYear days) (marchDay days) :=
  rfl

theorem yearOfEra_spec {dayOfEra year : Nat} (h : dayOfEra ≤ 146096)
    (hyear : year = (dayOfEra - dayOfEra / 1460 + dayOfEra / 36524 - dayOfEra / 146096) / 365) :
    365 * year + year / 4 - year / 100 ≤ dayOfEra ∧
      dayOfEra - (365 * year + year / 4 - year / 100) ≤ 365 ∧ year ≤ 399 := by
  -- the last day of an era is its only one in a fifth century
  rcases Nat.lt_or_ge dayOfEra 146096 with hlt | hge
  · have hlast : dayOfEra / 146096 = 0 := Nat.div_eq_of_lt hlt
    have hcentury : dayOfEra / 36524 = 0 ∨ dayOfEra / 36524 = 1 ∨ dayOfEra / 36524 = 2 ∨
        dayOfEra / 36524 = 3 := by omega
    rw [hlast, Nat.sub_zero] at hyear
    rcases hcentury with hcentury | hcentury | hcentury | hcentury <;> rw [hcentury] at hyear
    · have hsame : year / 100 = 0 := by omega
      omega
    · have hsame : year / 100 = 1 := by omega
      omega
    · have hsame : year / 100 = 2 := by omega
      omega
    · have hsame : year / 100 = 3 := by omega
      omega
  · obtain rfl : dayOfEra = 146096 := le_antisymm h hge
    rw [hyear]
    decide

/-- The era of a day, and the day in it. -/
theorem era_spec (days : Int) : ∃ (era : Int) (dayOfEra : Nat),
    (days + 719468).fdiv 146097 = era ∧ (days + 719468 - era * 146097).toNat = dayOfEra ∧
      dayOfEra ≤ 146096 ∧ days + 719468 = era * 146097 + dayOfEra := by
  refine ⟨_, _, rfl, rfl, ?_⟩
  rw [Int.fdiv_eq_ediv_of_nonneg _ (by decide)]
  omega

theorem marchDay_le (days : Int) : marchDay days ≤ 365 := by
  obtain ⟨era, dayOfEra, hera, hday, hle, -⟩ := era_spec days
  have hspec := (yearOfEra_spec hle rfl).2.1
  simp only [marchDay, hera, hday]
  exact hspec

theorem yearOfEra_mono {dayOfEra dayOfEra' : Nat} (h : dayOfEra ≤ dayOfEra') :
    (dayOfEra - dayOfEra / 1460 + dayOfEra / 36524 - dayOfEra / 146096) / 365 ≤
      (dayOfEra' - dayOfEra' / 1460 + dayOfEra' / 36524 - dayOfEra' / 146096) / 365 := by
  apply Nat.div_le_div_right
  omega

/-- Days are ordered as their years and days of years that start with March. -/
theorem march_lt {days days' : Int} (h : days < days') : marchYear days < marchYear days' ∨
    marchYear days = marchYear days' ∧ marchDay days < marchDay days' := by
  obtain ⟨era, dayOfEra, hera, hday, hle, hdays⟩ := era_spec days
  obtain ⟨era', dayOfEra', hera', hday', hle', hdays'⟩ := era_spec days'
  obtain ⟨hstart, -, hyear⟩ := yearOfEra_spec hle rfl
  have hmono := @yearOfEra_mono dayOfEra dayOfEra'
  simp only [marchYear, marchDay, hera, hera', hday, hday']
  have heras : era < era' ∨ era = era' ∧ dayOfEra < dayOfEra' := by
    clear hmono hstart hyear hera hera' hday hday'
    omega
  generalize (dayOfEra - dayOfEra / 1460 + dayOfEra / 36524 - dayOfEra / 146096) / 365 = year at *
  generalize (dayOfEra' - dayOfEra' / 1460 + dayOfEra' / 36524 - dayOfEra' / 146096) / 365 =
    year' at *
  rcases heras with hlt | ⟨rfl, hlt⟩
  · left
    clear hstart hmono
    omega
  · rcases lt_or_eq_of_le (hmono hlt.le) with hyears | rfl
    · left
      clear hstart hmono
      omega
    · right
      generalize 365 * year + year / 4 - year / 100 = start at *
      exact ⟨rfl, Nat.sub_lt_sub_right hstart hlt⟩

/-- One date is before another. -/
def DateBefore (date date' : Int × Nat × Nat) : Prop :=
  date.1 < date'.1 ∨ date.1 = date'.1 ∧
    (date.2.1 < date'.2.1 ∨ date.2.1 = date'.2.1 ∧ date.2.2 < date'.2.2)

/-- March is the third month, and January and February are those of the next year. -/
theorem ofMarch_cases {day : Nat} (hday : day ≤ 365) (year : Int) :
    ∃ month dayOfMonth, (5 * day + 2) / 153 = month ∧
      day - (153 * month + 2) / 5 + 1 = dayOfMonth ∧ dayOfMonth ≤ 31 ∧
      (month < 10 ∧ ofMarch year day = (year, month + 3, dayOfMonth) ∨
        10 ≤ month ∧ month ≤ 11 ∧ ofMarch year day = (year + 1, month - 9, dayOfMonth)) := by
  refine ⟨_, _, rfl, rfl, by omega, ?_⟩
  rcases Nat.lt_or_ge ((5 * day + 2) / 153) 10 with hlt | hge
  · left
    have hmonth : ¬(5 * day + 2) / 153 + 3 ≤ 2 := by omega
    simp only [ofMarch, hlt, if_pos, hmonth, if_false, true_and]
  · right
    have hmonth : (5 * day + 2) / 153 - 9 ≤ 2 := by omega
    simp only [ofMarch, Nat.not_lt.mpr hge, if_false, hmonth, if_pos, and_true, true_and, hge]
    omega

theorem ofMarch_lt {year year' : Int} {day day' : Nat} (hday : day ≤ 365) (hday' : day' ≤ 365)
    (h : year < year' ∨ year = year' ∧ day < day') :
    DateBefore (ofMarch year day) (ofMarch year' day') := by
  obtain ⟨month, dayOfMonth, hmonth, hdate, -, hcase⟩ := ofMarch_cases hday year
  obtain ⟨month', dayOfMonth', hmonth', hdate', -, hcase'⟩ := ofMarch_cases hday' year'
  -- in one year the months rise, and in one month its days
  have hrise : year = year' → month < month' ∨ month = month' ∧ dayOfMonth < dayOfMonth' := by
    intro hyear
    have hlt : day < day' := by omega
    rcases Nat.lt_or_ge month month' with hmonths | hmonths
    · exact Or.inl hmonths
    · have heq : month = month' := by omega
      subst heq
      right
      omega
  clear hmonth hmonth' hdate hdate' hday hday'
  rcases hcase with ⟨hlt, hcase⟩ | ⟨hge, hle, hcase⟩ <;>
    rcases hcase' with ⟨hlt', hcase'⟩ | ⟨hge', hle', hcase'⟩ <;>
    rw [hcase, hcase', DateBefore] <;> dsimp only <;> omega

theorem civilOfDays_lt {days days' : Int} (h : days < days') :
    DateBefore (civilOfDays days) (civilOfDays days') := by
  rw [civilOfDays_eq, civilOfDays_eq]
  exact ofMarch_lt (marchDay_le days) (marchDay_le days') (march_lt h)

theorem civilOfDays_bounds (days : Int) :
    (civilOfDays days).2.1 < 100 ∧ (civilOfDays days).2.2 < 100 := by
  obtain ⟨month, dayOfMonth, -, -, hle, hcase⟩ := ofMarch_cases (marchDay_le days) (marchYear days)
  rcases hcase with ⟨hlt, hcase⟩ | ⟨hge, hlt, hcase⟩ <;>
    rw [civilOfDays_eq, hcase] <;> dsimp only <;> omega

/-! ## Years -/

/-- The year as it leads a text. -/
def yearText (year : Int) : List Char := (renderYear year).toList ++ "-".toList

theorem padded_digits {width n : Nat} {c : Char} (h : c ∈ (padded width n).toList) :
    c.isDigit = true := by
  rw [padded, String.toList_ofList, List.mem_append] at h
  rcases h with hzero | hdigit
  · rw [List.eq_of_mem_replicate hzero]
    rfl
  · exact Nat.isDigit_of_mem_toDigits (by decide) (by decide) hdigit

theorem padded_inj {width n m : Nat} (h : (padded width n).toList = (padded width m).toList) :
    n = m := by
  have hvalue : ∀ n, Nat.ofDigitChars 10 (padded width n).toList 0 = n := by
    intro n
    rw [padded, String.toList_ofList, Nat.ofDigitChars_append, Nat.ofDigitChars_replicate_zero,
      Nat.mul_zero, Nat.ofDigitChars_ten_toDigits]
  rw [← hvalue n, h, hvalue]

theorem padded_cons (width n : Nat) :
    ∃ d digits, (padded width n).toList = d :: digits ∧ d.isDigit = true := by
  cases hdigits : (padded width n).toList with
  | nil =>
    rw [padded, String.toList_ofList, List.append_eq_nil_iff] at hdigits
    exact absurd hdigits.2 Nat.toDigits_ne_nil
  | cons d digits => exact ⟨d, digits, rfl, padded_digits (hdigits ▸ List.mem_cons_self)⟩

/-- A year in the range of four digits has no sign, and no other year has none. -/
theorem renderYear_cases (year : Int) : ∃ (sign : List Char) (n : Nat),
    (renderYear year).toList = sign ++ (padded 4 n).toList ∧
      (sign = [] ∧ year = n ∧ n < 10000 ∨ sign = ['+'] ∧ year = n ∨ sign = ['-'] ∧ year = -n) := by
  unfold renderYear
  split
  next h => exact ⟨[], year.toNat, (List.nil_append _).symm, Or.inl ⟨rfl, by omega, by omega⟩⟩
  next h =>
    split
    next hpos =>
      refine ⟨['+'], year.toNat, ?_, Or.inr (Or.inl ⟨rfl, by omega⟩)⟩
      rw [String.toList_append]
      rfl
    next hneg =>
      refine ⟨['-'], (-year).toNat, ?_, Or.inr (Or.inr ⟨rfl, by omega⟩)⟩
      rw [String.toList_append]
      rfl

theorem padded_dash_inj {n m : Nat} {s t : List Char}
    (h : (padded 4 n).toList ++ '-' :: s = (padded 4 m).toList ++ '-' :: t) : n = m := by
  have hfree : ∀ n, '-' ∉ (padded 4 n).toList := by
    intro n hmem
    cases padded_digits hmem
  exact padded_inj (Framing.cons_inj_left (hfree n) (hfree m) h).1

theorem padded_ne_sign {n : Nat} {c : Char} {s t : List Char} (hc : c.isDigit = false) :
    (padded 4 n).toList ++ s ≠ c :: t := by
  obtain ⟨d, digits, hdigits, hd⟩ := padded_cons 4 n
  rw [hdigits]
  intro heq
  rw [(List.cons.inj heq).1, hc] at hd
  cases hd

/-- Different years are told apart by how they are written. -/
theorem yearText_inj {year year' : Int} {s t : List Char}
    (h : yearText year ++ s = yearText year' ++ t) : year = year' := by
  obtain ⟨sign, n, htext, hsign⟩ := renderYear_cases year
  obtain ⟨sign', m, htext', hsign'⟩ := renderYear_cases year'
  have hdash : "-".toList = ['-'] := rfl
  rw [yearText, yearText, htext, htext', hdash] at h
  rcases hsign with ⟨rfl, hyear, -⟩ | ⟨rfl, hyear⟩ | ⟨rfl, hyear⟩ <;>
    rcases hsign' with ⟨rfl, hyear', -⟩ | ⟨rfl, hyear'⟩ | ⟨rfl, hyear'⟩ <;>
    simp only [List.append_assoc, List.nil_append, List.cons_append] at h
  · rw [hyear, hyear', padded_dash_inj h]
  · exact absurd h (padded_ne_sign (c := '+') rfl)
  · exact absurd h (padded_ne_sign (c := '-') rfl)
  · exact absurd h.symm (padded_ne_sign (c := '+') rfl)
  · rw [hyear, hyear', padded_dash_inj (List.cons.inj h).2]
  · cases (List.cons.inj h).1
  · exact absurd h.symm (padded_ne_sign (c := '-') rfl)
  · cases (List.cons.inj h).1
  · rw [hyear, hyear', padded_dash_inj (List.cons.inj h).2]

/-- The years are the same, or their texts are ordered as they are. -/
def YearsAgree (year year' : Int) : Prop :=
  year = year' ∨ (yearText year < yearText year' ↔ year < year')

theorem yearText_lt {year year' : Int} (hyear : 0 ≤ year) (h : year < year')
    (hyear' : year' ≤ 9999) : yearText year < yearText year' := by
  rw [yearText, yearText, renderYear, renderYear, if_pos ⟨hyear, by omega⟩,
    if_pos ⟨by omega, hyear'⟩, padded_eq (by omega) (by decide), padded_eq (by omega) (by decide)]
  exact field_lt (by omega) (Or.inl (by omega))

/-- Years of four digits agree. -/
theorem yearsAgree_of_four_digits {year year' : Int} (h : 0 ≤ year ∧ year ≤ 9999)
    (h' : 0 ≤ year' ∧ year' ≤ 9999) : YearsAgree year year' := by
  rcases lt_trichotomy year year' with hlt | heq | hgt
  · exact Or.inr (iff_of_true (yearText_lt h.1 hlt h'.2) hlt)
  · exact Or.inl heq
  · exact Or.inr (iff_of_false (lt_asymm (yearText_lt h'.1 hgt h.2)) (by omega))

/-! ## Instants -/

def days (instant : Instant) : Int := (instant.nanos.fdiv 1000000000).fdiv 86400

def clock (instant : Instant) : Nat :=
  (instant.nanos.fdiv 1000000000 - instant.days * 86400).toNat

def fraction (instant : Instant) : Nat :=
  (instant.nanos - instant.nanos.fdiv 1000000000 * 1000000000).toNat

def year (instant : Instant) : Int := (civilOfDays instant.days).1

/-- What follows the year. -/
def ofYear (instant : Instant) : List Char :=
  fixed 2 (civilOfDays instant.days).2.1 ++ ("-".toList ++
    (fixed 2 (civilOfDays instant.days).2.2 ++ ("T".toList ++
      (fixed 2 (instant.clock / 3600) ++ (":".toList ++
        (fixed 2 (instant.clock / 60 % 60) ++ (":".toList ++
          (fixed 2 (instant.clock % 60) ++ fractionText instant.fraction))))))))

section Order

variable {instant instant' : Instant}

theorem clock_lt (instant : Instant) : instant.clock < 86400 := by
  simp only [clock, days, Int.fdiv_eq_ediv_of_nonneg _ (show (0 : Int) ≤ 86400 by decide)]
  omega

theorem fraction_lt (instant : Instant) : instant.fraction < 1000000000 := by
  simp only [fraction, Int.fdiv_eq_ediv_of_nonneg _ (show (0 : Int) ≤ 1000000000 by decide)]
  omega

theorem toList_renderOffset (instant : Instant) :
    instant.renderOffset.toList = yearText instant.year ++ instant.ofYear := by
  have hclock := instant.clock_lt
  obtain ⟨hmonth, hday⟩ := civilOfDays_bounds instant.days
  rw [ofYear, ← renderFraction_zone instant.fraction_lt, ← padded_eq hmonth (by decide),
    ← padded_eq hday (by decide), ← padded_eq (n := instant.clock / 3600) (by omega) (by decide),
    ← padded_eq (n := instant.clock / 60 % 60) (by omega) (by decide),
    ← padded_eq (n := instant.clock % 60) (by omega) (by decide)]
  rw [renderOffset, renderLocal, yearText]
  simp only [String.toList_append, List.append_assoc]
  rfl

theorem fields_lt (h : instant.nanos < instant'.nanos) : instant.days < instant'.days ∨
    instant.days = instant'.days ∧ (instant.clock < instant'.clock ∨
      instant.clock = instant'.clock ∧ instant.fraction < instant'.fraction) := by
  simp only [days, clock, fraction, Int.fdiv_eq_ediv_of_nonneg _ (show (0 : Int) ≤ 86400 by decide),
    Int.fdiv_eq_ediv_of_nonneg _ (show (0 : Int) ≤ 1000000000 by decide)]
  omega

theorem year_mono (h : instant.nanos < instant'.nanos) : instant.year ≤ instant'.year := by
  rcases fields_lt h with hdays | ⟨hdays, -⟩
  · rcases civilOfDays_lt hdays with hlt | ⟨heq, -⟩
    · exact hlt.le
    · exact heq.le
  · rw [year, year, hdays]

/-- In one year, earlier instants have smaller texts. -/
theorem ofYear_lt (hyear : instant.year = instant'.year) (h : instant.nanos < instant'.nanos) :
    instant.ofYear < instant'.ofYear := by
  have hclock := instant'.clock_lt
  obtain ⟨hmonth, hday⟩ := civilOfDays_bounds instant'.days
  rcases fields_lt h with hdays | ⟨hdays, hrest⟩
  · rcases civilOfDays_lt hdays with hlt | ⟨-, hlt | ⟨heq, hlt⟩⟩
    · exact absurd hyear hlt.ne
    · exact field_sep_lt hmonth (Or.inl hlt)
    · exact field_sep_lt hmonth (Or.inr ⟨heq, field_sep_lt hday (Or.inl hlt)⟩)
  · rw [ofYear, ofYear, hdays]
    refine field_sep_lt hmonth (Or.inr ⟨rfl, field_sep_lt hday (Or.inr ⟨rfl, ?_⟩)⟩)
    rcases hrest with hlt | ⟨heq, hlt⟩
    · -- the first of hour, minute and second that differs
      apply field_sep_lt (by omega)
      rcases lt_or_eq_of_le (show instant.clock / 3600 ≤ instant'.clock / 3600 by omega) with
        hhour | hhour
      · exact Or.inl hhour
      · refine Or.inr ⟨hhour, field_sep_lt (by omega) ?_⟩
        rcases lt_or_eq_of_le (show instant.clock / 60 % 60 ≤ instant'.clock / 60 % 60 by omega)
          with hminute | hminute
        · exact Or.inl hminute
        · exact Or.inr ⟨hminute, field_lt (by omega) (Or.inl (by omega))⟩
    · rw [heq]
      refine field_sep_lt (by omega) (Or.inr ⟨rfl, field_sep_lt (by omega) (Or.inr ⟨rfl, ?_⟩)⟩)
      exact field_lt (by omega) (Or.inr ⟨rfl, fractionText_lt hlt instant'.fraction_lt⟩)

theorem renderOffset_lt_of_year_eq (hyear : instant.year = instant'.year)
    (h : instant.nanos < instant'.nanos) : instant.renderOffset < instant'.renderOffset := by
  rw [String.lt_iff_toList_lt, toList_renderOffset, toList_renderOffset, hyear]
  exact append_lt_append_left _ (ofYear_lt hyear h)

theorem renderOffset_lt_iff_of_year_ne (hyear : instant.year ≠ instant'.year) :
    instant.renderOffset < instant'.renderOffset ↔
      yearText instant.year < yearText instant'.year := by
  rw [String.lt_iff_toList_lt, toList_renderOffset, toList_renderOffset]
  apply append_lt_append_iff
  intro s t heq
  exact hyear (yearText_inj heq)

theorem nanos_lt_iff_of_year_ne (hyear : instant.year ≠ instant'.year) :
    instant.nanos < instant'.nanos ↔ instant.year < instant'.year := by
  constructor
  · intro h
    exact lt_of_le_of_ne (year_mono h) hyear
  · intro h
    rcases lt_trichotomy instant.nanos instant'.nanos with hlt | heq | hgt
    · exact hlt
    · rw [year, year, days, days, heq] at h
      exact absurd h (lt_irrefl _)
    · exact absurd (year_mono hgt) (not_le.mpr h)

/-- Texts are ordered as instants exactly if their years agree. -/
theorem renderOffset_lt_iff :
    (instant.renderOffset < instant'.renderOffset ↔ instant.nanos < instant'.nanos) ↔
      YearsAgree instant.year instant'.year := by
  by_cases hyear : instant.year = instant'.year
  · refine iff_of_true ?_ (Or.inl hyear)
    constructor
    · intro h
      rcases lt_trichotomy instant.nanos instant'.nanos with hlt | heq | hgt
      · exact hlt
      · rw [show instant = instant' by cases instant; cases instant'; simpa using heq] at h
        exact absurd h (lt_irrefl _)
      · exact absurd h (lt_asymm (renderOffset_lt_of_year_eq hyear.symm hgt))
    · exact renderOffset_lt_of_year_eq hyear
  · rw [renderOffset_lt_iff_of_year_ne hyear, nanos_lt_iff_of_year_ne hyear]
    constructor
    · exact Or.inr
    · rintro (heq | h)
      · exact absurd heq hyear
      · exact h

end Order

end Instant
