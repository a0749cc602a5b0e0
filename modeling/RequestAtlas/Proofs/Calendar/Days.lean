import RequestAtlas.Calendar.Date
import Mathlib.Algebra.BigOperators.Intervals
import Mathlib.Tactic.IntervalCases
/-!
# Days of the calendar

The rules of the Gregorian calendar, said apart from how dates are numbered: `monthDays` and `yearDays` are the lengths
of months and years, and `elapsed` adds up the days before a date.  The number of a date is the count of its day
(`number_eq`), and every number is that of a genuine date (`ofNumber_spec`).
-/

namespace RequestAtlas.Date

/-- The leap years of the Gregorian calendar. -/
def LeapYear (year : Nat) : Prop := 4 ∣ year ∧ (100 ∣ year → 400 ∣ year)

instance (year : Nat) : Decidable (LeapYear year) := inferInstanceAs (Decidable (_ ∧ _))

def yearDays (year : Nat) : Nat := if LeapYear year then 366 else 365

/-- Thirty days have April, June, September and November. -/
def monthDays (year month : Nat) : Nat :=
  if month = 2 then if LeapYear year then 29 else 28
  else if month ∈ [4, 6, 9, 11] then 30 else 31

/-- The days between the start of the calendar and a date. -/
def elapsed (d : Date) : Nat :=
  ∑ y ∈ Finset.Ico 1 d.year, yearDays y + ∑ m ∈ Finset.Ico 1 d.month, monthDays d.year m + (d.day - 1)

/-- A date that the calendar has. -/
structure Genuine (d : Date) : Prop where
  year : 1 ≤ d.year
  month : 1 ≤ d.month ∧ d.month ≤ 12
  day : 1 ≤ d.day ∧ d.day ≤ monthDays d.year d.month

instance (d : Date) : Decidable d.Genuine :=
  decidable_of_iff (1 ≤ d.year ∧ (1 ≤ d.month ∧ d.month ≤ 12) ∧ 1 ≤ d.day ∧ d.day ≤ monthDays d.year d.month)
    ⟨fun ⟨hyear, hmonth, hday⟩ => ⟨hyear, hmonth, hday⟩, fun ⟨hyear, hmonth, hday⟩ => ⟨hyear, hmonth, hday⟩⟩

/-! ## Days before a year and before a month -/

theorem isLeap_iff (year : Nat) : isLeap year = true ↔ LeapYear year := by
  simp only [isLeap, LeapYear, Bool.and_eq_true, Bool.or_eq_true, beq_iff_eq, bne_iff_ne]
  omega

theorem daysBeforeYear_succ {year : Nat} (h : 1 ≤ year) :
    daysBeforeYear (year + 1) = daysBeforeYear year + yearDays year := by
  obtain ⟨y, rfl⟩ : ∃ y, year = y + 1 := ⟨year - 1, by omega⟩
  have hle : y / 100 ≤ y / 4 := Nat.div_le_div_left (by decide) (by decide)
  -- Each quotient grows by one exactly in the years that its divisor divides.
  simp only [daysBeforeYear, yearDays, LeapYear, Nat.add_sub_cancel, Nat.succ_div]
  by_cases h4 : 4 ∣ y + 1
  · by_cases h100 : 100 ∣ y + 1
    · by_cases h400 : 400 ∣ y + 1
      · simp only [h4, h100, h400, if_true, imp_self, and_self]
        omega
      · simp only [h4, h100, h400, if_true, if_false, imp_false, not_true, and_false]
        omega
    · have h400 : ¬ 400 ∣ y + 1 := fun h400 => h100 (dvd_trans (by decide) h400)
      simp only [h4, h100, h400, if_true, if_false, imp_self, and_self]
      omega
  · have h100 : ¬ 100 ∣ y + 1 := fun h100 => h4 (dvd_trans (by decide) h100)
    have h400 : ¬ 400 ∣ y + 1 := fun h400 => h4 (dvd_trans (by decide) h400)
    simp only [h4, h100, h400, if_false, false_and]
    omega

theorem daysBeforeYear_eq {year : Nat} (h : 1 ≤ year) :
    daysBeforeYear year = ∑ y ∈ Finset.Ico 1 year, yearDays y := by
  induction year, h using Nat.le_induction with
  | base => rfl
  | succ year h ih => rw [daysBeforeYear_succ h, Finset.sum_Ico_succ_top h, ih]

theorem daysBeforeYear_mono {a b : Nat} (ha : 1 ≤ a) (h : a ≤ b) : daysBeforeYear a ≤ daysBeforeYear b := by
  induction b, h using Nat.le_induction with
  | base => exact Nat.le_refl _
  | succ b h ih =>
    rw [daysBeforeYear_succ (by omega)]
    omega

theorem monthLengths_getElem? (year : Nat) {month : Nat} (h : 1 ≤ month ∧ month ≤ 12) :
    (monthLengths year)[month - 1]? = some (monthDays year month) := by
  obtain ⟨hfirst, hlast⟩ := h
  simp only [monthLengths, monthDays, isLeap_iff]
  interval_cases month <;> simp

/-- The lengths of the months before the given one. -/
theorem daysBeforeMonth_eq {year month : Nat} (h : 1 ≤ month ∧ month ≤ 12) :
    daysBeforeMonth year month = ∑ m ∈ Finset.Ico 1 month, monthDays year m := by
  obtain ⟨hfirst, hlast⟩ := h
  induction month, hfirst using Nat.le_induction with
  | base => rfl
  | succ month hfirst ih =>
    have hlength := @monthLengths_getElem? year month ⟨hfirst, by omega⟩
    rw [Finset.sum_Ico_succ_top hfirst, ← ih (by omega), daysBeforeMonth, daysBeforeMonth]
    obtain ⟨k, rfl⟩ : ∃ k, month = k + 1 := ⟨month - 1, by omega⟩
    simp only [Nat.add_sub_cancel] at hlength ⊢
    rw [List.take_add_one, hlength, Option.toList_some, List.foldl_append]
    rfl

/-- The number of a date counts its day from the start of the calendar. -/
theorem number_eq {d : Date} (h : d.Genuine) : d.number = d.elapsed + 1 := by
  have hday := h.day.1
  rw [number, elapsed, daysBeforeYear_eq h.year, daysBeforeMonth_eq h.month]
  omega

theorem sum_monthLengths (year : Nat) : (monthLengths year).sum = yearDays year := by
  simp only [monthLengths, yearDays, isLeap_iff]
  split <;> rfl

/-! ## The date of a number -/

/-- Walking through month lengths stops at the month in which the day lies. -/
theorem exists_monthAndDay {lengths : List Nat} {rest : Nat} (h : rest < lengths.sum) (month : Nat) :
    ∃ k length, lengths[k]? = some length ∧ (monthAndDay month rest lengths).1 = month + k ∧
      1 ≤ (monthAndDay month rest lengths).2 ∧ (monthAndDay month rest lengths).2 ≤ length ∧
      (lengths.take k).sum + (monthAndDay month rest lengths).2 = rest + 1 := by
  induction lengths generalizing month rest with
  | nil => simp at h
  | cons n ns ih =>
    rw [monthAndDay]
    by_cases hlt : rest < n
    · rw [if_pos hlt]
      exact ⟨0, n, rfl, rfl, Nat.le_add_left 1 rest, hlt, by simp⟩
    · rw [if_neg hlt]
      rw [List.sum_cons] at h
      have hrest : rest - n < ns.sum := by omega
      obtain ⟨k, length, hk, hmonth, hfirst, hlast, hsum⟩ := ih hrest (month + 1)
      refine ⟨k + 1, length, by simpa using hk, by omega, hfirst, hlast, ?_⟩
      rw [List.take_succ_cons, List.sum_cons]
      omega

/-- The day of a year, counted from zero, as a month and a day in it. -/
theorem exists_dayOfYear {year rest : Nat} (hyear : 1 ≤ year) (h : rest < yearDays year) :
    Genuine ⟨year, (monthAndDay 1 rest (monthLengths year)).1, (monthAndDay 1 rest (monthLengths year)).2⟩ ∧
      daysBeforeMonth year (monthAndDay 1 rest (monthLengths year)).1 + (monthAndDay 1 rest (monthLengths year)).2 =
        rest + 1 := by
  rw [← sum_monthLengths] at h
  obtain ⟨k, length, hk, hmonth, hfirst, hlast, hsum⟩ := exists_monthAndDay h 1
  have hlt : k < 12 := (List.getElem?_eq_some_iff.1 hk).1
  have hlength := @monthLengths_getElem? year (1 + k) ⟨by omega, by omega⟩
  rw [Nat.add_sub_cancel_left, hk, Option.some.injEq] at hlength
  refine ⟨⟨hyear, ?_, ?_⟩, ?_⟩
  · rw [hmonth]
    exact ⟨Nat.le_add_right 1 k, by dsimp only; omega⟩
  · rw [hmonth, ← hlength]
    exact ⟨hfirst, hlast⟩
  · rw [hmonth, daysBeforeMonth, Nat.add_sub_cancel_left, ← List.sum_eq_foldl, hsum]

/-- The year in which a day lies that is counted from the start of the calendar, and the day in it. -/
def yearOf (n : Nat) : Nat × Nat :=
  let r400 := n % 146097
  let r100 := r400 - 36524 * min (r400 / 36524) 3
  let r4 := r100 % 1461
  (400 * (n / 146097) + 100 * min (r400 / 36524) 3 + 4 * (r100 / 1461) + min (r4 / 365) 3 + 1,
    r4 - 365 * min (r4 / 365) 3)

theorem ofNumber_eq (number : Nat) : ofNumber number =
    let (year, rest) := yearOf (number - 1)
    let (month, day) := monthAndDay 1 rest (monthLengths year)
    { year, month, day } := rfl

/-- The days before a year by its place in the cycles of 400, 100 and 4 years. -/
theorem daysBeforeYear_cycles {a b c d : Nat} (hb : b ≤ 3) (hc : c ≤ 24) (hd : d ≤ 3) :
    daysBeforeYear (400 * a + 100 * b + 4 * c + d + 1) = 146097 * a + 36524 * b + 1461 * c + 365 * d := by
  have h4 : (400 * a + 100 * b + 4 * c + d) / 4 = 100 * a + 25 * b + c := by omega
  have h100 : (400 * a + 100 * b + 4 * c + d) / 100 = 4 * a + b := by omega
  have h400 : (400 * a + 100 * b + 4 * c + d) / 400 = a := by omega
  rw [daysBeforeYear, Nat.add_sub_cancel, h4, h100, h400]
  omega

/-- The last year of a cycle of 4 is a leap year, that of a cycle of 100 only if it ends a cycle of 400. -/
theorem leapYear_cycles {a b c d : Nat} (hb : b ≤ 3) (hc : c ≤ 24) (hd : d ≤ 3) :
    LeapYear (400 * a + 100 * b + 4 * c + d + 1) ↔ d = 3 ∧ (c = 24 → b = 3) := by
  have h4 : 4 ∣ 400 * a + 100 * b + 4 * c + d + 1 ↔ d = 3 := by omega
  have h100 : 100 ∣ 400 * a + 100 * b + 4 * c + d + 1 ↔ c = 24 ∧ d = 3 := by omega
  have h400 : 400 ∣ 400 * a + 100 * b + 4 * c + d + 1 ↔ b = 3 ∧ c = 24 ∧ d = 3 := by omega
  rw [LeapYear, h4, h100, h400]
  constructor
  · rintro ⟨hd3, h⟩
    exact ⟨hd3, fun hc24 => (h ⟨hc24, hd3⟩).1⟩
  · rintro ⟨hd3, h⟩
    exact ⟨hd3, fun ⟨hc24, _⟩ => ⟨h hc24, hc24, hd3⟩⟩

/-- A day lies in its year. -/
theorem yearOf_spec (n : Nat) : (yearOf n).2 < yearDays (yearOf n).1 ∧
    daysBeforeYear (yearOf n).1 + (yearOf n).2 = n := by
  obtain ⟨a, ha⟩ : ∃ a, a = n / 146097 := ⟨_, rfl⟩
  obtain ⟨b, hb⟩ : ∃ b, b = min (n % 146097 / 36524) 3 := ⟨_, rfl⟩
  obtain ⟨c, hc⟩ : ∃ c, c = (n % 146097 - 36524 * b) / 1461 := ⟨_, rfl⟩
  obtain ⟨d, hd⟩ : ∃ d, d = min ((n % 146097 - 36524 * b) % 1461 / 365) 3 := ⟨_, rfl⟩
  obtain ⟨rest, hrest⟩ : ∃ rest, rest = (n % 146097 - 36524 * b) % 1461 - 365 * d := ⟨_, rfl⟩
  have hyear : yearOf n = (400 * a + 100 * b + 4 * c + d + 1, rest) := by
    rw [hrest, hd, hc, hb, ha, yearOf]
  have hb3 : b ≤ 3 := by omega
  have hc24 : c ≤ 24 := by omega
  have hd3 : d ≤ 3 := by omega
  have hn : 146097 * a + 36524 * b + 1461 * c + 365 * d + rest = n := by omega
  rw [hyear]
  refine ⟨?_, by rw [daysBeforeYear_cycles hb3 hc24 hd3, hn]⟩
  dsimp only
  by_cases hleap : LeapYear (400 * a + 100 * b + 4 * c + d + 1)
  · rw [yearDays, if_pos hleap]
    omega
  · rw [yearDays, if_neg hleap]
    rw [leapYear_cycles hb3 hc24 hd3] at hleap
    omega

/-- **Every number is that of a date the calendar has.** -/
theorem ofNumber_spec {n : Nat} (h : 1 ≤ n) : (ofNumber n).Genuine ∧ (ofNumber n).number = n := by
  obtain ⟨hrest, hdays⟩ := yearOf_spec (n - 1)
  have hyear : 1 ≤ (yearOf (n - 1)).1 := Nat.le_add_left _ _
  obtain ⟨hgenuine, hday⟩ := exists_dayOfYear hyear hrest
  rw [ofNumber_eq]
  refine ⟨hgenuine, ?_⟩
  rw [number]
  dsimp only
  omega

/-! ## The last date -/

theorem dayOfYear_le {d : Date} (h : d.Genuine) : daysBeforeMonth d.year d.month + d.day ≤ yearDays d.year := by
  obtain ⟨hlt, hlength⟩ := List.getElem?_eq_some_iff.1 (monthLengths_getElem? d.year h.month)
  have hsum := List.sum_take_add_sum_drop (monthLengths d.year) (d.month - 1)
  rw [sum_monthLengths, List.drop_eq_getElem_cons hlt, hlength, List.sum_cons] at hsum
  rw [daysBeforeMonth, ← List.sum_eq_foldl]
  have hday := h.day.2
  omega

/-- The dates up to the end of the calendar are those with a number up to the last. -/
theorem number_le_lastNumber_iff {d : Date} (h : d.Genuine) : d.number ≤ lastNumber ↔ d.year ≤ maxYear := by
  have hlast : daysBeforeYear (maxYear + 1) = lastNumber := by decide
  have hday := dayOfYear_le h
  have hfirst := h.day.1
  have hsucc := daysBeforeYear_succ h.year
  rw [number]
  constructor
  · intro hle
    by_contra hyear
    have hmono := daysBeforeYear_mono (a := maxYear + 1) (b := d.year) (by decide) (by omega)
    omega
  · intro hyear
    have hmono := daysBeforeYear_mono (a := d.year + 1) (b := maxYear + 1) (by omega) (by omega)
    omega

end RequestAtlas.Date
