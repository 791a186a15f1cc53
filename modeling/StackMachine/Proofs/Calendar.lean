import Mathlib.Order.Monotone.Basic
import Mathlib.Tactic.IntervalCases
import StackMachine.Log.Calendar
import StackMachine.Proofs.Layout

/-!
# Calendar — day numbers follow the Gregorian calendar

The calendar itself is told day by day: which dates there are and which one comes next. The date of
a day number is found by a few divisions instead. The two are compared by way of the years that
begin in March, whose last day is the leap day:

* `Date.Valid`, `Date.next` — the calendar;
* `Calendar.counted` — the date of a day number, by counting;
* `MarchDate` — a date by the year that began with the last March, and `MarchDate.number`, the days
  before it;
* `Calendar.checkedDate` — the divisions, with subtractions that cannot go below zero;
* `Calendar.dates_follow_calendar` — both ways give the same dates, and the text of a moment
  determines it to the millisecond.
-/

namespace StackMachine

/-! ## The calendar -/

attribute [ext] Date

namespace Date

/-- Every fourth year is a leap year, except for the centuries that four hundred does not divide. -/
def IsLeap (year : Nat) : Prop := 4 ∣ year ∧ (100 ∣ year → 400 ∣ year)

instance (year : Nat) : Decidable (IsLeap year) := inferInstanceAs (Decidable (_ ∧ _))

def monthLength (year month : Nat) : Nat :=
  if month = 2 then if IsLeap year then 29 else 28
  else if month = 4 ∨ month = 6 ∨ month = 9 ∨ month = 11 then 30
  else 31

structure Valid (d : Date) : Prop where
  month_pos : 1 ≤ d.month
  month_le : d.month ≤ 12
  day_pos : 1 ≤ d.day
  day_le : d.day ≤ monthLength d.year d.month

def next (d : Date) : Date :=
  if d.day < monthLength d.year d.month then { d with day := d.day + 1 }
  else if d.month < 12 then ⟨d.year, d.month + 1, 1⟩
  else ⟨d.year + 1, 1, 1⟩

end Date

namespace Calendar

/-- The date of a day number, counted on from the start of 1970. -/
def counted : (days : Nat) → Date
  | 0 => ⟨1970, 1, 1⟩
  | days + 1 => (counted days).next

/-! ## Years that begin in March -/

/-- Days from the start of era zero to a year that begins in March. -/
def yearStart (year : Nat) : Nat := 365 * year + year / 4 - year / 100 + year / 400

/-- A year that begins in March is long if the next February is. -/
theorem yearStart_succ (year : Nat) :
    yearStart (year + 1) = yearStart year + if Date.IsLeap (year + 1) then 366 else 365 := by
  have hcentury : 100 ∣ year + 1 → 4 ∣ year + 1 := Nat.dvd_trans (by decide)
  have hera : 400 ∣ year + 1 → 100 ∣ year + 1 := Nat.dvd_trans (by decide)
  have hle : year / 100 ≤ 365 * year + year / 4 := by omega
  unfold yearStart
  simp only [Nat.succ_div]
  by_cases h4 : 4 ∣ year + 1
  · by_cases h100 : 100 ∣ year + 1
    · by_cases h400 : 400 ∣ year + 1
      · have hleap : Date.IsLeap (year + 1) := ⟨h4, fun _ => h400⟩
        rw [if_pos h4, if_pos h100, if_pos h400, if_pos hleap]
        omega
      · have hplain : ¬Date.IsLeap (year + 1) := fun hleap => h400 (hleap.2 h100)
        rw [if_pos h4, if_pos h100, if_neg h400, if_neg hplain]
        omega
    · have hleap : Date.IsLeap (year + 1) := ⟨h4, fun h => absurd h h100⟩
      rw [if_pos h4, if_neg h100, if_neg fun h => h100 (hera h), if_pos hleap]
      omega
  · have hplain : ¬Date.IsLeap (year + 1) := fun hleap => h4 hleap.1
    rw [if_neg h4, if_neg fun h => h4 (hcentury h), if_neg fun h => h4 (hcentury (hera h)),
      if_neg hplain]
    omega

/-- A year has at least three hundred and sixty-five days. -/
theorem le_yearStart_succ (year : Nat) : yearStart year + 365 ≤ yearStart (year + 1) := by
  rw [yearStart_succ]
  split
  · exact Nat.le_succ _
  · exact Nat.le_refl _

/-- A year has at most three hundred and sixty-six days. -/
theorem yearStart_succ_le (year : Nat) : yearStart (year + 1) ≤ yearStart year + 366 := by
  rw [yearStart_succ]
  split
  · exact Nat.le_refl _
  · exact Nat.le_succ _

theorem yearStart_mono : Monotone yearStart := by
  apply monotone_nat_of_le_succ
  intro year
  exact Nat.le_trans (Nat.le_add_right _ 365) (le_yearStart_succ year)

/-- Eras have the same number of days. -/
theorem yearStart_era (era year : Nat) :
    yearStart (year + era * 400) = daysPerEra * era + yearStart year := by
  unfold yearStart daysPerEra
  omega

/-- Within the first era, the start of a year is what the code computes. -/
theorem yearStart_of_lt {year : Nat} (h : year < 400) : yearStart year = daysBeforeYear year := by
  unfold yearStart daysBeforeYear
  omega

/-! ## The year of a day -/

theorem yearOfEra_mono : Monotone yearOfEra := by
  have hstep : Monotone fun day => day - day / 1460 + day / 36524 - day / 146096 := by
    apply monotone_nat_of_le_succ
    intro day
    -- a leap day that is taken off makes up for one day at most, and one that is put back helps
    have hcycle : (day + 1) / 1460 ≤ day / 1460 + 1 := by omega
    have hcentury : day / 36524 - day / 146096 ≤ (day + 1) / 36524 - (day + 1) / 146096 := by omega
    have hera : day / 146096 ≤ day / 36524 := by omega
    have hera' : (day + 1) / 146096 ≤ (day + 1) / 36524 := by omega
    have hle : day / 1460 ≤ day := Nat.div_le_self _ _
    show day - day / 1460 + day / 36524 - day / 146096 ≤
      day + 1 - (day + 1) / 1460 + (day + 1) / 36524 - (day + 1) / 146096
    omega
  intro day day' hle
  exact Nat.div_le_div_right (hstep hle)

/-- The first and the last days of all years of an era. -/
theorem yearOfEra_ends : ∀ year < 400, yearOfEra (yearStart year) = year ∧
    yearOfEra (yearStart (year + 1) - 1) = year := by
  decide +kernel

theorem yearOfEra_lt {day : Nat} (h : day < daysPerEra) : yearOfEra day < 400 := by
  have hlast : yearOfEra day ≤ yearOfEra 146096 := yearOfEra_mono (Nat.le_of_lt_succ h)
  exact Nat.lt_of_le_of_lt hlast (by decide)

/-- Since years follow each other, a day is between the ends of its year. -/
theorem yearStart_yearOfEra {day : Nat} (h : day < daysPerEra) :
    yearStart (yearOfEra day) ≤ day ∧ day < yearStart (yearOfEra day + 1) := by
  have hyear := yearOfEra_lt h
  constructor
  · by_contra hbefore
    -- otherwise the day would be no later than the last one of the year before
    obtain ⟨year, hprevious⟩ : ∃ year, yearOfEra day = year + 1 := by
      refine Nat.exists_eq_succ_of_ne_zero fun hzero => hbefore ?_
      rw [hzero]
      exact Nat.zero_le day
    have hle : day ≤ yearStart (year + 1) - 1 := by
      rw [hprevious] at hbefore
      omega
    have hmono := yearOfEra_mono hle
    rw [(yearOfEra_ends year (by omega)).2] at hmono
    omega
  · by_contra hbehind
    -- otherwise it would be no earlier than the first one of the year after
    have hle : yearStart (yearOfEra day + 1) ≤ day := Nat.le_of_not_lt hbehind
    have hnext : yearOfEra day + 1 < 400 := by
      by_contra hend
      have hera : yearOfEra day + 1 = 400 := by omega
      rw [hera] at hle
      exact absurd (Nat.lt_of_le_of_lt hle h) (by decide)
    have hmono := yearOfEra_mono hle
    rw [(yearOfEra_ends _ hnext).1] at hmono
    omega

/-! ## The month of a day -/

/-- The month of a day is the one that has begun and not ended by then. -/
theorem monthFromMarch_eq_iff {month day : Nat} : monthFromMarch day = month ↔
    daysBeforeMonth month ≤ day ∧ day < daysBeforeMonth (month + 1) := by
  unfold monthFromMarch daysBeforeMonth
  omega

theorem daysBeforeMonth_le {month : Nat} (h : month ≤ 11) : daysBeforeMonth month ≤ 337 := by
  unfold daysBeforeMonth
  omega

end Calendar

/-! ## Dates counted from March -/

/-- A date by the year that began with the last March. Its month and its day are counted from
zero. -/
@[ext]
structure MarchDate where
  year : Nat
  month : Nat
  day : Nat

namespace MarchDate

open Calendar

variable {d e : MarchDate}

/-- The date in a year that begins in January. -/
def toDate (d : MarchDate) : Date :=
  if d.month < 10 then ⟨d.year, d.month + 3, d.day + 1⟩ else ⟨d.year + 1, d.month - 9, d.day + 1⟩

def monthLength (d : MarchDate) : Nat := Date.monthLength d.toDate.year d.toDate.month

def number (d : MarchDate) : Nat := yearStart d.year + daysBeforeMonth d.month + d.day

/-- The month is one of the year and the day is one of the month. -/
structure InOrder (d : MarchDate) : Prop where
  month_lt : d.month < 12
  day_lt : d.day < d.monthLength

/-- From March to December, the year is the one that began with the last January. -/
theorem toDate_of_lt (h : d.month < 10) : d.toDate = ⟨d.year, d.month + 3, d.day + 1⟩ := if_pos h

theorem toDate_of_le (h : 10 ≤ d.month) : d.toDate = ⟨d.year + 1, d.month - 9, d.day + 1⟩ :=
  if_neg (Nat.not_lt.2 h)

theorem day_toDate (d : MarchDate) : d.toDate.day = d.day + 1 := by
  unfold toDate
  split
  · rfl
  · rfl

/-- A date is told by its counterpart in a year that begins in January. -/
theorem toDate_inj (hd : d.month < 12) (he : e.month < 12) (h : d.toDate = e.toDate) : d = e := by
  rcases Nat.lt_or_ge d.month 10 with hfirst | hlast
  · rw [toDate_of_lt hfirst] at h
    rcases Nat.lt_or_ge e.month 10 with hfirst' | hlast'
    · rw [toDate_of_lt hfirst', Date.mk.injEq] at h
      ext <;> omega
    · rw [toDate_of_le hlast', Date.mk.injEq] at h
      omega
  · rw [toDate_of_le hlast] at h
    rcases Nat.lt_or_ge e.month 10 with hfirst' | hlast'
    · rw [toDate_of_lt hfirst', Date.mk.injEq] at h
      omega
    · rw [toDate_of_le hlast', Date.mk.injEq] at h
      ext <;> omega

/-! ## Months and years follow each other -/

theorem monthLength_pos (d : MarchDate) : 0 < d.monthLength := by
  unfold monthLength Date.monthLength
  grind

/-- Every month but February ends where the next one begins. -/
theorem daysBeforeMonth_succ (h : d.month < 11) :
    daysBeforeMonth d.month + d.monthLength = daysBeforeMonth (d.month + 1) := by
  rcases d with ⟨year, month, day⟩
  simp only at h
  interval_cases month
  all_goals simp [monthLength, toDate, Date.monthLength, daysBeforeMonth]

/-- February ends where the next year begins. -/
theorem yearStart_february (h : d.month = 11) :
    yearStart d.year + daysBeforeMonth d.month + d.monthLength = yearStart (d.year + 1) := by
  have hlength : d.monthLength = if Date.IsLeap (d.year + 1) then 29 else 28 := by
    unfold monthLength
    rw [toDate_of_le (by omega), h]
    rfl
  have hbefore : daysBeforeMonth 11 = 337 := rfl
  rw [hlength, h, hbefore, yearStart_succ]
  split
  · rfl
  · rfl

/-- The day comes before the next month. -/
theorem InOrder.in_month (h : d.InOrder) :
    daysBeforeMonth d.month + d.day < daysBeforeMonth (d.month + 1) := by
  have hday := h.day_lt
  rcases Nat.lt_or_ge d.month 11 with hmonth | hmonth
  · have hend := daysBeforeMonth_succ hmonth
    omega
  · have hfebruary : d.month = 11 := Nat.le_antisymm (Nat.le_of_lt_succ h.month_lt) hmonth
    have hend := yearStart_february hfebruary
    have hlong := yearStart_succ_le d.year
    have hnext : daysBeforeMonth (11 + 1) = 367 := rfl
    rw [hfebruary] at hend ⊢
    omega

/-- The date comes before the next year. -/
theorem InOrder.in_year (h : d.InOrder) : d.number < yearStart (d.year + 1) := by
  have hday := h.day_lt
  unfold number
  rcases Nat.lt_or_ge d.month 11 with hmonth | hmonth
  · have hend := daysBeforeMonth_succ hmonth
    have hle : daysBeforeMonth (d.month + 1) ≤ 337 := daysBeforeMonth_le (by omega)
    have hlong := le_yearStart_succ d.year
    omega
  · have hfebruary : d.month = 11 := Nat.le_antisymm (Nat.le_of_lt_succ h.month_lt) hmonth
    have hend := yearStart_february hfebruary
    omega

/-- A day that comes before the next month and the next year is one of its month. -/
theorem inOrder_of_bounds (hmonth : d.month < 12)
    (hday : daysBeforeMonth d.month + d.day < daysBeforeMonth (d.month + 1))
    (hyear : d.number < yearStart (d.year + 1)) : d.InOrder := by
  refine ⟨hmonth, ?_⟩
  rcases Nat.lt_or_ge d.month 11 with hbefore | hlast
  · have hend := daysBeforeMonth_succ hbefore
    omega
  · have hfebruary : d.month = 11 := Nat.le_antisymm (Nat.le_of_lt_succ hmonth) hlast
    have hend := yearStart_february hfebruary
    unfold number at hyear
    omega

/-- A date that is in order is one of the calendar. -/
theorem valid_toDate (h : d.InOrder) : d.toDate.Valid where
  month_pos := by
    unfold toDate
    split
    · exact Nat.le_add_left _ _
    · simp only
      omega
  month_le := by
    have hmonth := h.month_lt
    unfold toDate
    split
    · simp only
      omega
    · simp only
      omega
  day_pos := by
    rw [day_toDate]
    exact Nat.le_add_left _ _
  day_le := by
    rw [day_toDate]
    exact h.day_lt

/-! ## Day numbers -/

/-- Of two dates with one number, neither is in an earlier year. -/
theorem InOrder.year_le (hd : d.InOrder) (h : d.number = e.number) : e.year ≤ d.year := by
  by_contra hlater
  have hend := hd.in_year
  have hstart : yearStart (d.year + 1) ≤ yearStart e.year := yearStart_mono (by omega)
  unfold number at h hend
  omega

/-- The month is found again from the day of the year. -/
theorem InOrder.monthFromMarch_eq (h : d.InOrder) :
    monthFromMarch (daysBeforeMonth d.month + d.day) = d.month :=
  monthFromMarch_eq_iff.2 ⟨Nat.le_add_right _ _, h.in_month⟩

/-- A day number is that of one date only. -/
theorem InOrder.number_inj (hd : d.InOrder) (he : e.InOrder) (h : d.number = e.number) : d = e := by
  have hyear : d.year = e.year := Nat.le_antisymm (he.year_le h.symm) (hd.year_le h)
  have hday : daysBeforeMonth d.month + d.day = daysBeforeMonth e.month + e.day := by
    unfold number at h
    rw [hyear] at h
    omega
  have hmonth : d.month = e.month := by
    rw [← hd.monthFromMarch_eq, hday, he.monthFromMarch_eq]
  rw [hmonth] at hday
  ext
  · exact hyear
  · exact hmonth
  · omega

/-! ## The next day -/

/-- Inside of a month, the next day has the next number. -/
theorem next_of_lt (h : d.day + 1 < d.monthLength) :
    d.toDate.next = { d.toDate with day := d.day + 1 + 1 } := by
  unfold Date.next
  rw [day_toDate]
  exact if_pos h

theorem next_of_last (h : d.day + 1 = d.monthLength) : d.toDate.next =
    if d.toDate.month < 12 then ⟨d.toDate.year, d.toDate.month + 1, 1⟩
    else ⟨d.toDate.year + 1, 1, 1⟩ := by
  unfold Date.next
  rw [day_toDate]
  exact if_neg (Nat.not_lt.2 (Nat.le_of_eq h.symm))

/-- The next date of the calendar has the next number. -/
theorem InOrder.exists_next (h : d.InOrder) :
    ∃ e : MarchDate, e.InOrder ∧ e.number = d.number + 1 ∧ e.toDate = d.toDate.next := by
  by_cases hwithin : d.day + 1 < d.monthLength
  · -- the day is not the last one of its month
    have hdate : toDate ⟨d.year, d.month, d.day + 1⟩ = { d.toDate with day := d.day + 1 + 1 } := by
      unfold toDate
      split
      · rfl
      · rfl
    refine ⟨⟨d.year, d.month, d.day + 1⟩, ⟨h.month_lt, ?_⟩, rfl, ?_⟩
    · unfold monthLength
      rw [hdate]
      exact hwithin
    · rw [next_of_lt hwithin]
      exact hdate
  · have hlast : d.day + 1 = d.monthLength := Nat.le_antisymm h.day_lt (Nat.le_of_not_lt hwithin)
    rcases Nat.lt_or_ge d.month 11 with hmonth | hmonth
    · -- the next month is in the same year
      refine ⟨⟨d.year, d.month + 1, 0⟩, ⟨Nat.succ_lt_succ hmonth, monthLength_pos _⟩, ?_, ?_⟩
      · have hend := daysBeforeMonth_succ hmonth
        show yearStart d.year + daysBeforeMonth (d.month + 1) + 0 = d.number + 1
        unfold number
        omega
      · rw [next_of_last hlast]
        unfold toDate
        grind
    · -- February ends and a year begins
      have hfebruary : d.month = 11 := Nat.le_antisymm (Nat.le_of_lt_succ h.month_lt) hmonth
      have hdate : d.toDate = ⟨d.year + 1, 2, d.day + 1⟩ := by
        rw [toDate_of_le (by omega), hfebruary]
      refine ⟨⟨d.year + 1, 0, 0⟩, ⟨Nat.succ_pos 11, monthLength_pos _⟩, ?_, ?_⟩
      · have hend := yearStart_february hfebruary
        have hmarch : daysBeforeMonth 0 = 0 := rfl
        show yearStart (d.year + 1) + daysBeforeMonth 0 + 0 = d.number + 1
        unfold number
        omega
      · rw [next_of_last hlast, hdate]
        rfl

/-! ## Dates by division -/

/-- The date of a day in a year. -/
def ofDayOfYear (year dayOfYear : Nat) : MarchDate :=
  ⟨year, monthFromMarch dayOfYear, dayOfYear - daysBeforeMonth (monthFromMarch dayOfYear)⟩

/-- The date with a number. -/
def ofNumber (number : Nat) : MarchDate :=
  let dayOfEra := number % daysPerEra
  let year := yearOfEra dayOfEra
  ofDayOfYear (year + number / daysPerEra * 400) (dayOfEra - daysBeforeYear year)

/-- The date of a day in a year has the number of the day. -/
theorem number_ofDayOfYear (year dayOfYear : Nat) :
    (ofDayOfYear year dayOfYear).number = yearStart year + dayOfYear := by
  rcases monthFromMarch_eq_iff.1 (rfl : monthFromMarch dayOfYear = _) with ⟨hfirst, -⟩
  unfold number ofDayOfYear
  simp only
  omega

/-- The date of a day that is inside of the year is in order. -/
theorem inOrder_ofDayOfYear {year dayOfYear : Nat}
    (h : yearStart year + dayOfYear < yearStart (year + 1)) :
    (ofDayOfYear year dayOfYear).InOrder := by
  rcases monthFromMarch_eq_iff.1 (rfl : monthFromMarch dayOfYear = _) with ⟨hfirst, hlast⟩
  have hlong := yearStart_succ_le year
  refine inOrder_of_bounds ?_ ?_ ?_
  · show monthFromMarch dayOfYear < 12
    unfold monthFromMarch
    omega
  · show daysBeforeMonth (monthFromMarch dayOfYear) +
      (dayOfYear - daysBeforeMonth (monthFromMarch dayOfYear)) < _
    rw [Nat.add_sub_cancel' hfirst]
    exact hlast
  · rw [number_ofDayOfYear]
    exact h

/-- The divisions find the year, the month and the day of a number. -/
theorem ofNumber_spec (number : Nat) :
    (ofNumber number).number = number ∧ (ofNumber number).InOrder := by
  have hera : number % daysPerEra < daysPerEra := Nat.mod_lt _ (by decide)
  have hsplit : daysPerEra * (number / daysPerEra) + number % daysPerEra = number :=
    Nat.div_add_mod number daysPerEra
  rcases yearStart_yearOfEra hera with ⟨hstart, hend⟩
  have hbefore := yearStart_of_lt (yearOfEra_lt hera)
  -- whole eras lie before the year in its own era
  have hnumber : yearStart (yearOfEra (number % daysPerEra) + number / daysPerEra * 400) +
      (number % daysPerEra - daysBeforeYear (yearOfEra (number % daysPerEra))) = number := by
    rw [yearStart_era]
    omega
  have hnext : yearStart (yearOfEra (number % daysPerEra) + number / daysPerEra * 400 + 1) =
      daysPerEra * (number / daysPerEra) + yearStart (yearOfEra (number % daysPerEra) + 1) := by
    rw [Nat.add_right_comm, yearStart_era]
  refine ⟨(number_ofDayOfYear _ _).trans hnumber, inOrder_ofDayOfYear ?_⟩
  rw [hnumber, hnext]
  omega

/-- The next number is that of the next day. -/
theorem ofNumber_succ (number : Nat) :
    (ofNumber (number + 1)).toDate = (ofNumber number).toDate.next := by
  rcases ofNumber_spec number with ⟨hnumber, horder⟩
  rcases ofNumber_spec (number + 1) with ⟨hnumber', horder'⟩
  rcases horder.exists_next with ⟨e, he, hsucc, hnext⟩
  -- the date found for the next number has to be the next date
  have hsame : ofNumber (number + 1) = e := horder'.number_inj he (by rw [hnumber', hsucc, hnumber])
  rw [hsame, hnext]

/-- No date has two numbers. -/
theorem toDate_ofNumber_inj {m n : Nat} (h : (ofNumber m).toDate = (ofNumber n).toDate) :
    m = n := by
  rcases ofNumber_spec m with ⟨hm, horder⟩
  rcases ofNumber_spec n with ⟨hn, horder'⟩
  rw [← hm, toDate_inj horder.month_lt horder'.month_lt h, hn]

end MarchDate

namespace Calendar

open MarchDate

/-- The dates by number are those that are counted from the start of 1970. -/
theorem toDate_ofNumber (days : Nat) : (ofNumber (days + epochDay)).toDate = counted days := by
  induction days with
  | zero => rfl
  | succ days ih =>
    rw [Nat.add_right_comm, ofNumber_succ, ih]
    rfl

/-- Counting on from the start of 1970 yields dates of the calendar only. -/
theorem valid_counted (days : Nat) : (counted days).Valid := by
  rw [← toDate_ofNumber]
  exact valid_toDate (ofNumber_spec _).2

/-- No date is counted twice. -/
theorem counted_inj {m n : Nat} (h : counted m = counted n) : m = n := by
  rw [← toDate_ofNumber, ← toDate_ofNumber] at h
  exact Nat.add_right_cancel (toDate_ofNumber_inj h)

/-- The date that is computed is the one that is counted, as far as its year fits. -/
theorem dateOfDays_eq (days : Nat) :
    dateOfDays days = { counted days with year := (counted days).year % UInt32.size } := by
  have hmonth := (ofNumber_spec (days + epochDay)).2.month_lt
  rw [← toDate_ofNumber]
  obtain ⟨d, hd⟩ : ∃ d, d = ofNumber (days + epochDay) := ⟨_, rfl⟩
  have hdate : dateOfDays days =
      ⟨(d.year + if (if d.month < 10 then d.month + 3 else d.month - 9) ≤ 2 then 1 else 0) %
        UInt32.size, if d.month < 10 then d.month + 3 else d.month - 9, d.day + 1⟩ := by
    rw [hd]
    rfl
  rw [← hd] at hmonth ⊢
  rcases Nat.lt_or_ge d.month 10 with hfirst | hlast
  · rw [hdate, toDate_of_lt hfirst, if_pos hfirst, if_neg (by omega)]
    rfl
  · rw [hdate, toDate_of_le hlast, if_neg (Nat.not_lt.2 hlast), if_pos (by omega)]

/-- As long as the year fits, the computed date is the one that is counted. -/
theorem dateOfDays_of_lt {days : Nat} (h : (counted days).year < UInt32.size) :
    dateOfDays days = counted days := by
  rw [dateOfDays_eq, Nat.mod_eq_of_lt h]

/-! ## Subtractions -/

/-- A subtraction of unsigned numbers, which must not go below zero. -/
def minus? (a b : Nat) : Option Nat := if b ≤ a then some (a - b) else none

theorem minus?_bind {α : Type} {a b : Nat} (h : b ≤ a) (f : Nat → Option α) :
    minus? a b >>= f = f (a - b) := by
  unfold minus?
  rw [if_pos h]
  rfl

/-- The date of a day number, unless one of the subtractions on the way goes below zero. -/
def checkedDate (days : Nat) : Option Date := do
  let era := (days + epochDay) / daysPerEra
  let dayOfEra := (days + epochDay) % daysPerEra
  let withoutLeapDays ← minus? dayOfEra (dayOfEra / 1460)
  let corrected ← minus? (withoutLeapDays + dayOfEra / 36524) (dayOfEra / 146096)
  let year := corrected / 365
  let before ← minus? (365 * year + year / 4) (year / 100)
  let dayOfYear ← minus? dayOfEra before
  let march := monthFromMarch dayOfYear
  let day ← minus? dayOfYear (daysBeforeMonth march)
  let month ← if march < 10 then some (march + 3) else minus? march 9
  let carry := if month ≤ 2 then 1 else 0
  return ⟨(year + era * 400 + carry) % UInt32.size, month, day + 1⟩

/-- None of the subtractions goes below zero. -/
theorem checkedDate_eq (days : Nat) : checkedDate days = some (dateOfDays days) := by
  have hera : (days + epochDay) % daysPerEra < daysPerEra := Nat.mod_lt _ (by decide)
  unfold checkedDate dateOfDays
  generalize (days + epochDay) % daysPerEra = dayOfEra at hera
  have hleap : dayOfEra / 1460 ≤ dayOfEra := Nat.div_le_self _ _
  have hera' : dayOfEra / 146096 ≤ dayOfEra - dayOfEra / 1460 + dayOfEra / 36524 := by omega
  have hcentury : yearOfEra dayOfEra / 100 ≤ 365 * yearOfEra dayOfEra + yearOfEra dayOfEra / 4 := by
    omega
  have hyear : daysBeforeYear (yearOfEra dayOfEra) ≤ dayOfEra := by
    rw [← yearStart_of_lt (yearOfEra_lt hera)]
    exact (yearStart_yearOfEra hera).1
  have hmonth : daysBeforeMonth (monthFromMarch (dayOfEra - daysBeforeYear (yearOfEra dayOfEra))) ≤
      dayOfEra - daysBeforeYear (yearOfEra dayOfEra) := (monthFromMarch_eq_iff.1 rfl).1
  unfold daysBeforeYear yearOfEra at hyear hmonth
  unfold yearOfEra at hcentury
  simp only [minus?_bind hleap, minus?_bind hera', minus?_bind hcentury, minus?_bind hyear,
    minus?_bind hmonth]
  split
  next hfirst =>
    simp [yearOfEra, daysBeforeYear, hfirst]
  next hlast =>
    rw [minus?_bind (by omega)]
    simp [yearOfEra, daysBeforeYear, hlast]

/-! ## Timestamps -/

/-- The fields of a timestamp are determined by its text. -/
theorem timestamp_fields {s t m n : Nat} (h : timestamp s m = timestamp t n) :
    dateOfDays (s / 86400) = dateOfDays (t / 86400) ∧ s / 3600 % 24 = t / 3600 % 24 ∧
      s / 60 % 60 = t / 60 % 60 ∧ s % 60 = t % 60 ∧ m / 1000000 = n / 1000000 := by
  unfold timestamp at h
  simp only [String.append_assoc] at h
  rcases Text.zeros_append_inj rfl (by decide : '-'.isDigit = false) h with ⟨hyear, h⟩
  rcases Text.zeros_append_inj rfl (by decide : '-'.isDigit = false) h with ⟨hmonth, h⟩
  rcases Text.zeros_append_inj rfl (by decide : ' '.isDigit = false) h with ⟨hday, h⟩
  rcases Text.zeros_append_inj rfl (by decide : ':'.isDigit = false) h with ⟨hhour, h⟩
  rcases Text.zeros_append_inj rfl (by decide : ':'.isDigit = false) h with ⟨hminute, h⟩
  rcases Text.zeros_append_inj rfl (by decide : '.'.isDigit = false) h with ⟨hsecond, h⟩
  refine ⟨?_, hhour, hminute, hsecond, Text.zeros_inj h⟩
  ext
  · exact hyear
  · exact hmonth
  · exact hday

/-- Moments with the same text are the same to the millisecond. -/
theorem seconds_of_timestamp {s t m n : Nat} (hs : (counted (s / 86400)).year < UInt32.size)
    (ht : (counted (t / 86400)).year < UInt32.size) (h : timestamp s m = timestamp t n) :
    s = t ∧ m / 1000000 = n / 1000000 := by
  rcases timestamp_fields h with ⟨hdate, hhour, hminute, hsecond, hmillis⟩
  rw [dateOfDays_of_lt hs, dateOfDays_of_lt ht] at hdate
  have hdays : s / 86400 = t / 86400 := counted_inj hdate
  refine ⟨?_, hmillis⟩
  omega

/-- The dates of day numbers are those of the calendar, from the start of 1970 up to the last day
whose year fits in thirty-two bits, and no subtraction goes below zero on the way to any of them. In
these years the text of a moment determines its seconds and its milliseconds. -/
theorem dates_follow_calendar :
    dateOfDays 0 = ⟨1970, 1, 1⟩ ∧
    (∀ n, (counted n).year < 2 ^ 32 →
      dateOfDays n = counted n ∧ (dateOfDays n).Valid ∧
      ((counted (n + 1)).year < 2 ^ 32 → dateOfDays (n + 1) = (dateOfDays n).next)) ∧
    (∀ n, checkedDate n = some (dateOfDays n)) ∧
    ∀ s t m n, (counted (s / 86400)).year < 2 ^ 32 → (counted (t / 86400)).year < 2 ^ 32 →
      timestamp s m = timestamp t n → s = t ∧ m / 1000000 = n / 1000000 := by
  refine ⟨rfl, fun n hyear => ?_, checkedDate_eq, fun s t m n => seconds_of_timestamp⟩
  have hdate : dateOfDays n = counted n := dateOfDays_of_lt hyear
  refine ⟨hdate, ?_, fun hnext => ?_⟩
  · rw [hdate]
    exact valid_counted n
  · rw [dateOfDays_of_lt hnext, hdate]
    rfl

/-- The last day whose year fits follows the one before it. Two moments of its last second that
differ by less than a millisecond have the same text. -/
theorem dates_follow_calendar_last :
    (counted 1568703873080).year < 2 ^ 32 ∧ (counted 1568703873081).year < 2 ^ 32 ∧
    (dateOfDays 1568703873080).Valid ∧
    dateOfDays 1568703873081 = (dateOfDays 1568703873080).next ∧
    dateOfDays 1568703873081 = ⟨4294967295, 12, 31⟩ ∧
    timestamp 135536014634284799 999000000 = timestamp 135536014634284799 999999999 ∧
    999000000 / 1000000 = 999999999 / 1000000 := by
  have hbefore : (counted 1568703873080).year < 2 ^ 32 := by
    rw [← toDate_ofNumber]
    decide
  have hlast : (counted 1568703873081).year < 2 ^ 32 := by
    rw [← toDate_ofNumber]
    decide
  have hsame : timestamp 135536014634284799 999000000 = timestamp 135536014634284799 999999999 :=
    rfl
  rcases dates_follow_calendar with ⟨-, hdates, -, hmoments⟩
  rcases hdates _ hbefore with ⟨-, hvalid, hnext⟩
  exact ⟨hbefore, hlast, hvalid, hnext hlast, rfl, hsame,
    (hmoments 135536014634284799 135536014634284799 _ _ hlast hlast hsame).2⟩

end Calendar
end StackMachine
