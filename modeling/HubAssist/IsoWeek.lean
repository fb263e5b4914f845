import HubAssist.IsoDate

/-! The weeks of ISO 8601, which begin on Mondays. A week belongs to the year of its Thursday, and
counts from 1 the Thursdays of this year. Days are numbered from 1 January 1970. -/
namespace HubAssist.IsoWeek
open IsoDate

/-- The day of the week, from 0 for Monday: 1 January 1970 was a Thursday. -/
def weekday (n : ℤ) : ℤ := (n+3)%7

def monday (n : ℤ) : ℤ := n-weekday n

def thursday (n : ℤ) : ℤ := monday n+3

/-- The first day of a year. -/
def newYear (year : ℤ) : ℤ := dayNumber ⟨year, 1, 1⟩

def weekYear (n : ℤ) : ℤ := (civil (thursday n)).year

/-- How many Thursdays of the year there are before the one of the week, and one. -/
def weekNumber (n : ℤ) : ℤ := (thursday n-newYear (weekYear n))/7+1

theorem newYear_eq (year : ℤ) :
    newYear year = 365*(year-1)+(year-1)/4-(year-1)/100+(year-1)/400+306-epochShift := by
  simp only [newYear, dayNumber]
  omega

/-- The year of a day is the one whose first day is the last before it. -/
theorem newYear_le_civil (n : ℤ) :
    newYear (civil n).year ≤ n ∧ n < newYear ((civil n).year+1) := by
  have hnumber := dayNumber_civil n
  have hmonth := civil_month n
  have hday := civil_day n
  rw [newYear_eq, newYear_eq]
  generalize civil n = c at *
  obtain ⟨year, month, day⟩ := c
  simp only [dayNumber] at hnumber hmonth hday ⊢
  by_cases h : month ≤ 2
  · simp only [if_pos h] at hnumber
    omega
  · simp only [if_neg h] at hnumber
    omega

theorem weekday_bounds (n : ℤ) : 0 ≤ weekday n ∧ weekday n ≤ 6 := by
  unfold weekday
  omega

theorem thursday_eq_iff {n n' : ℤ} : thursday n = thursday n' ↔ monday n = monday n' := by
  unfold thursday
  omega

/-- The day before a Monday is in the week before. -/
theorem thursday_pred (n : ℤ) :
    thursday (n-1) = if weekday n = 0 then thursday n-7 else thursday n := by
  unfold thursday monday weekday
  split_ifs <;> omega

/-- The first Thursday of a year is that of the week with 4 January. -/
theorem first_thursday (year : ℤ) : newYear year ≤ thursday (newYear year+3) ∧
    thursday (newYear year+3) < newYear year+7 := by
  unfold thursday monday weekday
  omega

/-- The Thursday of a week is told by the year and the number of the week. -/
theorem thursday_eq (n : ℤ) :
    thursday n = thursday (newYear (weekYear n)+3)+7*(weekNumber n-1) := by
  have hfirst := first_thursday (weekYear n)
  have hle := (newYear_le_civil (thursday n)).1
  have hmod (m : ℤ) : thursday m%7 = 0 := by
    unfold thursday monday weekday
    omega
  have hn := hmod n
  have hm := hmod (newYear (weekYear n)+3)
  unfold weekNumber
  unfold weekYear at *
  omega

theorem thursday_eq_iff_week {n n' : ℤ} :
    thursday n = thursday n' ↔ weekYear n = weekYear n' ∧ weekNumber n = weekNumber n' := by
  constructor
  · intro h
    have hyear : weekYear n = weekYear n' := by rw [weekYear, h, weekYear]
    exact ⟨hyear, by rw [weekNumber, h, hyear, weekNumber]⟩
  · rintro ⟨hyear, hnumber⟩
    rw [thursday_eq n, thursday_eq n', hyear, hnumber]

theorem weekNumber_bounds (n : ℤ) : 1 ≤ weekNumber n ∧ weekNumber n ≤ 53 := by
  obtain ⟨hle, hlt⟩ := newYear_le_civil (thursday n)
  have hnext := newYear_eq ((civil (thursday n)).year+1)
  have hyear := newYear_eq (civil (thursday n)).year
  unfold weekNumber weekYear
  omega

/-- A week belongs to the year of its days, or to one next to it. -/
theorem weekYear_near (n : ℤ) :
    (civil n).year-1 ≤ weekYear n ∧ weekYear n ≤ (civil n).year+1 := by
  obtain ⟨hle, hlt⟩ := newYear_le_civil n
  obtain ⟨hle', hlt'⟩ := newYear_le_civil (thursday n)
  have hnear : n-3 ≤ thursday n ∧ thursday n ≤ n+3 := by
    unfold thursday monday weekday
    omega
  rw [newYear_eq] at hle hlt hle' hlt'
  unfold weekYear
  omega

theorem monday_monday (n : ℤ) : monday (monday n) = monday n := by
  unfold monday weekday
  omega

/-- The year one begins with a week. -/
theorem firstDay_le_thursday {n : ℤ} (h : firstDay ≤ n) : firstDay ≤ thursday n := by
  unfold firstDay thursday monday weekday at *
  omega

end HubAssist.IsoWeek
