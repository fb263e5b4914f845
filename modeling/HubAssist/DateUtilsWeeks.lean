import HubAssist.DateUtils
import HubAssist.IsoWeek
import Mathlib.Data.List.Basic

/-! The ISO weeks of the frontend. The first Thursday of a year is looked for from a local midnight,
which in UTC is on the day before when local time is ahead. -/
namespace HubAssist.DateUtils
open IsoDate UtcClock IsoWeek

/-- The day number of an instant. -/
def utcDay (t : ℤ) : ℤ := t/millisPerDay

/-- Local time is at most 12 hours behind UTC, and 14 hours ahead of it. -/
def OffsetOk (offset : ℤ) : Prop := -(12*millisPerHour) ≤ offset ∧ offset ≤ 14*millisPerHour

def YearOk (t : ℤ) : Prop := 1000 ≤ getUTCFullYear t ∧ getUTCFullYear t ≤ 9999

instance (offset : ℤ) : Decidable (OffsetOk offset) := inferInstanceAs (Decidable (_ ∧ _))

instance (t : ℤ) : Decidable (YearOk t) := inferInstanceAs (Decidable (_ ∧ _))

/-- Local midnight of 4 January is on a Sunday in UTC, while 4 January is a Monday. -/
def MissesFirstThursday (offset t : ℤ) : Prop :=
  0 < offset ∧ weekday (newYear (weekYear (utcDay t))+3) = 0

instance (offset t : ℤ) : Decidable (MissesFirstThursday offset t) :=
  inferInstanceAs (Decidable (_ ∧ _))

/-- The number and the year of the week are those of ISO 8601. -/
def WeekCorrect (now offset t : ℤ) : Prop :=
  getISOWeek offset (some t) = weekNumber (utcDay t) ∧
    getISOWeekYear now (some t) = weekYear (utcDay t)

/-- The bounds are the first and the last millisecond of the week, from Monday to Sunday. -/
def BoundsCorrect (t : ℤ) : Prop :=
  ∃ bounds, getISOWeekBounds (some t) = some bounds ∧ bounds.start ≤ t ∧ t ≤ bounds.finish ∧
    bounds.start = monday (utcDay t)*millisPerDay ∧
    bounds.finish = (monday (utcDay t)+7)*millisPerDay-1

/-- The instants with the key of an instant are those with its bounds. -/
def KeyTellsWeek (now offset t : ℤ) : Prop :=
  ∀ t', YearOk t' →
    (getISOWeekKey now offset (some t) = getISOWeekKey now offset (some t') ↔
      getISOWeekBounds (some t) = getISOWeekBounds (some t'))

theorem getUTCDay_eq (t : ℤ) : (getUTCDay t+6)%7 = weekday (utcDay t) := by
  unfold getUTCDay weekday utcDay
  omega

/-- An instant is moved to the Thursday of its week. -/
theorem setUTCDate_thursday (t : ℤ) :
    setUTCDate t (getUTCDate t-(getUTCDay t+6)%7+3) =
      thursday (utcDay t)*millisPerDay+t%millisPerDay := by
  have hday : getUTCDate t-(getUTCDay t+6)%7+3 = getUTCDate t+(3-weekday (utcDay t)) := by
    rw [getUTCDay_eq]
    ring
  rw [hday, setUTCDate_getUTCDate, thursday, monday, utcDay]
  ring

theorem utcDay_add {n r : ℤ} (h : 0 ≤ r ∧ r < millisPerDay) :
    utcDay (n*millisPerDay+r) = n ∧ (n*millisPerDay+r)%millisPerDay = r := by
  unfold utcDay millisPerDay at *
  omega

theorem mod_bounds (t : ℤ) : 0 ≤ t%millisPerDay ∧ t%millisPerDay < millisPerDay := by
  unfold millisPerDay
  omega

theorem getUTCFullYear_eq (t : ℤ) : getUTCFullYear t = (civil (utcDay t)).year := rfl

theorem getISOWeekYear_eq (now t : ℤ) : getISOWeekYear now (some t) = weekYear (utcDay t) := by
  simp only [getISOWeekYear, setUTCDate_thursday]
  rw [getUTCFullYear_eq, (utcDay_add (mod_bounds t)).1, weekYear]

/-- Where local midnight of 4 January is in UTC. -/
theorem newLocalDate_eq {offset year : ℤ} (hoffset : OffsetOk offset) (hyear : 100 ≤ year) :
    ∃ r, 0 ≤ r ∧ r < millisPerDay ∧ newLocalDate offset year 0 4 =
      (if 0 < offset then newYear year+2 else newYear year+3)*millisPerDay+r := by
  have hday : dayNumber ⟨year, 0+1, 4⟩ = newYear year+3 := by
    simp only [newYear, dayNumber]
    omega
  have hlate : ¬(0 ≤ year ∧ year ≤ 99) := by omega
  simp only [newLocalDate, if_neg hlate, hday]
  unfold OffsetOk millisPerHour at hoffset
  unfold millisPerDay
  split_ifs with h
  · exact ⟨86400000-offset, by omega, by omega, by ring⟩
  · exact ⟨-offset, by omega, by omega, by ring⟩

/-- Less than a day does not move the rounded number of weeks. -/
theorem roundQuotient_weeks {k r r' : ℤ} (hr : 0 ≤ r ∧ r < millisPerDay)
    (hr' : 0 ≤ r' ∧ r' < millisPerDay) (n : ℤ) :
    roundQuotient ((n+7*k)*millisPerDay+r-(n*millisPerDay+r')) (86400000*7) = k := by
  unfold roundQuotient millisPerDay at *
  omega

/-- The week is the one of ISO 8601, or the one after it where the first Thursday is missed. -/
theorem getISOWeek_eq {offset t : ℤ} (hoffset : OffsetOk offset)
    (hyear : 100 ≤ weekYear (utcDay t)) : getISOWeek offset (some t) =
      weekNumber (utcDay t)+if MissesFirstThursday offset t then 1 else 0 := by
  obtain ⟨r, hr, hlt, hlocal⟩ := newLocalDate_eq hoffset hyear
  have hfull : getUTCFullYear (thursday (utcDay t)*millisPerDay+t%millisPerDay) =
      weekYear (utcDay t) := by
    rw [getUTCFullYear_eq, (utcDay_add (mod_bounds t)).1, weekYear]
  have hthursday := thursday_eq (utcDay t)
  have hpred := thursday_pred (newYear (weekYear (utcDay t))+3)
  have hbefore : newYear (weekYear (utcDay t))+3-1 = newYear (weekYear (utcDay t))+2 := by ring
  rw [hbefore] at hpred
  simp only [getISOWeek, setUTCDate_thursday, hfull, hlocal]
  rw [(utcDay_add ⟨hr, hlt⟩).1, (utcDay_add ⟨hr, hlt⟩).2]
  by_cases hpos : 0 < offset
  · by_cases hmonday : weekday (newYear (weekYear (utcDay t))+3) = 0
    · -- the Thursday found is a week too early
      rw [if_pos hmonday] at hpred
      have hmoved : thursday (utcDay t) = thursday (newYear (weekYear (utcDay t))+2)+
          7*weekNumber (utcDay t) := by omega
      have hmisses : MissesFirstThursday offset t := ⟨hpos, hmonday⟩
      rw [if_pos hpos, if_pos hmisses, hmoved, roundQuotient_weeks (mod_bounds t) ⟨hr, hlt⟩]
      ring
    · have hfinds : ¬MissesFirstThursday offset t := fun h => hmonday h.2
      rw [if_neg hmonday] at hpred
      rw [if_pos hpos, if_neg hfinds, hpred, hthursday,
        roundQuotient_weeks (mod_bounds t) ⟨hr, hlt⟩]
      ring
  · have hfinds : ¬MissesFirstThursday offset t := fun h => hpos h.1
    rw [if_neg hpos, if_neg hfinds, hthursday, roundQuotient_weeks (mod_bounds t) ⟨hr, hlt⟩]
    ring

theorem weekYear_bounds {t : ℤ} (h : YearOk t) :
    999 ≤ weekYear (utcDay t) ∧ weekYear (utcDay t) ≤ 10000 := by
  have hnear := weekYear_near (utcDay t)
  rw [← getUTCFullYear_eq] at hnear
  unfold YearOk at h
  omega

theorem getISOWeekBounds_eq (t : ℤ) : getISOWeekBounds (some t) =
    some ⟨monday (utcDay t)*millisPerDay, (monday (utcDay t)+7)*millisPerDay-1⟩ := by
  have hback : getUTCDate t-(getUTCDay t+6)%7 = getUTCDate t+(-weekday (utcDay t)) := by
    rw [getUTCDay_eq]
    ring
  have hstart : setUTCTime (setUTCDate t (getUTCDate t-(getUTCDay t+6)%7)) 0 0 0 0 =
      monday (utcDay t)*millisPerDay := by
    rw [hback, setUTCDate_getUTCDate]
    unfold setUTCTime setUTCHours monday utcDay millisPerHour millisPerDay
    omega
  have hfinish : setUTCTime (setUTCDate (monday (utcDay t)*millisPerDay)
      (getUTCDate (monday (utcDay t)*millisPerDay)+6)) 23 59 59 999 =
        (monday (utcDay t)+7)*millisPerDay-1 := by
    rw [setUTCDate_getUTCDate]
    unfold setUTCTime setUTCHours millisPerHour millisPerDay
    omega
  simp only [getISOWeekBounds, Option.bind_eq_bind, Option.bind_some, Option.pure_def, hstart,
    hfinish]

theorem boundsCorrect (t : ℤ) : BoundsCorrect t := by
  have hweekday := weekday_bounds (utcDay t)
  refine ⟨_, getISOWeekBounds_eq t, ?_, ?_, rfl, rfl⟩
  · unfold monday utcDay millisPerDay at *
    dsimp only
    omega
  · unfold monday utcDay millisPerDay at *
    dsimp only
    omega

theorem bounds_eq_iff (t t' : ℤ) : getISOWeekBounds (some t) = getISOWeekBounds (some t') ↔
    monday (utcDay t) = monday (utcDay t') := by
  rw [getISOWeekBounds_eq, getISOWeekBounds_eq]
  constructor
  · intro h
    have hstart := congrArg Bounds.start (Option.some.inj h)
    unfold millisPerDay at hstart
    dsimp only at hstart
    omega
  · intro h
    rw [h]

theorem toList_toString {n : ℤ} (h : 0 ≤ n) : (toString n).toList = Nat.toDigits 10 n.toNat := by
  rw [Int.toString_eq_repr, Int.repr_eq_if, if_pos h, Nat.toList_repr]

theorem hyphen_not_mem {n : ℤ} (h : 0 ≤ n) : '-' ∉ (toString n).toList := by
  intro hmem
  rw [toList_toString h] at hmem
  exact absurd (Nat.isDigit_of_mem_toDigits (by decide) (by decide) hmem) (by decide)

theorem hyphen_not_mem_padStart {n : ℤ} (h : 0 ≤ n) (k : ℕ) :
    '-' ∉ padStart k '0' (toString n).toList := by
  intro hmem
  rcases List.mem_append.mp hmem with hzero | hdigit
  · exact absurd (List.eq_of_mem_replicate hzero) (by decide)
  · exact hyphen_not_mem h hdigit

/-- A number is told by its digits, with zeros in front or not. -/
theorem padStart_inj {n n' : ℤ} (h : 0 ≤ n) (h' : 0 ≤ n') (k : ℕ)
    (heq : padStart k '0' (toString n).toList = padStart k '0' (toString n').toList) : n = n' := by
  have hvalue (m : ℤ) (hm : 0 ≤ m) :
      Nat.ofDigitChars 10 (padStart k '0' (toString m).toList) 0 = m.toNat := by
    rw [padStart, Nat.ofDigitChars_append, Nat.ofDigitChars_replicate_zero, Nat.mul_zero,
      toList_toString hm, Nat.ofDigitChars_ten_toDigits]
  have hnat : n.toNat = n'.toNat := by rw [← hvalue n h, ← hvalue n' h', heq]
  omega

theorem getISOWeek_nonneg {offset t : ℤ} (hoffset : OffsetOk offset) (ht : YearOk t) :
    0 ≤ getISOWeek offset (some t) := by
  have hyear := weekYear_bounds ht
  have hnumber := (weekNumber_bounds (utcDay t)).1
  rw [getISOWeek_eq hoffset (by omega)]
  split_ifs <;> omega

theorem getISOWeekKey_eq_iff {now offset t t' : ℤ} (hoffset : OffsetOk offset) (ht : YearOk t)
    (ht' : YearOk t') : getISOWeekKey now offset (some t) = getISOWeekKey now offset (some t') ↔
      weekYear (utcDay t) = weekYear (utcDay t') ∧
        getISOWeek offset (some t) = getISOWeek offset (some t') := by
  have hyear : 0 ≤ weekYear (utcDay t) := by
    have hbounds := weekYear_bounds ht
    omega
  have hyear' : 0 ≤ weekYear (utcDay t') := by
    have hbounds := weekYear_bounds ht'
    omega
  have hweek := getISOWeek_nonneg hoffset ht
  have hweek' := getISOWeek_nonneg hoffset ht'
  simp only [getISOWeekKey, getISOWeekYear_eq]
  constructor
  · intro h
    have hbehind : '-' ∉ 'W' :: padStart 2 '0' (toString (getISOWeek offset (some t))).toList := by
      simpa using hyphen_not_mem_padStart hweek 2
    obtain ⟨htext, _, hrest⟩ :=
      (List.append_cons_inj_of_notMem (hyphen_not_mem hyear) hbehind).mp h
    exact ⟨padStart_inj hyear hyear' 0 (by simpa [padStart] using htext),
      padStart_inj hweek hweek' 2 (List.cons.inj hrest).2⟩
  · rintro ⟨hyears, hweeks⟩
    rw [hyears, hweeks]

/-- Instants have one key exactly when they have one week. -/
theorem key_iff_bounds {now offset t t' : ℤ} (hoffset : OffsetOk offset) (ht : YearOk t)
    (ht' : YearOk t') : getISOWeekKey now offset (some t) = getISOWeekKey now offset (some t') ↔
      getISOWeekBounds (some t) = getISOWeekBounds (some t') := by
  have hyear := weekYear_bounds ht
  have hyear' := weekYear_bounds ht'
  rw [getISOWeekKey_eq_iff hoffset ht ht', bounds_eq_iff, ← thursday_eq_iff, thursday_eq_iff_week,
    getISOWeek_eq hoffset (by omega), getISOWeek_eq hoffset (by omega)]
  apply and_congr_right
  intro hyears
  -- whether the first Thursday is missed depends on the year alone
  have hsame : MissesFirstThursday offset t ↔ MissesFirstThursday offset t' := by
    rw [MissesFirstThursday, hyears, MissesFirstThursday]
  by_cases hmisses : MissesFirstThursday offset t
  · rw [if_pos hmisses, if_pos (hsame.mp hmisses)]
    exact Int.add_left_inj 1
  · rw [if_neg hmisses, if_neg fun h => hmisses (hsame.mpr h)]
    exact Int.add_left_inj 0

/-- For an instant, the number and the year of the week are those of ISO 8601, its bounds are those
of its week, and it shares its key with the instants of this week alone, exactly when local time is
not ahead of UTC or 4 January of the year of the week is no Monday. -/
theorem isoWeeks_iff (now offset t : ℤ) (hoffset : OffsetOk offset) (ht : YearOk t) :
    (WeekCorrect now offset t ∧ BoundsCorrect t ∧ KeyTellsWeek now offset t) ↔
      ¬MissesFirstThursday offset t := by
  have hyear := weekYear_bounds ht
  have hweek := getISOWeek_eq hoffset (by omega) (t := t)
  constructor
  · rintro ⟨⟨hcorrect, _⟩, _⟩ hmisses
    rw [hweek, if_pos hmisses] at hcorrect
    omega
  · intro hfinds
    rw [if_neg hfinds, Int.add_zero] at hweek
    exact ⟨⟨hweek, getISOWeekYear_eq now t⟩, boundsCorrect t,
      fun t' ht' => key_iff_bounds hoffset ht ht'⟩

/-- On 2 July 2024, an hour ahead of UTC. -/
theorem isoWeeks_hour_ahead : WeekCorrect 0 3600000 1719878400000 ∧ BoundsCorrect 1719878400000 ∧
    KeyTellsWeek 0 3600000 1719878400000 :=
  (isoWeeks_iff 0 3600000 1719878400000 (by decide) (by decide)).mpr (by decide)

/-- On 15 June 2021, which is in week 24, an hour ahead of UTC: 4 January 2021 is a Monday. -/
theorem week_too_high : getISOWeek 3600000 (some 1623715200000) = 25 ∧
    weekNumber (utcDay 1623715200000) = 24 ∧
    ¬(WeekCorrect 0 3600000 1623715200000 ∧ BoundsCorrect 1623715200000 ∧
      KeyTellsWeek 0 3600000 1623715200000) := by
  have hweek : getISOWeek 3600000 (some 1623715200000) = 25 := by decide
  have hnumber : weekNumber (utcDay 1623715200000) = 24 := by decide
  refine ⟨hweek, hnumber, ?_⟩
  rintro ⟨⟨hcorrect, _⟩, _⟩
  rw [hweek, hnumber] at hcorrect
  exact absurd hcorrect (by decide)

end HubAssist.DateUtils
