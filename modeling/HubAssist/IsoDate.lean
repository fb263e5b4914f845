import HubAssist.FixedDigits
import Mathlib.Tactic.Linarith

/-! Calendar dates as JavaScript's `Date.prototype.toISOString` writes them and `Date.parse` reads
them back. A time is a number of milliseconds since 1970. -/
namespace HubAssist.IsoDate
open FixedDigits

structure Civil where
  year : ℤ
  month : ℤ
  day : ℤ

/-- Days from 1 March of the year zero to 1 January 1970. -/
def epochShift : ℤ := 719468

/-- The date of a day number. Years are counted from March, in cycles of 400 years, then of 100,
of 4 and of one; the last cycle of each kind is a day longer. -/
def civil (dayNumber : ℤ) : Civil :=
  -- the leap day ends a year that starts in March, so it never shifts a month
  let d := dayNumber+epochShift
  let era := d/146097
  let r := d%146097
  let century := min (r/36524) 3
  let r := r-century*36524
  let quad := r/1461
  let r := r-quad*1461
  let single := min (r/365) 3
  let yearDay := r-single*365
  let month := (5*yearDay+2)/153
  let year := era*400+century*100+quad*4+single
  { year := if month < 10 then year else year+1
    month := if month < 10 then month+3 else month-9
    day := yearDay-(153*month+2)/5+1 }

/-- The day number of a date; a day past the end of its month runs into the next. -/
def dayNumber (c : Civil) : ℤ :=
  let year := if c.month ≤ 2 then c.year-1 else c.year
  let month := if c.month ≤ 2 then c.month+9 else c.month-3
  365*year+year/4-year/100+year/400+(153*month+2)/5+c.day-1-epochShift

/-- The days before a year, from its place in the cycles. -/
theorem days_before_year {era century quad single : ℤ} (hc : 0 ≤ century ∧ century ≤ 3)
    (hq : 0 ≤ quad ∧ quad ≤ 24) (hs : 0 ≤ single ∧ single ≤ 3) :
    365*(era*400+century*100+quad*4+single)+(era*400+century*100+quad*4+single)/4-
      (era*400+century*100+quad*4+single)/100+(era*400+century*100+quad*4+single)/400 =
        era*146097+century*36524+quad*1461+single*365 := by
  have h4 : (era*400+century*100+quad*4+single)/4 = era*100+century*25+quad := by omega
  have h100 : (era*400+century*100+quad*4+single)/100 = era*4+century := by omega
  have h400 : (era*400+century*100+quad*4+single)/400 = era := by omega
  rw [h4, h100, h400]
  ring

/-- A date made of a year from March, a month from March and a day has the day number that its
parts say. -/
theorem dayNumber_mk (year month day : ℤ) (hm : 0 ≤ month ∧ month ≤ 11) :
    dayNumber ⟨if month < 10 then year else year+1,
        if month < 10 then month+3 else month-9, day⟩ =
      365*year+year/4-year/100+year/400+(153*month+2)/5+day-1-epochShift := by
  unfold dayNumber
  by_cases h : month < 10
  · have h3 : ¬month+3 ≤ 2 := by omega
    have hmonth : month+3-3 = month := by omega
    simp only [if_pos h, if_neg h3, hmonth]
  · have h3 : month-9 ≤ 2 := by omega
    have hmonth : month-9+9 = month := by omega
    have hyear : year+1-1 = year := by omega
    simp only [if_neg h, if_pos h3, hmonth, hyear]

theorem dayNumber_civil (n : ℤ) : dayNumber (civil n) = n := by
  simp only [civil]
  -- each cycle is cut off in turn, with bounds for the place in it and for what is left
  generalize hd : n+epochShift = d
  have hera : d = d/146097*146097+d%146097 := by omega
  have hr : 0 ≤ d%146097 ∧ d%146097 < 146097 := by omega
  generalize d/146097 = era at *
  generalize d%146097 = r at *
  have hc : 0 ≤ min (r/36524) 3 ∧ min (r/36524) 3 ≤ 3 ∧
      0 ≤ r-min (r/36524) 3*36524 ∧ r-min (r/36524) 3*36524 ≤ 36524 := by omega
  generalize min (r/36524) 3 = century at *
  generalize hr₁ : r-century*36524 = r₁ at *
  have hq : 0 ≤ r₁/1461 ∧ r₁/1461 ≤ 24 ∧ 0 ≤ r₁-r₁/1461*1461 ∧ r₁-r₁/1461*1461 ≤ 1460 := by omega
  generalize r₁/1461 = quad at *
  generalize hr₂ : r₁-quad*1461 = r₂ at *
  have hs : 0 ≤ min (r₂/365) 3 ∧ min (r₂/365) 3 ≤ 3 ∧
      0 ≤ r₂-min (r₂/365) 3*365 ∧ r₂-min (r₂/365) 3*365 ≤ 365 := by omega
  generalize min (r₂/365) 3 = single at *
  generalize hyd : r₂-single*365 = yearDay at *
  have hm : 0 ≤ (5*yearDay+2)/153 ∧ (5*yearDay+2)/153 ≤ 11 := by omega
  rw [dayNumber_mk _ _ _ hm, days_before_year ⟨hc.1, hc.2.1⟩ ⟨hq.1, hq.2.1⟩ ⟨hs.1, hs.2.1⟩]
  omega

theorem civil_month (n : ℤ) : 1 ≤ (civil n).month ∧ (civil n).month ≤ 12 := by
  simp only [civil]
  omega

theorem civil_day (n : ℤ) : 1 ≤ (civil n).day ∧ (civil n).day ≤ 31 := by
  simp only [civil]
  omega

def millisPerDay : ℤ := 86400000

/-- The times a `Date` can hold: a hundred million days on either side of 1970. -/
def InRange (t : ℤ) : Prop := -8640000000000000 ≤ t ∧ t ≤ 8640000000000000

instance (t : ℤ) : Decidable (InRange t) := inferInstanceAs (Decidable (_ ∧ _))

theorem civil_year {t : ℤ} (h : InRange t) :
    -1000000 < (civil (t/millisPerDay)).year ∧ (civil (t/millisPerDay)).year < 1000000 := by
  have hday : -100000000 ≤ t/millisPerDay ∧ t/millisPerDay ≤ 100000000 := by
    unfold InRange at h
    unfold millisPerDay
    omega
  simp only [civil, epochShift]
  omega

/-- Four digits, or a sign and six. -/
def writeYear (year : ℤ) : List Char :=
  if 0 ≤ year ∧ year < 10000 then writeDigits 10 4 year.toNat
  else if 0 ≤ year then '+' :: writeDigits 10 6 year.toNat
  else '-' :: writeDigits 10 6 (-year).toNat

/-- `YYYY-MM-DDTHH`, the text of a time up to its hour. -/
def toHour (t : ℤ) : List Char :=
  let c := civil (t/millisPerDay)
  writeYear c.year ++ '-' :: writeDigits 10 2 c.month.toNat ++ '-' :: writeDigits 10 2 c.day.toNat ++
    'T' :: writeDigits 10 2 ((t%millisPerDay).toNat/3600000)

/-- `Date.prototype.toISOString`: `YYYY-MM-DDTHH:mm:ss.sssZ`. -/
def toISOString (t : ℤ) : List Char :=
  let ms := (t%millisPerDay).toNat
  toHour t ++ ':' :: writeDigits 10 2 (ms/60000%60) ++ ':' :: writeDigits 10 2 (ms/1000%60) ++
    '.' :: writeDigits 10 3 (ms%1000) ++ ['Z']

def readYear : List Char → Option (ℤ × List Char)
  | '+' :: cs => (readDigits 10 6 0 cs).map fun (n, cs) => (n, cs)
  | '-' :: cs =>
    match readDigits 10 6 0 cs with
    | some (n, cs) => if n = 0 then none else some (-n, cs)
    | none => none
  | cs => (readDigits 10 4 0 cs).map fun (n, cs) => (n, cs)

def skip (c : Char) : List Char → Option (List Char)
  | d :: cs => if d = c then some cs else none
  | [] => none

/-- `Date.parse` on the texts that `toISOString` writes; every other text is `none`. -/
def parseIso (cs : List Char) : Option ℤ := do
  let (year, cs) ← readYear cs
  let cs ← skip '-' cs
  let (month, cs) ← readDigits 10 2 0 cs
  let cs ← skip '-' cs
  let (day, cs) ← readDigits 10 2 0 cs
  let cs ← skip 'T' cs
  let (hour, cs) ← readDigits 10 2 0 cs
  let cs ← skip ':' cs
  let (minute, cs) ← readDigits 10 2 0 cs
  let cs ← skip ':' cs
  let (second, cs) ← readDigits 10 2 0 cs
  let cs ← skip '.' cs
  let (milli, cs) ← readDigits 10 3 0 cs
  let cs ← skip 'Z' cs
  if cs = [] ∧ 1 ≤ month ∧ month ≤ 12 ∧ 1 ≤ day ∧ day ≤ 31 ∧ hour < 24 ∧ minute < 60 ∧ second < 60
  then some (dayNumber ⟨year, month, day⟩*millisPerDay+hour*3600000+minute*60000+second*1000+milli)
  else none

theorem readDecimal {k n : ℕ} (hn : n < 10^k) (rest : List Char) :
    readDigits 10 k 0 (writeDigits 10 k n ++ rest) = some (n, rest) :=
  readDigits_of_lt (by decide) (by decide) hn rest

/-- A year of at most six digits is read back. -/
theorem readYear_writeYear {year : ℤ} (h : -1000000 < year ∧ year < 1000000) (rest : List Char) :
    readYear (writeYear year ++ rest) = some (year, rest) := by
  unfold writeYear
  split_ifs with h4 hpos
  · -- the first of the four digits is no sign
    have hread := readDecimal (k := 4) (n := year.toNat) (by omega) rest
    have hfirst : Nat.digitChar (year.toNat/10^3%10) ∈ writeDigits 10 4 year.toNat :=
      List.mem_cons_self
    obtain ⟨d, _, hd⟩ := digitValue_of_mem (by decide) (by decide) hfirst
    simp only [writeDigits, List.cons_append] at hread ⊢
    unfold readYear
    split
    · next heq =>
      rw [(List.cons.inj heq).1, show digitValue '+' = none from by decide] at hd
      exact absurd hd.symm (Option.some_ne_none d)
    · next heq =>
      rw [(List.cons.inj heq).1, show digitValue '-' = none from by decide] at hd
      exact absurd hd.symm (Option.some_ne_none d)
    · rw [hread, Option.map_some]
      simp only [Option.some.injEq, Prod.mk.injEq, and_true]
      omega
  · rw [List.cons_append, readYear, readDecimal (by omega)]
    simp only [Option.map_some, Option.some.injEq, Prod.mk.injEq, and_true]
    omega
  · rw [List.cons_append, readYear, readDecimal (by omega)]
    have hne : ¬(-year).toNat = 0 := by omega
    simp only [if_neg hne, Option.some.injEq, Prod.mk.injEq, and_true]
    omega

theorem skip_cons (c : Char) (cs : List Char) : skip c (c :: cs) = some cs := if_pos rfl

/-- What `toISOString` writes is read back as the same time. -/
theorem parseIso_toISOString {t : ℤ} (h : InRange t) : parseIso (toISOString t) = some t := by
  have hmonth := civil_month (t/millisPerDay)
  have hday := civil_day (t/millisPerDay)
  have hms : 0 ≤ t%millisPerDay ∧ t%millisPerDay < 86400000 := by
    unfold millisPerDay
    omega
  have hnumber := dayNumber_civil (t/millisPerDay)
  have hsplit : t/millisPerDay*millisPerDay+t%millisPerDay = t := by
    unfold millisPerDay
    omega
  have hyear := civil_year h
  -- the fields are read one by one, each from its own text and what stands behind it
  unfold parseIso toISOString toHour
  generalize civil (t/millisPerDay) = c at *
  generalize t%millisPerDay = ms at *
  simp only [List.append_assoc, List.cons_append, readYear_writeYear hyear, bind, Option.bind,
    skip_cons]
  rw [readDecimal (by omega)]
  simp only [skip_cons]
  rw [readDecimal (by omega)]
  simp only [skip_cons]
  rw [readDecimal (by omega)]
  simp only [skip_cons]
  rw [readDecimal (by omega)]
  simp only [skip_cons]
  rw [readDecimal (by omega)]
  simp only [skip_cons]
  rw [readDecimal (by omega)]
  simp only [skip_cons]
  rw [if_pos ⟨trivial, by omega, by omega, by omega, by omega, by omega, by omega, by omega⟩,
    Int.toNat_of_nonneg (by omega), Int.toNat_of_nonneg (by omega), hnumber]
  congr 1
  -- the parts of the time of day add up to it
  have hparts : ((ms.toNat/3600000 : ℕ) : ℤ)*3600000+((ms.toNat/60000%60 : ℕ) : ℤ)*60000+
      ((ms.toNat/1000%60 : ℕ) : ℤ)*1000+((ms.toNat%1000 : ℕ) : ℤ) = ms := by omega
  omega

theorem colon_not_mem_writeDigits (k n : ℕ) : ':' ∉ writeDigits 10 k n := by
  intro hmem
  obtain ⟨d, _, hd⟩ := digitValue_of_mem (by decide) (by decide) hmem
  exact absurd ((show digitValue ':' = none by decide).symm.trans hd) (by simp)

/-- The first colon of the text is the one behind the hour. -/
theorem colon_not_mem_toHour (t : ℤ) : ':' ∉ toHour t := by
  have hyear (year : ℤ) : ':' ∉ writeYear year := by
    unfold writeYear
    split_ifs <;> simp [colon_not_mem_writeDigits]
  simp [toHour, hyear, colon_not_mem_writeDigits]

def firstOfMonth (n : ℤ) : ℤ := n-((civil n).day-1)

theorem le_yearDay {yearDay k : ℤ} (hpos : 0 ≤ yearDay)
    (hk : k < yearDay-(153*((5*yearDay+2)/153)+2)/5+1) : k ≤ yearDay := by
  omega

/-- The days of a month before one of them have the same year and month. -/
theorem civil_sub {n k : ℤ} (hk : 0 ≤ k) (hday : k < (civil n).day) :
    civil (n-k) = ⟨(civil n).year, (civil n).month, (civil n).day-k⟩ := by
  simp only [civil] at hday ⊢
  have hshift : n-k+epochShift = n+epochShift-k := by ring
  rw [hshift]
  generalize n+epochShift = d at *
  -- a month begins no earlier than its year
  have hyear := le_yearDay (by omega) hday
  have hr : 0 ≤ d%146097 ∧ d%146097 < 146097 := by omega
  have hfirst : k ≤ d%146097 := by
    clear hday
    generalize d%146097 = r at *
    omega
  have hera : (d-k)/146097 = d/146097 ∧ (d-k)%146097 = d%146097-k := by omega
  rw [hera.1, hera.2]
  generalize d%146097 = r at *
  have hcentury : min ((r-k)/36524) 3 = min (r/36524) 3 := by omega
  rw [hcentury]
  generalize min (r/36524) 3 = century at *
  have hr₁ : r-k-century*36524 = r-century*36524-k := by ring
  rw [hr₁]
  generalize r-century*36524 = r₁ at *
  have hquad : (r₁-k)/1461 = r₁/1461 := by omega
  rw [hquad]
  have hr₂ : r₁-k-r₁/1461*1461 = r₁-r₁/1461*1461-k := by ring
  rw [hr₂]
  generalize r₁-r₁/1461*1461 = r₂ at *
  have hsingle : min ((r₂-k)/365) 3 = min (r₂/365) 3 := by omega
  rw [hsingle]
  generalize min (r₂/365) 3 = single at *
  have hyearDay : r₂-k-single*365 = r₂-single*365-k := by ring
  rw [hyearDay]
  generalize r₂-single*365 = yearDay at *
  have hmonth : (5*(yearDay-k)+2)/153 = (5*yearDay+2)/153 := by omega
  rw [hmonth]
  congr 1
  ring

theorem civil_firstOfMonth (n : ℤ) :
    civil (firstOfMonth n) = ⟨(civil n).year, (civil n).month, 1⟩ := by
  have hday := civil_day n
  rw [firstOfMonth, civil_sub (by omega) (by omega)]
  congr 1
  ring

theorem firstOfMonth_inj {n m : ℤ} (hyear : (civil n).year = (civil m).year)
    (hmonth : (civil n).month = (civil m).month) : firstOfMonth n = firstOfMonth m := by
  rw [← dayNumber_civil (firstOfMonth n), ← dayNumber_civil (firstOfMonth m), civil_firstOfMonth,
    civil_firstOfMonth, hyear, hmonth]

/-- The first day of the year one, a Monday. -/
def firstDay : ℤ := -719162

theorem civil_year_pos {n : ℤ} (h : firstDay ≤ n) : 0 < (civil n).year := by
  unfold firstDay at h
  simp only [civil, epochShift]
  omega

end HubAssist.IsoDate

/-! The UTC methods of JavaScript's `Date`, on milliseconds since 1970. -/
namespace HubAssist.UtcClock
open IsoDate

def millisPerHour : ℤ := 3600000

def getUTCHours (t : ℤ) : ℤ := t%millisPerDay/millisPerHour

/-- The day of the week, with 0 for Sunday: 1 January 1970 was a Thursday. -/
def getUTCDay (t : ℤ) : ℤ := (t/millisPerDay+4)%7

/-- `setUTCHours(hours, 0, 0, 0)`: hours past the end of the day run into the next. -/
def setUTCHours (t hours : ℤ) : ℤ := t/millisPerDay*millisPerDay+hours*millisPerHour

def getUTCDate (t : ℤ) : ℤ := (civil (t/millisPerDay)).day

def getUTCFullYear (t : ℤ) : ℤ := (civil (t/millisPerDay)).year

/-- `setUTCDate(day)`: the day may lie outside of the month. -/
def setUTCDate (t day : ℤ) : ℤ :=
  let c := civil (t/millisPerDay)
  dayNumber ⟨c.year, c.month, day⟩*millisPerDay+t%millisPerDay

/-- `setUTCHours` with all its arguments. -/
def setUTCTime (t hours minutes seconds millis : ℤ) : ℤ :=
  setUTCHours t hours+minutes*60000+seconds*1000+millis

/-- `setUTCMinutes(0, 0, 0)`. -/
def clearUTCMinutes (t : ℤ) : ℤ := t-t%millisPerHour

/-- The instants at which an hour begins. -/
def HourBoundary (t : ℤ) : Prop := t%millisPerHour = 0

instance (t : ℤ) : Decidable (HourBoundary t) := inferInstanceAs (Decidable (_ = _))

theorem setUTCHours_setUTCHours {t hours : ℤ} (h : 0 ≤ hours ∧ hours < 24) (hours' : ℤ) :
    setUTCHours (setUTCHours t hours) hours' = setUTCHours t hours' := by
  have hday : setUTCHours t hours/millisPerDay = t/millisPerDay := by
    unfold setUTCHours millisPerHour millisPerDay
    omega
  rw [setUTCHours, hday, setUTCHours]

theorem dayNumber_add_day (c : Civil) (k : ℤ) :
    dayNumber ⟨c.year, c.month, c.day+k⟩ = dayNumber c+k := by
  unfold dayNumber
  dsimp only
  ring

/-- A date is moved by days, and keeps its time of day. -/
theorem setUTCDate_getUTCDate (t k : ℤ) :
    setUTCDate t (getUTCDate t+k) = (t/millisPerDay+k)*millisPerDay+t%millisPerDay := by
  have hmoved := dayNumber_add_day (civil (t/millisPerDay)) k
  rw [dayNumber_civil] at hmoved
  rw [setUTCDate, getUTCDate, hmoved]

end HubAssist.UtcClock
