import HubAssist.DailyUtilization
import HubAssist.GroupTable
import HubAssist.IsoWeek
import Mathlib.Data.Nat.Log

/-! The revenue report of the admin: a query over the bookings that groups by the day, week or month
of local time, and the totals that the service adds up from its rows. Amounts are exact. -/
namespace HubAssist.Reports
open Bookings Analytics IsoDate IsoWeek UtcClock GroupTable FixedDigits

inductive GroupBy where
  | day
  | week
  | month
  deriving DecidableEq

/-- The dates of a query are read already. -/
structure RevenueQueryDto where
  startDate : Option ℤ
  endDate : Option ℤ
  workspaceType : Option WorkspaceType
  status : Option BookingStatus
  groupBy : Option GroupBy

structure RevenuePeriod where
  period : List Char
  totalRevenue : ℚ
  bookingCount : ℕ
  averageBookingValue : ℚ

structure RevenueSummary where
  totalRevenue : ℚ
  totalBookings : ℕ
  averageBookingValue : ℚ
  startDate : List Char
  endDate : List Char

structure RevenueReport where
  summary : RevenueSummary
  breakdown : List RevenuePeriod

/-- The rows that are not deleted; those of a deleted table entry do not join. -/
structure Tables where
  bookings : List Booking
  workspaces : List WorkspaceRow

/-- `DATE_TRUNC` with the unit of `truncUnit`, from day to day. -/
def dateTrunc : GroupBy → ℤ → ℤ
  | .day, day => day
  | .week, day => monday day
  | .month, day => firstOfMonth day

/-- `YYYY` and `IYYY`: four digits or more. The years before the first are counted backwards. -/
def yearText (year : ℤ) : List Char :=
  let n := (if 0 < year then year else 1-year).toNat
  writeDigits 10 (max 4 (Nat.log 10 n+1)) n

/-- `TO_CHAR` with the format of `periodFormat`. -/
def toChar : GroupBy → ℤ → List Char
  | .day, day => (yearText (civil day).year ++ '-' :: writeDigits 10 2 (civil day).month.toNat) ++
      '-' :: writeDigits 10 2 (civil day).day.toNat
  | .week, day => yearText (weekYear day) ++ '-' :: writeDigits 10 2 (weekNumber day).toNat
  | .month, day => yearText (civil day).year ++ '-' :: writeDigits 10 2 (civil day).month.toNat

variable (toFixed : ℕ → ℚ → ℚ) (offset now : ℤ)

/-- The first and the last millisecond of the range. The end is moved before the start is taken from
it, so that thirty days back is thirty-one days in all. -/
def resolveDateRange (startDate endDate : Option ℤ) : ℤ × ℤ :=
  let stop := setUTCTime (endDate.getD now+offset) 23 59 59 999-offset
  let start := setUTCTime (startDate.getD (stop-30*24*60*60*1000)+offset) 0 0 0 0-offset
  (start, stop)

/-- The bookings of the query. The join needs a workspace of the type asked for. -/
def selected (db : Tables) (q : RevenueQueryDto) : List Booking :=
  let range := resolveDateRange offset now q.startDate q.endDate
  db.bookings.filter fun b =>
    (range.1 ≤ b.startTime ∧ b.startTime ≤ range.2) ∧
      (∃ ws ∈ db.workspaces, ws.id = b.workspaceId ∧ ∀ type ∈ q.workspaceType, ws.type = type) ∧
        ∀ status ∈ q.status, b.status = status

/-- The average of a period or of the whole range. -/
def averageOf (revenue : ℚ) (count : ℕ) : ℚ :=
  if 0 < count then toFixed 2 (revenue/count) else 0

/-- A row of the query, as the service reads it. -/
def periodOf (groupBy : GroupBy) (group : ℤ × List Booking) : RevenuePeriod :=
  let revenue := (group.2.map Booking.totalAmount).sum
  let count := group.2.length
  { period := toChar groupBy group.1
    totalRevenue := revenue
    bookingCount := count
    averageBookingValue := averageOf toFixed revenue count }

def getRevenue (db : Tables) (q : RevenueQueryDto) : RevenueReport :=
  let range := resolveDateRange offset now q.startDate q.endDate
  let groupBy := q.groupBy.getD .day
  let rows := ordered (fun b => dateTrunc groupBy (localDay offset b.startTime))
    (selected offset now db q)
  let breakdown := rows.map (periodOf toFixed groupBy)
  let totalRevenue := (breakdown.map RevenuePeriod.totalRevenue).sum
  let totalBookings := (breakdown.map RevenuePeriod.bookingCount).sum
  { summary :=
      { totalRevenue := toFixed 2 totalRevenue
        totalBookings := totalBookings
        averageBookingValue := averageOf toFixed totalRevenue totalBookings
        startDate := (toISOString range.1).takeWhile (· ≠ 'T')
        endDate := (toISOString range.2).takeWhile (· ≠ 'T') }
    breakdown := breakdown }

/-- The text of the period in which a booking starts. -/
def labelOf (groupBy : GroupBy) (b : Booking) : List Char :=
  toChar groupBy (localDay offset b.startTime)

/-- A booking in the years that `TO_CHAR` writes apart. -/
def Dated (b : Booking) : Prop := firstDay ≤ localDay offset b.startTime

/-- Every period in which a booking starts has one row, the rows come in the order of time, and a
row counts the bookings of its period. -/
structure Breaks (groupBy : GroupBy) (own : List Booking) (rows : List RevenuePeriod) : Prop where
  nodup : (rows.map RevenuePeriod.period).Nodup
  covers : ∀ b ∈ own, ∃ row ∈ rows, row.period = labelOf offset groupBy b
  nonempty : ∀ row ∈ rows, members (labelOf offset groupBy) own row.period ≠ []
  revenue : ∀ row ∈ rows, row.totalRevenue =
    ((members (labelOf offset groupBy) own row.period).map Booking.totalAmount).sum
  count : ∀ row ∈ rows, row.bookingCount =
    (members (labelOf offset groupBy) own row.period).length
  average : ∀ row ∈ rows, row.averageBookingValue =
    averageOf toFixed row.totalRevenue row.bookingCount
  inOrder : rows.Pairwise fun row row' => ∀ b ∈ own, ∀ b' ∈ own,
    labelOf offset groupBy b = row.period → labelOf offset groupBy b' = row'.period →
      b.startTime < b'.startTime

variable {toFixed offset now} {groupBy : GroupBy} {day : ℤ} {own : List Booking}

theorem dateTrunc_le (groupBy : GroupBy) (day : ℤ) : dateTrunc groupBy day ≤ day := by
  have hday := civil_day day
  cases groupBy with
  | day => exact le_rfl
  | week =>
    simp only [dateTrunc, monday, weekday]
    omega
  | month =>
    simp only [dateTrunc, firstOfMonth]
    omega

/-- A day between the start of a period and a day of it belongs to the period. -/
theorem dateTrunc_eq {other : ℤ} (hstart : dateTrunc groupBy day ≤ other) (hle : other ≤ day) :
    dateTrunc groupBy other = dateTrunc groupBy day := by
  cases groupBy with
  | day => exact le_antisymm hle hstart
  | week =>
    simp only [dateTrunc, monday, weekday] at *
    omega
  | month =>
    simp only [dateTrunc, firstOfMonth] at hstart
    have hsame := @civil_sub day (day-other) (by omega) (by omega)
    rw [sub_sub_cancel] at hsame
    exact firstOfMonth_inj (by rw [hsame]) (by rw [hsame])

theorem lt_of_dateTrunc_lt {other : ℤ} (h : dateTrunc groupBy day < dateTrunc groupBy other) :
    day < other := by
  by_contra hnot
  have hother := dateTrunc_le groupBy other
  have heq := dateTrunc_eq (h.le.trans hother) (not_lt.mp hnot)
  exact absurd heq h.ne'

/-- The start of a period is written as any day of it. -/
theorem toChar_dateTrunc (groupBy : GroupBy) (day : ℤ) :
    toChar groupBy (dateTrunc groupBy day) = toChar groupBy day := by
  cases groupBy with
  | day => rfl
  | week => simp only [toChar, dateTrunc, weekNumber, weekYear, thursday, monday_monday]
  | month => simp only [toChar, dateTrunc, civil_firstOfMonth]

theorem writeDigits_inj {k k' n n' : ℕ} (hn : n < 10^k) (hn' : n' < 10^k')
    (h : writeDigits 10 k n = writeDigits 10 k' n') : n = n' := by
  have hk : k = k' := by
    have hlength := congrArg List.length h
    simpa using hlength
  subst hk
  have hread := readDecimal hn []
  rw [h, readDecimal hn' []] at hread
  exact (Prod.mk.inj (Option.some.inj hread)).1.symm

theorem yearText_inj {year year' : ℤ} (hpos : 0 < year) (hpos' : 0 < year')
    (h : yearText year = yearText year') : year = year' := by
  have hbound (n : ℕ) : n < 10^max 4 (Nat.log 10 n+1) :=
    (Nat.lt_pow_succ_log_self (by decide) n).trans_le
      (Nat.pow_le_pow_right (by decide) (le_max_right _ _))
  unfold yearText at h
  rw [if_pos hpos, if_pos hpos'] at h
  have heq := writeDigits_inj (hbound _) (hbound _) h
  omega

/-- The parts of a text before and behind its last dash. -/
theorem dash_inj {text text' : List Char} {n n' : ℕ} (hn : n < 100) (hn' : n' < 100)
    (h : text ++ '-' :: writeDigits 10 2 n = text' ++ '-' :: writeDigits 10 2 n') :
    text = text' ∧ n = n' := by
  obtain ⟨htext, hdigits⟩ := List.append_inj' h (by simp)
  exact ⟨htext, writeDigits_inj hn hn' (List.cons.inj hdigits).2⟩

/-- From the year one on, periods that are written alike are the same. -/
theorem toChar_inj {other : ℤ} (hday : firstDay ≤ day) (hother : firstDay ≤ other)
    (h : toChar groupBy day = toChar groupBy other) :
    dateTrunc groupBy day = dateTrunc groupBy other := by
  have hmonth (n : ℤ) := civil_month n
  have hmonthDay (n : ℤ) := civil_day n
  have hweek (n : ℤ) := weekNumber_bounds n
  have hdated {n m : ℤ} (hn : firstDay ≤ n) (hm : firstDay ≤ m)
      (h : toChar .month n = toChar .month m) :
      (civil n).year = (civil m).year ∧ (civil n).month = (civil m).month := by
    obtain ⟨hyear, hmonths⟩ := dash_inj (by have := hmonth n; omega) (by have := hmonth m; omega) h
    exact ⟨yearText_inj (civil_year_pos hn) (civil_year_pos hm) hyear,
      by have := hmonth n; have := hmonth m; omega⟩
  cases groupBy with
  | day =>
    obtain ⟨hrest, hdays⟩ := dash_inj (by have := hmonthDay day; omega)
      (by have := hmonthDay other; omega) h
    obtain ⟨hyear, hmonths⟩ := hdated hday hother hrest
    have hnumber : (civil day).day = (civil other).day := by
      have := hmonthDay day
      have := hmonthDay other
      omega
    have hfirst := firstOfMonth_inj hyear hmonths
    simp only [dateTrunc, firstOfMonth] at *
    omega
  | week =>
    obtain ⟨hyear, hweeks⟩ :=
      dash_inj (by have := hweek day; omega) (by have := hweek other; omega) h
    have hpos {n : ℤ} (hn : firstDay ≤ n) : 0 < weekYear n :=
      civil_year_pos (firstDay_le_thursday hn)
    have hnumber : weekNumber day = weekNumber other := by
      have := hweek day
      have := hweek other
      omega
    exact thursday_eq_iff.mp
      (thursday_eq_iff_week.mpr ⟨yearText_inj (hpos hday) (hpos hother) hyear, hnumber⟩)
  | month =>
    obtain ⟨hyear, hmonths⟩ := hdated hday hother h
    exact firstOfMonth_inj hyear hmonths

/-- The bookings that the query puts together are those with one text. -/
theorem members_dateTrunc (hown : ∀ b ∈ own, Dated offset b) (hday : firstDay ≤ day) :
    members (fun b => dateTrunc groupBy (localDay offset b.startTime)) own (dateTrunc groupBy day) =
      members (labelOf offset groupBy) own (toChar groupBy day) := by
  apply List.filter_congr
  intro b hb
  have hiff : dateTrunc groupBy (localDay offset b.startTime) = dateTrunc groupBy day ↔
      labelOf offset groupBy b = toChar groupBy day := by
    constructor
    · intro h
      rw [labelOf, ← toChar_dateTrunc, h, toChar_dateTrunc]
    · exact toChar_inj (hown b hb) hday
  simp only [hiff]

/-- A group of the query, from one of its bookings. -/
theorem group_members (hown : ∀ b ∈ own, Dated offset b) {p : ℤ × List Booking}
    (hp : p ∈ ordered (fun b => dateTrunc groupBy (localDay offset b.startTime)) own) :
    p.2 = members (labelOf offset groupBy) own (toChar groupBy p.1) ∧
      ∃ b ∈ own, labelOf offset groupBy b = toChar groupBy p.1 ∧
        dateTrunc groupBy (localDay offset b.startTime) = p.1 := by
  obtain ⟨⟨b, hb, hkey⟩, hmembers⟩ := mem_ordered.mp hp
  have hlabel : labelOf offset groupBy b = toChar groupBy p.1 := by
    rw [labelOf, ← toChar_dateTrunc, hkey]
  refine ⟨?_, b, hb, hlabel, hkey⟩
  rw [hmembers, ← hlabel, ← hkey]
  exact members_dateTrunc hown (hown b hb)

theorem breaks_rows (hown : ∀ b ∈ own, Dated offset b) : Breaks toFixed offset groupBy own
    ((ordered (fun b => dateTrunc groupBy (localDay offset b.startTime)) own).map
      (periodOf toFixed groupBy)) := by
  have hrow {row : RevenuePeriod} (hrow : row ∈ (ordered (fun b =>
        dateTrunc groupBy (localDay offset b.startTime)) own).map (periodOf toFixed groupBy)) :
      ∃ p : ℤ × List Booking, p.2 = members (labelOf offset groupBy) own row.period ∧
        (∃ b ∈ own, labelOf offset groupBy b = row.period) ∧ periodOf toFixed groupBy p = row := by
    obtain ⟨p, hp, rfl⟩ := List.mem_map.mp hrow
    obtain ⟨hmembers, b, hb, hlabel, _⟩ := group_members hown hp
    exact ⟨p, hmembers, ⟨b, hb, hlabel⟩, rfl⟩
  -- the keys of two groups tell which one comes first
  have hlt {p p' : ℤ × List Booking} {b b' : Booking} (hb : b ∈ own) (hb' : b' ∈ own)
      (hp : p ∈ ordered (fun b => dateTrunc groupBy (localDay offset b.startTime)) own)
      (hp' : p' ∈ ordered (fun b => dateTrunc groupBy (localDay offset b.startTime)) own)
      (hlabel : labelOf offset groupBy b = toChar groupBy p.1)
      (hlabel' : labelOf offset groupBy b' = toChar groupBy p'.1) (h : p.1 < p'.1) :
      b.startTime < b'.startTime := by
    obtain ⟨_, c, hc, hclabel, hckey⟩ := group_members hown hp
    obtain ⟨_, c', hc', hclabel', hckey'⟩ := group_members hown hp'
    have hkey := toChar_inj (hown b hb) (hown c hc) (hlabel.trans hclabel.symm)
    have hkey' := toChar_inj (hown b' hb') (hown c' hc') (hlabel'.trans hclabel'.symm)
    have hdays : localDay offset b.startTime < localDay offset b'.startTime := by
      apply lt_of_dateTrunc_lt
      rw [hkey, hkey', hckey, hckey']
      exact h
    unfold localDay millisPerDay at hdays
    omega
  refine ⟨?_, ?_, ?_, ?_, ?_, ?_, ?_⟩
  · rw [List.map_map, List.Nodup, List.pairwise_map]
    refine ordered_lt.imp_of_mem ?_
    intro p p' hp hp' h heq
    obtain ⟨_, b, hb, hlabel, _⟩ := group_members hown hp
    exact absurd (hlt hb hb hp hp' hlabel (hlabel.trans heq) h) (lt_irrefl _)
  · intro b hb
    have hp : (dateTrunc groupBy (localDay offset b.startTime), members (fun b =>
          dateTrunc groupBy (localDay offset b.startTime)) own
            (dateTrunc groupBy (localDay offset b.startTime))) ∈
        ordered (fun b => dateTrunc groupBy (localDay offset b.startTime)) own :=
      mem_ordered.mpr ⟨⟨b, hb, rfl⟩, rfl⟩
    exact ⟨_, List.mem_map_of_mem hp, toChar_dateTrunc groupBy _⟩
  · intro row hmem hnone
    obtain ⟨_, _, ⟨b, hb, hlabel⟩, _⟩ := hrow hmem
    have hb' : b ∈ members (labelOf offset groupBy) own row.period :=
      List.mem_filter.mpr ⟨hb, decide_eq_true hlabel⟩
    rw [hnone] at hb'
    exact List.not_mem_nil hb'
  · intro row hmem
    obtain ⟨p, hmembers, _, rfl⟩ := hrow hmem
    rw [← hmembers]
    rfl
  · intro row hmem
    obtain ⟨p, hmembers, _, rfl⟩ := hrow hmem
    rw [← hmembers]
    rfl
  · intro row hmem
    obtain ⟨p, _, _, rfl⟩ := hrow hmem
    rfl
  · rw [List.pairwise_map]
    refine ordered_lt.imp_of_mem ?_
    intro p p' hp hp' h b hb b' hb' hlabel hlabel'
    exact hlt hb hb' hp hp' hlabel hlabel' h

theorem dated_selected {db : Tables} {q : RevenueQueryDto}
    (hdated : ∀ b ∈ db.bookings, Dated offset b) : ∀ b ∈ selected offset now db q, Dated offset b :=
  fun b hb => hdated b (List.mem_filter.mp hb).1

/-- Where all bookings start in the years from one on, the rows of the report are the periods in
which selected bookings start, in order, each with its own. -/
theorem breaks_getRevenue (db : Tables) (q : RevenueQueryDto)
    (hdated : ∀ b ∈ db.bookings, Dated offset b) :
    Breaks toFixed offset (q.groupBy.getD .day) (selected offset now db q)
      (getRevenue toFixed offset now db q).breakdown :=
  breaks_rows (dated_selected hdated)

/-- Two bookings of January on different days, and one of February. -/
def threeBookings : Tables :=
  ⟨[⟨1, "ws1", "u1", 1705309200000, 1705316400000, .confirmed, 200, none, none, none, none, none,
      none⟩,
    ⟨2, "ws1", "u2", 1705744800000, 1705752000000, .confirmed, 100, none, none, none, none, none,
      none⟩,
    ⟨3, "ws1", "u1", 1707730000000, 1707733600000, .confirmed, 50, none, none, none, none, none,
      none⟩],
   [⟨"ws1", .hotDesk⟩]⟩

def byMonth : RevenueQueryDto :=
  ⟨some 1704067200000, some 1709164800000, none, some .confirmed, some .month⟩

def exactly (_ : ℕ) (amount : ℚ) : ℚ := amount

theorem threeBookings_dated : ∀ b ∈ threeBookings.bookings, Dated 0 b := by
  unfold Dated
  decide

theorem breaks_threeBookings : Breaks exactly 0 .month
    (selected 0 1709200000000 threeBookings byMonth)
    (getRevenue exactly 0 1709200000000 threeBookings byMonth).breakdown :=
  breaks_getRevenue threeBookings byMonth threeBookings_dated

/-- The day is written in the last three characters. -/
theorem day_label (day : ℤ) :
    (toChar .day day).take ((toChar .day day).length-3) = toChar .month day := by
  have hlength : (toChar .day day).length-3 = (toChar .month day).length := by
    simp only [toChar, List.length_append, List.length_cons, length_writeDigits]
    omega
  rw [hlength]
  exact List.take_left

theorem sum_rows (groupBy : GroupBy) (groups : List (ℤ × List Booking)) :
    ((groups.map (periodOf toFixed groupBy)).map RevenuePeriod.totalRevenue).sum =
      (groups.map fun p => (p.2.map Booking.totalAmount).sum).sum := by
  rw [List.map_map]
  rfl

theorem count_rows (groupBy : GroupBy) (groups : List (ℤ × List Booking)) :
    ((groups.map (periodOf toFixed groupBy)).map RevenuePeriod.bookingCount).sum =
      (groups.map fun p => (p.2.map fun _ => 1).sum).sum := by
  rw [List.map_map]
  congr 2
  funext p
  simp [periodOf]

/-- The summary, from the bookings themselves. -/
theorem summary_getRevenue (db : Tables) (q : RevenueQueryDto) :
    (getRevenue toFixed offset now db q).summary =
      let range := resolveDateRange offset now q.startDate q.endDate
      let total := ((selected offset now db q).map Booking.totalAmount).sum
      { totalRevenue := toFixed 2 total
        totalBookings := (selected offset now db q).length
        averageBookingValue := averageOf toFixed total (selected offset now db q).length
        startDate := (toISOString range.1).takeWhile (· ≠ 'T')
        endDate := (toISOString range.2).takeWhile (· ≠ 'T') } := by
  simp only [getRevenue, sum_rows, count_rows, sum_ordered]
  simp

/-- The rows of the days of a month, among the rows of a report by days. -/
def ofMonth (month : List Char) (days : List RevenuePeriod) : List RevenuePeriod :=
  days.filter fun d => d.period.take (d.period.length-3) = month

theorem ofMonth_rows (month : List Char) (groups : List (ℤ × List Booking)) :
    ofMonth month (groups.map (periodOf toFixed .day)) =
      (groups.filter fun p => toChar .month p.1 = month).map (periodOf toFixed .day) := by
  rw [ofMonth, List.filter_map]
  simp only [Function.comp_def, periodOf, day_label]

/-- What a month brings is what its days bring. -/
theorem sum_month (hown : ∀ b ∈ own, Dated offset b) {row : RevenuePeriod}
    (hrow : row ∈ (ordered (fun b => dateTrunc .month (localDay offset b.startTime)) own).map
      (periodOf toFixed .month)) :
    let days := ofMonth row.period
      ((ordered (fun b => localDay offset b.startTime) own).map (periodOf toFixed .day))
    row.totalRevenue = (days.map RevenuePeriod.totalRevenue).sum ∧
      row.bookingCount = (days.map RevenuePeriod.bookingCount).sum := by
  obtain ⟨p, hp, rfl⟩ := List.mem_map.mp hrow
  obtain ⟨hmembers, _⟩ := group_members hown hp
  dsimp only
  rw [ofMonth_rows, sum_rows, count_rows, sum_ordered_filter (toChar .month),
    sum_ordered_filter (toChar .month)]
  dsimp only [periodOf]
  rw [hmembers]
  have hcount (bookings : List Booking) : (bookings.map fun _ => 1).sum = bookings.length := by simp
  exact ⟨rfl, (hcount _).symm⟩

/-- The report by months is the report by days added up, and the summary is the same for every
grouping. -/
theorem months_of_days (db : Tables) (q : RevenueQueryDto)
    (hdated : ∀ b ∈ db.bookings, Dated offset b) :
    (∀ groupBy, (getRevenue toFixed offset now db { q with groupBy := groupBy }).summary =
        (getRevenue toFixed offset now db q).summary) ∧
      ∀ row ∈ (getRevenue toFixed offset now db { q with groupBy := some .month }).breakdown,
        let days := ofMonth row.period
          (getRevenue toFixed offset now db { q with groupBy := some .day }).breakdown
        row.totalRevenue = (days.map RevenuePeriod.totalRevenue).sum ∧
          row.bookingCount = (days.map RevenuePeriod.bookingCount).sum := by
  constructor
  · intro groupBy
    rw [summary_getRevenue, summary_getRevenue]
    rfl
  · intro row hrow
    exact sum_month (dated_selected hdated) hrow

theorem months_of_threeBookings :
    (getRevenue exactly 0 1709200000000 threeBookings byMonth).breakdown.map
        RevenuePeriod.totalRevenue =
      (getRevenue exactly 0 1709200000000 threeBookings byMonth).breakdown.map fun row =>
        ((ofMonth row.period (getRevenue exactly 0 1709200000000 threeBookings
          { byMonth with groupBy := some .day }).breakdown).map RevenuePeriod.totalRevenue).sum :=
  List.map_congr_left fun row hrow =>
    ((months_of_days threeBookings byMonth threeBookings_dated).2 row hrow).1

end HubAssist.Reports
