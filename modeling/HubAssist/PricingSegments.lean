import HubAssist.IntervalTiling
import HubAssist.PricingModel

/-! The price of an interval against the rate in force at each of its instants. -/
namespace HubAssist.Pricing
open Checks IntervalTiling UtcClock MeasureTheory

variable {toFixed : ℕ → ℚ → ℚ} {rules rules' : List PriceRule} {fallbackRate : ℚ}
variable {startTime endTime cursor : ℤ}

/-- No rounding. -/
def exact : ℕ → ℚ → ℚ := fun _ amount => amount

/-- The rule applies at an instant of continuous time: on some day that is its day of the week,
between its two hours. -/
def PriceRule.InForce (r : PriceRule) (t : ℝ) : Prop :=
  r.isActive = true ∧ ∃ day : ℤ, r.dayOfWeek = (day+4)%7 ∧
    (((day*86400000 : ℤ) : ℝ) ≤ t ∧ t < ((day+1)*86400000 : ℤ)) ∧
    ((day*86400000+r.startHour*3600000 : ℤ) : ℝ) ≤ t ∧
    t < (day*86400000+r.endHour*3600000 : ℤ)

open Classical in
/-- The rate of the first rule that applies at the instant, or else the fallback. -/
noncomputable def rateInForce (rules : List PriceRule) (fallbackRate : ℚ) (t : ℝ) : ℚ :=
  ((rules.find? fun r => r.InForce t).map PriceRule.ratePerHour).getD fallbackRate

/-- At an instant the rules apply that match its millisecond. -/
theorem inForce_iff (r : PriceRule) (t : ℝ) : r.InForce t ↔ r.Matches ⌊t⌋ := by
  simp only [PriceRule.InForce, ← Int.le_floor, ← Int.floor_lt]
  generalize ⌊t⌋ = n
  apply and_congr_right
  intro _
  unfold getUTCDay getUTCHours millisPerHour IsoDate.millisPerDay
  constructor
  · rintro ⟨day, hday, ⟨hfrom, hto⟩, hstart, hend⟩
    obtain rfl : day = n/86400000 := by omega
    exact ⟨hday, by omega, by omega⟩
  · rintro ⟨hday, hstart, hend⟩
    exact ⟨n/86400000, hday, ⟨by omega, by omega⟩, by omega, by omega⟩

/-- The same rules match all through an hour. -/
theorem matches_of_sameHour {r : PriceRule} {n : ℤ} (h : cursor ≤ n) (hnext : n < nextHour cursor) :
    r.Matches n ↔ r.Matches cursor := by
  have hday : getUTCDay n = getUTCDay cursor := by
    rw [nextHour_eq] at hnext
    unfold getUTCDay millisPerHour IsoDate.millisPerDay at *
    omega
  have hhour : getUTCHours n = getUTCHours cursor := by
    rw [nextHour_eq] at hnext
    unfold getUTCHours millisPerHour IsoDate.millisPerDay at *
    omega
  simp only [PriceRule.Matches, hday, hhour]

theorem rateInForce_eq {t : ℝ} (h : (cursor : ℝ) ≤ t) (hnext : t < nextHour cursor) :
    rateInForce rules fallbackRate t =
      ((findMatchingRule rules cursor).map PriceRule.ratePerHour).getD fallbackRate := by
  rw [rateInForce, findMatchingRule]
  congr 3
  funext r
  rw [decide_eq_decide, inForce_iff,
    matches_of_sameHour (Int.le_floor.mpr h) (Int.floor_lt.mpr hnext)]

/-- Each segment is one turn of the loop, within an hour. -/
theorem mem_buildSegments {s : RateSegment}
    (h : s ∈ buildSegments toFixed rules fallbackRate cursor endTime) :
    s = rateSegment toFixed rules fallbackRate s.startTime s.endTime ∧
      s.endTime ≤ nextHour s.startTime := by
  fun_induction buildSegments toFixed rules fallbackRate cursor endTime with
  | case1 cursor hlt sliceEnd ih =>
    rcases List.mem_cons.mp h with rfl | hrest
    · refine ⟨rfl, ?_⟩
      dsimp only [rateSegment, sliceEnd]
      split_ifs <;> omega
    · exact ih hrest
  | case2 cursor hge => simp at h

/-- The segments follow one another from the start to the end. -/
theorem buildSegments_tiles (h : cursor ≤ endTime) :
    Tiles RateSegment.startTime RateSegment.endTime
      (buildSegments toFixed rules fallbackRate cursor endTime) cursor endTime := by
  fun_induction buildSegments toFixed rules fallbackRate cursor endTime with
  | case1 cursor hlt sliceEnd ih =>
    have hnext := lt_nextHour cursor
    have hslice : cursor < sliceEnd ∧ sliceEnd ≤ endTime := by
      dsimp only [sliceEnd]
      split_ifs <;> omega
    exact ⟨rfl, hslice.1, ih hslice.2⟩
  | case2 cursor hge => exact le_antisymm h (not_lt.mp hge)

theorem buildSegments_of_le (h : endTime ≤ cursor) :
    buildSegments toFixed rules fallbackRate cursor endTime = [] := by
  rw [buildSegments, if_neg (not_lt.mpr h)]

theorem exists_first (h : cursor < endTime) :
    ∃ s ∈ buildSegments toFixed rules fallbackRate cursor endTime, s.startTime = cursor := by
  rw [buildSegments, if_pos h]
  exact ⟨_, List.mem_cons_self, rfl⟩

theorem hourBoundary_nextHour (cursor : ℤ) : HourBoundary (nextHour cursor) := by
  rw [nextHour_eq]
  exact Int.mul_emod_left _ _

/-- Between a moment and the next full hour no hour begins. -/
theorem nextHour_le {t : ℤ} (h : cursor < t) (ht : HourBoundary t) : nextHour cursor ≤ t := by
  rw [nextHour_eq]
  unfold HourBoundary millisPerHour at *
  omega

/-- Inside the interval a segment begins exactly where an hour does. -/
theorem buildSegments_cuts {t : ℤ} (ht : cursor < t ∧ t < endTime) :
    (∃ s ∈ buildSegments toFixed rules fallbackRate cursor endTime, s.startTime = t) ↔
      HourBoundary t := by
  fun_induction buildSegments toFixed rules fallbackRate cursor endTime with
  | case1 cursor hlt sliceEnd ih =>
    have hslice : sliceEnd = min (nextHour cursor) endTime := by
      dsimp only [sliceEnd]
      split_ifs <;> omega
    clear_value sliceEnd
    have hle : sliceEnd ≤ endTime := hslice.trans_le (min_le_right _ _)
    have hfirst : (rateSegment toFixed rules fallbackRate cursor sliceEnd).startTime ≠ t :=
      ht.1.ne
    simp only [List.exists_mem_cons_iff, hfirst, false_or]
    rcases lt_trichotomy t sliceEnd with hbefore | heq | hafter
    · -- the rest of the segments begins later, and no hour does before
      constructor
      · rintro ⟨s, hs, rfl⟩
        exact absurd hbefore (not_lt.mpr ((buildSegments_tiles hle).within s hs).1)
      · intro hboundary
        have hnext : sliceEnd ≤ nextHour cursor := hslice.trans_le (min_le_left _ _)
        exact absurd (nextHour_le ht.1 hboundary) (not_le.mpr (hbefore.trans_le hnext))
    · have hnext : sliceEnd = nextHour cursor := by
        rw [heq] at ht
        rw [hslice, min_eq_left_iff]
        exact (min_lt_iff.mp (hslice ▸ ht.2)).elim le_of_lt fun h => absurd h (lt_irrefl _)
      rw [heq] at ht ⊢
      refine iff_of_true (exists_first ht.2) ?_
      rw [hnext]
      exact hourBoundary_nextHour cursor
    · exact ih ⟨hafter, ht.2⟩
  | case2 cursor hge => omega

/-- The loop ends after as many turns as there are hours that the interval meets. -/
theorem length_buildSegments (h : cursor < endTime) :
    ((buildSegments toFixed rules fallbackRate cursor endTime).length : ℤ) =
      (endTime-1)/millisPerHour-cursor/millisPerHour+1 := by
  fun_induction buildSegments toFixed rules fallbackRate cursor endTime with
  | case1 cursor hlt sliceEnd ih =>
    have hslice : sliceEnd = min ((cursor/millisPerHour+1)*millisPerHour) endTime := by
      rw [← nextHour_eq]
      dsimp only [sliceEnd]
      split_ifs <;> omega
    clear_value sliceEnd
    rw [List.length_cons]
    unfold millisPerHour at *
    rcases lt_or_ge sliceEnd endTime with hmore | hlast
    · have hrest := ih hmore
      omega
    · rw [buildSegments_of_le hlast, List.length_nil]
      omega
  | case2 cursor hge => omega

theorem grossTotal_eq (segments : List RateSegment) :
    grossTotal segments = (segments.map RateSegment.segmentCost).sum := by
  rw [grossTotal, List.sum_eq_foldl, List.foldl_map]

/-- In a segment the rate in force is the rate charged. -/
theorem rateInForce_segment {s : RateSegment} {t : ℝ}
    (h : s ∈ buildSegments exact rules fallbackRate cursor endTime) (hstart : (s.startTime : ℝ) < t)
    (hend : t < s.endTime) : rateInForce rules fallbackRate t = s.ratePerHour := by
  obtain ⟨hsegment, hnext⟩ := mem_buildSegments h
  have hlt : t < nextHour s.startTime := hend.trans_le (by exact_mod_cast hnext)
  rw [rateInForce_eq hstart.le hlt, hsegment]
  rfl

/-- Without rounding a segment costs its length times its rate. -/
theorem segmentCost_eq {s : RateSegment}
    (h : s ∈ buildSegments exact rules fallbackRate cursor endTime) :
    (s.segmentCost : ℝ) = ((s.endTime : ℝ)-s.startTime)*(s.ratePerHour/3600000) := by
  have hcost : s.segmentCost = ((s.endTime-s.startTime : ℤ) : ℚ)/(1000*60*60)*s.ratePerHour := by
    rw [(mem_buildSegments h).1]
    rfl
  rw [hcost]
  push_cast
  ring

/-- Without rounding the segments add up to the integral of the rate in force. -/
theorem grossTotal_eq_integral (h : cursor ≤ endTime) :
    ((grossTotal (buildSegments exact rules fallbackRate cursor endTime) : ℚ) : ℝ) =
      ∫ t in (cursor : ℝ)..endTime, (rateInForce rules fallbackRate t : ℝ)/3600000 := by
  have htiles : Tiles RateSegment.startTime RateSegment.endTime
      (buildSegments exact rules fallbackRate cursor endTime) cursor endTime :=
    buildSegments_tiles h
  have hconstant : ConstantOn (fun s => (s.startTime : ℝ)) (fun s => (s.endTime : ℝ))
      (fun s => (s.ratePerHour : ℝ)/3600000)
      (buildSegments exact rules fallbackRate cursor endTime)
      fun t => (rateInForce rules fallbackRate t : ℝ)/3600000 := by
    intro s hs t hstart hend
    exact congrArg (fun rate : ℚ => (rate : ℝ)/3600000) (rateInForce_segment hs hstart hend)
  rw [(htiles.map Int.cast_strictMono).integral hconstant, grossTotal_eq]
  push_cast
  rw [List.map_map]
  congr 1
  apply List.map_congr_left
  intro s hs
  exact segmentCost_eq hs

/-- A search that at most one element passes does not depend on the order of the list. -/
theorem find?_perm {α : Type*} {p : α → Bool} {l l' : List α} (h : l.Perm l')
    (hone : l.Pairwise fun a b => ¬(p a ∧ p b)) : l.find? p = l'.find? p := by
  have hperm : (l.filter p).Perm (l'.filter p) := h.filter p
  have hpairs : (l.filter p).Pairwise fun a b => ¬(p a ∧ p b) := hone.filter p
  rw [← List.head?_filter, ← List.head?_filter]
  cases hfound : l.filter p with
  | nil =>
    rw [hfound, List.nil_perm] at hperm
    rw [hperm]
  | cons a rest =>
    cases hrest : rest with
    | nil =>
      rw [hfound, hrest, List.singleton_perm] at hperm
      rw [hperm]
    | cons b _ =>
      have hmem (x : α) (hx : x ∈ l.filter p) : p x = true := (List.mem_filter.mp hx).2
      rw [hfound, hrest] at hpairs hmem
      exact absurd ⟨hmem a (by simp), hmem b (by simp)⟩
        (List.rel_of_pairwise_cons hpairs List.mem_cons_self)

/-- Rules that do not overlap do not match at the same moment. -/
theorem not_matches_both {r r' : PriceRule} (h : ¬r.Overlaps r') (moment : ℤ) :
    ¬(r.Matches moment ∧ r'.Matches moment) := by
  rintro ⟨⟨hactive, hday, hhours⟩, hactive', hday', hhours'⟩
  exact h ⟨⟨hactive, hactive'⟩, hday.trans hday'.symm, _, hhours, hhours'⟩

theorem findMatchingRule_perm (h : rules.Perm rules')
    (hrules : rules.Pairwise fun r r' => ¬r.Overlaps r') (moment : ℤ) :
    findMatchingRule rules moment = findMatchingRule rules' moment := by
  refine find?_perm h (hrules.imp fun hpair => ?_)
  simpa only [decide_eq_true_eq] using not_matches_both hpair moment

/-- The segments look at the rules only through the search. -/
theorem buildSegments_congr
    (h : ∀ moment, findMatchingRule rules moment = findMatchingRule rules' moment) :
    buildSegments toFixed rules fallbackRate cursor endTime =
      buildSegments toFixed rules' fallbackRate cursor endTime := by
  fun_induction buildSegments toFixed rules fallbackRate cursor endTime with
  | case1 cursor hlt sliceEnd ih =>
    conv_rhs => rw [buildSegments, if_pos hlt]
    rw [ih, rateSegment, h cursor]
    rfl
  | case2 cursor hge => rw [buildSegments, if_neg hge]

theorem calculatePrice_perm {now : ℤ} {userTier : String} (h : rules.Perm rules')
    (hrules : rules.Pairwise fun r r' => ¬r.Overlaps r') :
    calculatePrice toFixed now startTime endTime userTier fallbackRate rules =
      calculatePrice toFixed now startTime endTime userTier fallbackRate rules' := by
  rw [calculatePrice, buildSegments_congr (findMatchingRule_perm h hrules)]
  rfl

/-- A price is calculated for every interval. Its segments are the parts of the interval between
the full hours in it, one for each hour that it meets; without rounding they add up to the
integral of the rate in force, of which the discount of the tier is taken off; and the order of
the rules does not matter when no two of them overlap. -/
theorem calculatePrice_exact (hlt : startTime < endTime) (now : ℤ) (userTier : String)
    (fallbackRate : ℚ) (rules : List PriceRule) :
    ∃ snapshot, calculatePrice exact now startTime endTime userTier fallbackRate rules =
        .ok snapshot ∧
      Tiles RateSegment.startTime RateSegment.endTime snapshot.segments startTime endTime ∧
      (∀ t, startTime < t ∧ t < endTime →
        ((∃ s ∈ snapshot.segments, s.startTime = t) ↔ HourBoundary t)) ∧
      (snapshot.segments.length : ℤ) = (endTime-1)/millisPerHour-startTime/millisPerHour+1 ∧
      ((grossTotal snapshot.segments : ℚ) : ℝ) =
        ∫ t in (startTime : ℝ)..endTime, (rateInForce rules fallbackRate t : ℝ)/3600000 ∧
      snapshot.totalAmount = grossTotal snapshot.segments*(1-tierDiscount userTier) ∧
      ∀ rules', rules.Perm rules' → rules.Pairwise (fun r r' => ¬r.Overlaps r') →
        calculatePrice exact now startTime endTime userTier fallbackRate rules' =
          .ok snapshot := by
  have hprice : calculatePrice exact now startTime endTime userTier fallbackRate rules =
      .ok ⟨buildSegments exact rules fallbackRate startTime endTime,
        grossTotal (buildSegments exact rules fallbackRate startTime endTime)*
          (1-tierDiscount userTier), userTier, tierDiscount userTier, now⟩ := by
    rw [calculatePrice, failIf, if_neg (not_le.mpr hlt)]
    rfl
  refine ⟨_, hprice, buildSegments_tiles hlt.le, fun t ht => buildSegments_cuts ht,
    length_buildSegments hlt, grossTotal_eq_integral hlt.le, rfl, ?_⟩
  intro rules' hperm hrules
  rw [← calculatePrice_perm hperm hrules, hprice]

/-- From half past eight to a quarter past nine on a Thursday there are two segments, and the rate
of the rule is in force from nine on. -/
theorem calculatePrice_exact_thursday :
    let peak : PriceRule := ⟨1, "room-1", 4, 9, 12, 20, some "Peak", true⟩
    ∃ snapshot, calculatePrice exact 0 30600000 33300000 "member" 10 [peak] = .ok snapshot ∧
      snapshot.segments.length = 2 ∧
      ((grossTotal snapshot.segments : ℚ) : ℝ) =
        ∫ t in ((30600000 : ℤ) : ℝ)..(33300000 : ℤ), (rateInForce [peak] 10 t : ℝ)/3600000 := by
  intro peak
  obtain ⟨snapshot, hprice, _, _, hlength, htotal, _⟩ :=
    calculatePrice_exact (by decide : (30600000 : ℤ) < 33300000) 0 "member" 10 [peak]
  refine ⟨snapshot, hprice, ?_, htotal⟩
  have htwo : ((33300000-1)/millisPerHour-30600000/millisPerHour+1 : ℤ) = 2 := by decide
  omega

end HubAssist.Pricing
