import HubAssist.PricingModel
import HubAssist.RunSystem

/-! Whether active price rules overlap, over all runs of the calls that write rules. -/
namespace HubAssist.Pricing
open Checks KeyedTable RunSystem

variable {rules : List PriceRule} {row r r' : PriceRule} {t t' : RuleTable} {id : ℕ}
variable {dto : UpdatePriceRuleDto} {workspaceId : String} {dayOfWeek startHour endHour : ℤ}
variable {excludeId : Option ℕ}

/-- No two active rules of one workspace overlap, and every rule starts before it ends. -/
def RulesApart (t : RuleTable) : Prop :=
  (∀ r ∈ t.rules, ∀ r' ∈ t.rules, r.id ≠ r'.id → r.workspaceId = r'.workspaceId →
    ¬r.Overlaps r') ∧ ∀ r ∈ t.rules, r.startHour < r.endHour

/-- The row overlaps no other rule of its workspace. -/
def Clear (rules : List PriceRule) (row : PriceRule) : Prop :=
  ∀ r ∈ rules, r.id ≠ row.id → r.workspaceId = row.workspaceId → ¬r.Overlaps row

/-- An update that gives no day and no hours leaves the rule clear of the others: what would be
found if the service looked. -/
def StaysClear (t : RuleTable) : Call → Prop
  | .updateRule id dto => dto.timeChanged = false → ∀ rule merged,
      findRow PriceRule.id t.rules id = some rule → merge rule dto = .ok merged →
        Clear t.rules merged
  | _ => True

/-- Identifiers are unique and below the counter. -/
def Numbered (t : RuleTable) : Prop :=
  Keyed PriceRule.id t.rules ∧ ∀ r ∈ t.rules, r.id < t.nextId

theorem PriceRule.Overlaps.symm (h : r.Overlaps r') : r'.Overlaps r := by
  obtain ⟨⟨hactive, hactive'⟩, hday, hour, hin, hin'⟩ := h
  exact ⟨⟨hactive', hactive⟩, hday.symm, hour, hin', hin⟩

/-- A check that passes has found no active rule of the day in any of the hours. -/
theorem assertNoOverlap_eq_ok :
    assertNoOverlap rules workspaceId dayOfWeek startHour endHour excludeId = .ok () ↔
      ∀ r ∈ rules, r.workspaceId = workspaceId → r.dayOfWeek = dayOfWeek → r.isActive = true →
        excludeId ≠ some r.id → ¬(r.startHour < endHour ∧ startHour < r.endHour) := by
  rw [assertNoOverlap]
  cases hfound : List.find? _ _ with
  | some r =>
    refine iff_of_false (by simp) fun h => ?_
    have hmem := List.mem_of_find?_eq_some hfound
    have hmet := List.find?_some hfound
    simp only [List.mem_filter, decide_eq_true_eq] at hmem hmet
    exact h r hmem.1 hmem.2.1 hmem.2.2.1 hmem.2.2.2 hmet.1 hmet.2
  | none =>
    refine iff_of_true rfl ?_
    intro r hr hws hday hactive hid hover
    have hnot := List.find?_eq_none.mp hfound r
      (List.mem_filter.mpr ⟨hr, decide_eq_true ⟨hws, hday, hactive⟩⟩)
    exact hnot (decide_eq_true ⟨hid, hover⟩)

/-- A row that the check passes is clear of the others. -/
theorem clear_of_assertNoOverlap (hid : excludeId = none ∨ excludeId = some row.id)
    (h : assertNoOverlap rules row.workspaceId row.dayOfWeek row.startHour row.endHour excludeId =
      .ok ()) : Clear rules row := by
  rintro r hr hne hws ⟨⟨hactive, _⟩, hday, hour, hin, hin'⟩
  refine assertNoOverlap_eq_ok.mp h r hr hws hday hactive ?_ ⟨by omega, by omega⟩
  rcases hid with rfl | rfl
  · simp
  · simpa using hne.symm

theorem column_absent {α : Type} {old a : α} (h : column none old = .ok a) : a = old :=
  (Except.ok.inj h).symm

/-- An update keeps the identifier. -/
theorem merge_id {rule merged : PriceRule} (h : merge rule dto = .ok merged) :
    merged.id = rule.id := by
  simp only [merge, bind_eq_ok, pure_eq_ok] at h
  obtain ⟨_, _, _, _, _, _, _, _, _, _, _, _, rfl⟩ := h
  rfl

/-- An update that gives no hours keeps them. -/
theorem merge_hours {rule merged : PriceRule} (h : merge rule dto = .ok merged)
    (htime : dto.timeChanged = false) :
    merged.startHour = rule.startHour ∧ merged.endHour = rule.endHour := by
  simp only [UpdatePriceRuleDto.timeChanged, Bool.or_eq_false_iff, Option.isSome_eq_false_iff,
    Option.isNone_iff_eq_none] at htime
  simp only [merge, htime, bind_eq_ok, pure_eq_ok] at h
  obtain ⟨_, _, _, _, startHour, hstart, endHour, hend, _, _, _, _, rfl⟩ := h
  exact ⟨column_absent hstart, column_absent hend⟩

theorem createRule_eq_ok {dto : CreatePriceRuleDto} (h : createRule dto t = .ok (row, t')) :
    row.startHour < row.endHour ∧ Clear t.rules row ∧ row.id = t.nextId ∧
      t' = ⟨save PriceRule.id t.rules row, t.nextId+1⟩ := by
  simp only [createRule, bind_eq_ok, pure_eq_ok, validateRuleHours, failIf_eq_ok,
    Prod.mk.injEq] at h
  obtain ⟨_, hhours, _, hclear, rfl, rfl⟩ := h
  exact ⟨not_le.mp hhours, clear_of_assertNoOverlap (Or.inl rfl) hclear, rfl, rfl⟩

/-- What an accepted update is. -/
theorem updateRule_eq_ok : updateRule id dto t = .ok (row, t') ↔
    ∃ rule, findRow PriceRule.id t.rules id = some rule ∧ merge rule dto = .ok row ∧
      row.startHour < row.endHour ∧ (dto.timeChanged = true → assertNoOverlap t.rules
        row.workspaceId row.dayOfWeek row.startHour row.endHour (some id) = .ok ()) ∧
      t' = { t with rules := save PriceRule.id t.rules row } := by
  simp only [updateRule, findRuleById, bind_eq_ok, getOr_eq_ok, validateRuleHours, failIf_eq_ok]
  constructor
  · rintro ⟨rule, hfind, merged, hmerge, _, hhours, hrest⟩
    cases htime : dto.timeChanged with
    | true =>
      simp only [htime, if_true, bind_eq_ok, pure_eq_ok, Prod.mk.injEq] at hrest
      obtain ⟨_, hclear, rfl, rfl⟩ := hrest
      exact ⟨rule, hfind, hmerge, not_le.mp hhours, fun _ => hclear, rfl⟩
    | false =>
      simp only [htime, Bool.false_eq_true, if_false, pure_eq_ok, Prod.mk.injEq] at hrest
      obtain ⟨rfl, rfl⟩ := hrest
      exact ⟨rule, hfind, hmerge, not_le.mp hhours, by simp, rfl⟩
  · rintro ⟨rule, hfind, hmerge, hhours, hclear, rfl⟩
    refine ⟨rule, hfind, row, hmerge, (), not_le.mpr hhours, ?_⟩
    cases htime : dto.timeChanged with
    | true => rw [if_pos rfl, hclear htime, ok_bind]; rfl
    | false => rfl

theorem deleteRule_eq_ok : deleteRule id t = .ok t' ↔
    ∃ rule, findRow PriceRule.id t.rules id = some rule ∧
      t' = { t with rules := others PriceRule.id t.rules id } := by
  simp only [deleteRule, findRuleById, bind_eq_ok, getOr_eq_ok, pure_eq_ok]
  apply exists_congr
  intro rule
  apply and_congr_right
  intro hfind
  rw [(findRow_eq_some hfind).2, eq_comm]

/-- Saving a rule that starts before it ends keeps the rules apart exactly when it is clear of the
others. -/
theorem rulesApart_save (hkeyed : Keyed PriceRule.id t.rules) (h : RulesApart t)
    (hhours : row.startHour < row.endHour) (nextId : ℕ) :
    RulesApart ⟨save PriceRule.id t.rules row, nextId⟩ ↔ Clear t.rules row := by
  simp only [RulesApart, Keyed.mem_save_iff hkeyed]
  constructor
  · rintro ⟨hapart, _⟩ r hr hne hws
    exact hapart r (Or.inr ⟨hr, hne⟩) row (Or.inl rfl) hne hws
  · intro hclear
    constructor
    · rintro r (rfl | ⟨hr, hne⟩) r' (rfl | ⟨hr', hne'⟩) hid hws
      · exact absurd rfl hid
      · exact fun hover => hclear r' hr' hne' hws.symm hover.symm
      · exact hclear r hr hne hws
      · exact h.1 r hr r' hr' hid hws
    · rintro r (rfl | ⟨hr, _⟩)
      · exact hhours
      · exact h.2 r hr

theorem rulesApart_others (h : RulesApart t) (id : ℕ) :
    RulesApart { t with rules := others PriceRule.id t.rules id } := by
  have hmem (r : PriceRule) (hr : r ∈ others PriceRule.id t.rules id) : r ∈ t.rules :=
    (List.mem_filter.mp hr).1
  exact ⟨fun r hr r' hr' => h.1 r (hmem r hr) r' (hmem r' hr'), fun r hr => h.2 r (hmem r hr)⟩

/-- What a call does to the table: nothing, or one row saved, with the next identifier or one that
is there, or one row removed. -/
theorem exec_cases {call : Call} (h : exec t call = .ok t') :
    (∃ row, t' = ⟨save PriceRule.id t.rules row, t.nextId+1⟩ ∧ row.id = t.nextId) ∨
    (∃ row, t' = ⟨save PriceRule.id t.rules row, t.nextId⟩ ∧ ∃ r ∈ t.rules, r.id = row.id) ∨
    ∃ id, t' = ⟨others PriceRule.id t.rules id, t.nextId⟩ := by
  cases call with
  | createRule dto =>
    obtain ⟨⟨row, _⟩, hcreate, rfl⟩ := map_eq_ok.mp h
    obtain ⟨_, _, hid, rfl⟩ := createRule_eq_ok hcreate
    exact Or.inl ⟨row, rfl, hid⟩
  | updateRule id dto =>
    obtain ⟨⟨row, _⟩, hupdate, rfl⟩ := map_eq_ok.mp h
    obtain ⟨rule, hfind, hmerge, _, _, rfl⟩ := updateRule_eq_ok.mp hupdate
    exact Or.inr (Or.inl ⟨row, rfl, rule, (findRow_eq_some hfind).1, (merge_id hmerge).symm⟩)
  | deleteRule id =>
    obtain ⟨_, _, rfl⟩ := deleteRule_eq_ok.mp h
    exact Or.inr (Or.inr ⟨id, rfl⟩)

theorem numbered_step (t : RuleTable) (call : Call) (h : Numbered t) : Numbered (step t call) := by
  rw [step]
  cases hexec : exec t call with
  | error _ => exact h
  | ok t' =>
    rcases exec_cases hexec with ⟨row, rfl, hid⟩ | ⟨row, rfl, old, hold, hid⟩ | ⟨id, rfl⟩
    · refine ⟨h.1.save row, fun r hr => ?_⟩
      rcases mem_of_mem_save hr with rfl | hr
      · exact hid ▸ Nat.lt_succ_self _
      · exact (h.2 r hr).trans (Nat.lt_succ_self _)
    · refine ⟨h.1.save row, fun r hr => ?_⟩
      rcases mem_of_mem_save hr with rfl | hr
      · exact hid ▸ h.2 old hold
      · exact h.2 r hr
    · exact ⟨h.1.others id, fun r hr => h.2 r (List.mem_filter.mp hr).1⟩

/-- An update keeps the rules apart exactly when it leaves the rule clear of the others, or when
it gives a day or hours. -/
theorem rulesApart_updateRule (hnumbered : Numbered t) (h : RulesApart t) (id : ℕ)
    (dto : UpdatePriceRuleDto) :
    RulesApart (step t (.updateRule id dto)) ↔ StaysClear t (.updateRule id dto) := by
  rw [step, exec]
  cases hupdate : updateRule id dto t with
  | error message =>
    refine iff_of_true h ?_
    intro htime rule merged hfind hmerge
    -- without new hours no check stands in the way of the save
    obtain ⟨hstart, hend⟩ := merge_hours hmerge htime
    have hhours : merged.startHour < merged.endHour := by
      rw [hstart, hend]
      exact h.2 rule (findRow_eq_some hfind).1
    have hok := updateRule_eq_ok.mpr ⟨rule, hfind, hmerge, hhours, by simp [htime], rfl⟩
    rw [hupdate] at hok
    cases hok
  | ok saved =>
    obtain ⟨row, t'⟩ := saved
    obtain ⟨rule, hfind, hmerge, hhours, hchecked, rfl⟩ := updateRule_eq_ok.mp hupdate
    refine (rulesApart_save hnumbered.1 h hhours t.nextId).trans ?_
    constructor
    · intro hclear _ rule' merged' hfind' hmerge'
      obtain rfl := Option.some.inj (hfind.symm.trans hfind')
      obtain rfl := Except.ok.inj (hmerge.symm.trans hmerge')
      exact hclear
    · intro hstays
      cases htime : dto.timeChanged with
      | true =>
        refine clear_of_assertNoOverlap (Or.inr ?_) (hchecked htime)
        rw [merge_id hmerge, (findRow_eq_some hfind).2]
      | false => exact hstays htime rule row hfind hmerge

theorem rulesApart_step (t : RuleTable) (call : Call) (hnumbered : Numbered t)
    (h : RulesApart t) : RulesApart (step t call) ↔ StaysClear t call := by
  cases call with
  | createRule dto =>
    refine iff_of_true ?_ trivial
    rw [step, exec]
    cases hcreate : createRule dto t with
    | error _ => exact h
    | ok saved =>
      obtain ⟨row, t'⟩ := saved
      obtain ⟨hhours, hclear, _, rfl⟩ := createRule_eq_ok hcreate
      exact (rulesApart_save hnumbered.1 h hhours _).mpr hclear
  | updateRule id dto => exact rulesApart_updateRule hnumbered h id dto
  | deleteRule id =>
    refine iff_of_true ?_ trivial
    rw [step, exec]
    cases hdelete : deleteRule id t with
    | error _ => exact h
    | ok t' =>
      obtain ⟨_, _, rfl⟩ := deleteRule_eq_ok.mp hdelete
      exact rulesApart_others h id

/-- The active rules stay apart through a run exactly when every update of it that gives no day and
no hours leaves its rule clear of the others. -/
theorem rulesApart_iff (calls : List Call) :
    Always step RulesApart noRules calls ↔ Guarded step StaysClear noRules calls := by
  have hnumbered : Numbered noRules := ⟨List.nodup_nil, by simp [noRules]⟩
  have hapart : RulesApart noRules := by simp [RulesApart, noRules]
  exact always_iff_guarded step numbered_step
    (fun t call hn h => rulesApart_step t call hn h) hnumbered hapart

/-- A rule for the morning is set aside, another takes its place, and the first is made active
again. -/
def reactivation : List Call :=
  [.createRule ⟨"room-1", 1, 9, 12, 20, some "Peak", none⟩,
    .updateRule 1 ⟨none, none, none, none, none, none, some (some false)⟩,
    .createRule ⟨"room-1", 1, 10, 11, 30, none, none⟩,
    .updateRule 1 ⟨none, none, none, none, none, none, some (some true)⟩]

/-- Both are then active for the same hour. -/
theorem reactivation_overlaps : ¬Always step RulesApart noRules reactivation := by
  rintro ⟨_, _, _, _, hapart, _⟩
  have hrules : (run step noRules reactivation).rules =
      [⟨1, "room-1", 1, 9, 12, 20, some "Peak", true⟩,
        ⟨2, "room-1", 1, 10, 11, 30, none, true⟩] := by decide
  have hmem (r : PriceRule) (hr : r ∈ (run step noRules reactivation).rules) := hapart r hr
  rw [hrules] at hmem
  refine hmem _ List.mem_cons_self ⟨2, "room-1", 1, 10, 11, 30, none, true⟩ ?_ (by decide) rfl
    ⟨⟨rfl, rfl⟩, rfl, 10, by decide, by decide⟩
  exact hrules ▸ List.mem_cons_of_mem _ List.mem_cons_self

end HubAssist.Pricing
