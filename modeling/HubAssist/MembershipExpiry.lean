import HubAssist.BucketIndex
import HubAssist.MembershipStatus

/-! The index of expiry days against the tokens themselves: which tokens it files, and which
steps keep the list of expiring tokens exact. -/
namespace HubAssist.Membership
open SorobanHost CheckedArith RunSystem BucketIndex

variable {Address : Type} [DecidableEq Address] {C : Chain Address}
variable {env : Env C} {s s' : Storage Address} {w : MembershipWorld C}

/-- The ledger time in days. -/
def today (w : MembershipWorld C) : ℕ := w.now/secondsPerDay

/-- `getExpiringTokens` lists, each once, the tokens that are not revoked and expire on a day
from today to `d` days ahead. -/
def ExactAt (d : ℕ) (w : MembershipWorld C) : Prop :=
  ∃ ids, getExpiringTokens d w = .ok ids ∧ ids.Nodup ∧
    ∀ k, k ∈ ids ↔ ∃ token, w.store.token k = some token ∧ token.status ≠ .revoked ∧
      today w ≤ expiryDay token.expiryDate ∧ expiryDay token.expiryDate ≤ today w+d

def Exact (w : MembershipWorld C) : Prop := ∀ d ≤ 365, ExactAt d w

/-- The numbers of the tokens that were issued alone or have been renewed. -/
def listing (call : Call Address) (w _w' : MembershipWorld C) (listed : List ℕ) : List ℕ :=
  match call with
  | .issueToken _ _ _ _ => (w.store.tokenCount.getD 0+1) :: listed
  | .renewToken _ id _ => id :: listed
  | _ => listed

/-- The bucket of each listed token is that of its expiry day. -/
def home (s : Storage Address) (listed : List ℕ) (k : ℕ) : Option ℕ :=
  if k ∈ listed then (s.token k).map fun token => expiryDay token.expiryDate else none

def bucket (index : ℕ → Option (List ℕ)) (day : ℕ) : List ℕ := (index day).getD []

theorem bucket_pushToDay (index : ℕ → Option (List ℕ)) (day id : ℕ) :
    bucket (pushToDay index day id) = push (bucket index) day id := by
  funext d
  by_cases hd : d = day
  · subst hd
    simp [bucket, pushToDay, push]
  · simp [bucket, pushToDay, push, hd]

theorem bucket_dropFromDay (index : ℕ → Option (List ℕ)) (day id : ℕ) :
    bucket (dropFromDay index day id) = drop (bucket index) day id := by
  funext d
  cases hday : index day with
  | none =>
    -- nothing is stored for the day, and nothing is taken out of it
    by_cases hd : d = day
    · subst hd
      simp [bucket, dropFromDay, drop, hday]
    · simp [bucket, dropFromDay, drop, hday, hd]
  | some ids =>
    by_cases hd : d = day
    · subst hd
      simp only [bucket, dropFromDay, drop, hday, Function.update_self, Option.getD_some]
      split_ifs with hempty
      · simpa using hempty.symm
      · rfl
    · simp [bucket, dropFromDay, drop, hday, hd]

/-- The index files the listed tokens, all of which exist, by their expiry days. -/
structure Indexed (s : Storage Address) (listed : List ℕ) : Prop where
  numbered : Numbered s
  exist : ∀ k ∈ listed, s.token k ≠ none
  filed : Filed (home s listed) (bucket s.expiryIndex)

/-- The token expires on a day from today to `d` days ahead. -/
def DueWithin (w : MembershipWorld C) (d : ℕ) (token : MembershipToken Address) : Prop :=
  today w ≤ expiryDay token.expiryDate ∧ expiryDay token.expiryDate ≤ today w+d

/-- Of the tokens that expire within `d` days exactly those not revoked are listed. -/
def Tended (d : ℕ) (listed : List ℕ) (w : MembershipWorld C) : Prop :=
  ∀ k token, w.store.token k = some token → DueWithin w d token →
    (k ∈ listed ↔ token.status ≠ .revoked)

theorem getExpiringTokens_eq {d : ℕ} (hclock : w.now < u64Bound) (hd : d ≤ 365) :
    getExpiringTokens d w =
      .ok (gather (bucket w.store.expiryIndex) (List.range' (today w) (d+1))) := by
  have hbound : w.now/secondsPerDay+min d 365 < u64Bound := by
    unfold u64Bound secondsPerDay at *
    omega
  have hadd : u64Add (w.now/secondsPerDay) (min d 365) = some (w.now/secondsPerDay+min d 365) := by
    rw [u64Add, if_pos hbound]
  have hlength : w.now/secondsPerDay+d+1-w.now/secondsPerDay = d+1 := by omega
  rw [getExpiringTokens, hadd, Nat.min_eq_left hd]
  simp only [checked, getOr, bind, Except.bind, pure, Except.pure, hlength]
  rfl

/-- With an index that files the listed tokens, the list of the expiring ones is exact when the
listed tokens are the right ones. -/
theorem exactAt_iff {d : ℕ} {listed : List ℕ} (hclock : w.now < u64Bound) (hd : d ≤ 365)
    (h : Indexed w.store listed) : ExactAt d w ↔ Tended d listed w := by
  -- what the index gathers, read back through the buckets
  have hmem (k : ℕ) : k ∈ gather (bucket w.store.expiryIndex) (List.range' (today w) (d+1)) ↔
      k ∈ listed ∧ ∃ token, w.store.token k = some token ∧ DueWithin w d token := by
    rw [h.filed.mem_gather]
    simp only [List.mem_range'_1, home, Option.ite_none_right_eq_some, Option.map_eq_some_iff]
    constructor
    · rintro ⟨_, ⟨hge, hlt⟩, hlisted, token, htoken, rfl⟩
      exact ⟨hlisted, token, htoken, hge, by omega⟩
    · rintro ⟨hlisted, token, htoken, hge, hle⟩
      exact ⟨_, ⟨hge, by omega⟩, hlisted, token, htoken, rfl⟩
  have hdays : (List.range' (today w) (d+1)).Nodup := List.nodup_range'
  have hnodup := h.filed.nodup_gather hdays
  unfold ExactAt
  rw [getExpiringTokens_eq hclock hd]
  constructor
  · rintro ⟨_, hids, _, hexact⟩ k token htoken hdue
    obtain rfl := Except.ok.inj hids
    constructor
    · intro hlisted
      obtain ⟨token', htoken', hlive, _⟩ :=
        (hexact k).mp ((hmem k).mpr ⟨hlisted, token, htoken, hdue⟩)
      obtain rfl := Option.some.inj (htoken.symm.trans htoken')
      exact hlive
    · intro hlive
      exact ((hmem k).mp ((hexact k).mpr ⟨token, htoken, hlive, hdue⟩)).1
  · intro htended
    refine ⟨_, rfl, hnodup, fun k => ?_⟩
    rw [hmem]
    constructor
    · rintro ⟨hlisted, token, htoken, hdue⟩
      exact ⟨token, htoken, (htended k token htoken hdue).mp hlisted, hdue⟩
    · rintro ⟨token, htoken, hlive, hdue⟩
      exact ⟨(htended k token htoken hdue).mpr hlive, token, htoken, hdue⟩

theorem exact_iff {listed : List ℕ} (hclock : w.now < u64Bound) (h : Indexed w.store listed) :
    Exact w ↔ Tended 365 listed w := by
  constructor
  · intro hexact
    exact (exactAt_iff hclock (Nat.le_refl 365) h).mp (hexact 365 (Nat.le_refl 365))
  · intro htended d hd
    refine (exactAt_iff hclock hd h).mpr fun k token htoken hdue => ?_
    exact htended k token htoken ⟨hdue.1, hdue.2.trans (Nat.add_le_add_left hd _)⟩

/-- The accepted calls that leave a token issued but not listed, or listed but revoked, within a
year of its expiry. -/
def Call.KeepsExact (listed : List ℕ) (w : MembershipWorld C) : Call Address → Prop
  | .batchIssueTokens _ params => ∀ p ∈ params, today w+365 < expiryDay p.expiryDate
  | .revokeToken _ id => id ∈ listed → ∀ token, w.store.token id = some token →
      today w+365 < expiryDay token.expiryDate
  | _ => True

omit [DecidableEq Address] in
theorem home_congr {listed : List ℕ}
    (h : ∀ k ∈ listed, (s'.token k).map (fun token => expiryDay token.expiryDate) =
      (s.token k).map fun token => expiryDay token.expiryDate) : home s' listed = home s listed := by
  funext k
  unfold home
  split_ifs with hk
  · exact h k hk
  · rfl

omit [DecidableEq Address] in
theorem home_of_not_mem {listed : List ℕ} {k : ℕ} (h : k ∉ listed) : home s listed k = none :=
  if_neg h

theorem TokenChange.exists_after {call : Call Address} {k : ℕ}
    {o o' : Option (MembershipToken Address)} (h : TokenChange env call w k o o') (ho : o ≠ none) :
    o' ≠ none := by
  cases h with
  | absent => exact ho
  | issued => exact Option.some_ne_none _
  | handed => exact Option.some_ne_none _
  | renewed => exact Option.some_ne_none _
  | revoked => exact Option.some_ne_none _

theorem Call.Administers.listing_eq {call : Call Address} (h : call.Administers)
    (w w' : MembershipWorld C) (listed : List ℕ) : listing call w w' listed = listed := by
  cases call <;> first | rfl | exact h.elim

theorem Call.listing_of_transfers {call : Call Address} {params : List (TransferParams Address)}
    (h : call.transfers = some params) (w w' : MembershipWorld C) (listed : List ℕ) :
    listing call w w' listed = listed := by
  cases call <;> first | rfl | exact absurd h.symm (Option.some_ne_none params)

/-- A transfer changes no token's expiry date and no mark. -/
theorem moveAll_token_map {params : List (TransferParams Address)} {β : Type}
    {f : MembershipToken Address → β} (hs : Numbered w.store)
    (h : moveAll env w.now params w.store = .ok s')
    (hf : ∀ (token : MembershipToken Address) owner, f { token with owner := owner } = f token)
    (k : ℕ) : (s'.token k).map f = (w.store.token k).map f := by
  obtain ⟨_, hall⟩ := moveAll_token hs h
  cases htoken : w.store.token k with
  | none => rw [(hall k).1 htoken]
  | some token =>
    obtain ⟨token', htoken', hmoves⟩ := (hall k).2 token htoken
    obtain ⟨owner, rfl⟩ := hmoves.frame
    rw [htoken', Option.map_some, Option.map_some, hf]

variable (s) in
omit [DecidableEq Address] in
/-- The index files one more token: it is pushed where it was filed nowhere. -/
theorem filed_push {listed : List ℕ} {id : ℕ} (token : MembershipToken Address)
    (index : ℕ → Option (List ℕ)) (hid : token.id = id)
    (htoken : s'.token = (saveToken s token).token)
    (hindex : s'.expiryIndex = pushToDay index (expiryDay token.expiryDate) id)
    (h : Filed (Function.update (home s listed) id none) (bucket index)) :
    Filed (home s' (id :: listed)) (bucket s'.expiryIndex) := by
  have hpush := h.push (k := id) (Function.update_self ..) (expiryDay token.expiryDate)
  rw [Function.update_idem] at hpush
  rw [hindex, bucket_pushToDay]
  convert hpush using 1
  funext k
  subst hid
  by_cases hk : k = token.id
  · subst hk
    simp [home, htoken]
  · simp [home, htoken, saveToken_token_of_ne s hk, hk]

omit [DecidableEq Address] in
/-- The tokens that existed before a batch are left as they were. -/
theorem issuedBatch_token_old {params : List (IssueParams Address)} {k : ℕ} (hs : Numbered s)
    (hk : s.token k ≠ none) (now : ℕ) : (issuedBatch s now params).token k = s.token k := by
  rcases issuedBatch_token_cases s now params k with hold | ⟨hlt, _⟩
  · exact hold
  · exact absurd (hs.token_fresh hlt) hk

/-- Every accepted call keeps the index in step with the listed tokens. -/
theorem Effect.indexed {call : Call Address} {listed : List ℕ} (h : Effect env w call s')
    (hi : Indexed w.store listed) :
    Indexed s' (listing call w (w.setStore s') listed) := by
  obtain ⟨hnumbered, _, hchange⟩ := h.token hi.numbered
  have hexist (k : ℕ) (hk : w.store.token k ≠ none) : s'.token k ≠ none :=
    (hchange k).exists_after hk
  have hlisted (k : ℕ) (hk : k ∈ listed) : s'.token k ≠ none := hexist k (hi.exist k hk)
  cases h with
  | administer hcall htoken _ hindex _ =>
    rw [hcall.listing_eq]
    refine ⟨hnumbered, hlisted, ?_⟩
    have hhome : home s' listed = home w.store listed := home_congr fun k _ => by rw [htoken]
    rw [hindex, hhome]
    exact hi.filed
  | @issue admin owner tier expiryDate id hexpiry hid =>
    have hfresh : w.store.token id = none := hi.numbered.token_fresh (by omega)
    -- the number is new, so it is filed nowhere yet
    have hunlisted : id ∉ listed := fun hmem => hi.exist id hmem hfresh
    simp only [listing, ← hid]
    refine ⟨hnumbered, ?_, ?_⟩
    · intro k hk
      rcases List.mem_cons.mp hk with rfl | hk
      · simp [issued, saveToken]
      · exact hlisted k hk
    · refine filed_push w.store ⟨id, owner, tier, w.now, expiryDate, .active⟩ _ rfl rfl rfl ?_
      rw [Function.update_eq_self_iff.mpr (home_of_not_mem hunlisted).symm]
      exact hi.filed
  | transfer hcall hmove =>
    rw [Call.listing_of_transfers hcall]
    refine ⟨hnumbered, hlisted, ?_⟩
    have hhome : home s' listed = home w.store listed :=
      home_congr fun k _ => moveAll_token_map hi.numbered hmove (fun _ _ => rfl) k
    rw [hhome]
    obtain ⟨_, rfl⟩ := moveAll_tokensOnly hmove
    exact hi.filed
  | @renew admin id expiryDate token _ _ htoken _ =>
    obtain ⟨rfl, _⟩ := hi.numbered id token htoken
    refine ⟨hnumbered, ?_, ?_⟩
    · intro k hk
      rcases List.mem_cons.mp hk with rfl | hk
      · exact hexist _ (by simp [htoken])
      · exact hlisted k hk
    · refine filed_push w.store { token with expiryDate := expiryDate, status := .active }
        (dropFromDay w.store.expiryIndex (expiryDay token.expiryDate) token.id) rfl rfl rfl ?_
      rw [bucket_dropFromDay]
      refine hi.filed.drop fun e he => ?_
      -- the bucket it may have is that of its present expiry day
      simp only [home, htoken, Option.map_some, Option.ite_none_right_eq_some] at he
      exact (Option.some.inj he.2).symm
  | @revoke admin id token htoken _ =>
    obtain ⟨rfl, _⟩ := hi.numbered id token htoken
    refine ⟨hnumbered, hlisted, ?_⟩
    have hhome : home (saveToken w.store { token with status := .revoked }) listed =
        home w.store listed := by
      -- a revocation leaves the entry of the index where it is
      refine home_congr fun k _ => ?_
      by_cases hk : k = token.id
      · subst hk
        simp [saveToken, htoken]
      · exact congrArg _ (saveToken_token_of_ne w.store hk)
    simp only [listing]
    rw [hhome]
    exact hi.filed
  | @issueBatch admin params _ =>
    refine ⟨hnumbered, hlisted, ?_⟩
    -- a batch files nothing: its tokens are issued but not listed
    have hhome : home (issuedBatch w.store w.now params) listed = home w.store listed :=
      home_congr fun k hk => by rw [issuedBatch_token_old hi.numbered (hi.exist k hk)]
    obtain ⟨tokens, heq⟩ := issuedBatch_frame w.store w.now params
    simp only [listing]
    rw [hhome, heq]
    exact hi.filed

/-- A change that leaves the dates, the marks and the listed numbers alone leaves the tokens as
tended as they were. -/
theorem Tended.congr {d : ℕ} {listed : List ℕ} (h : Tended d listed w)
    (htoken : ∀ k, (s'.token k).map (fun token => (token.expiryDate, token.status)) =
      (w.store.token k).map fun token => (token.expiryDate, token.status)) :
    Tended d listed (w.setStore s') := by
  intro k token hk hdue
  have hmap := htoken k
  rw [World.setStore_store] at hk
  rw [hk, Option.map_some, eq_comm, Option.map_eq_some_iff] at hmap
  obtain ⟨old, hold, heq⟩ := hmap
  obtain ⟨hexpiry, hstatus⟩ := Prod.mk.inj heq
  rw [← hstatus]
  refine h k old hold ?_
  unfold DueWithin at hdue ⊢
  rw [hexpiry]
  exact hdue

variable (s') in
/-- Where one token is written, the tokens are tended when that one is. -/
theorem Tended.saved_iff {d : ℕ} {listed : List ℕ} (h : Tended d listed w) (listed' : List ℕ)
    (token : MembershipToken Address) (htoken : s'.token = (saveToken w.store token).token)
    (hlisted : ∀ k, k ≠ token.id → (k ∈ listed' ↔ k ∈ listed)) :
    Tended d listed' (w.setStore s') ↔
      (DueWithin w d token → (token.id ∈ listed' ↔ token.status ≠ .revoked)) := by
  unfold Tended
  rw [World.setStore_store, htoken]
  constructor
  · intro h' hdue
    exact h' token.id token (saveToken_token_self ..) hdue
  · intro hself k token' hk hdue
    rcases saveToken_token_cases hk with ⟨rfl, rfl⟩ | ⟨hne, hold⟩
    · exact hself hdue
    · rw [hlisted k hne]
      exact h k token' hold hdue

/-- A token that is still active expires today at the earliest. -/
theorem today_le_of_active {token : MembershipToken Address}
    (h : computeStatus w.store w.now token = .ok .active) :
    today w ≤ expiryDay token.expiryDate := by
  have hrevoked : token.status ≠ .revoked := fun hrevoked =>
    absurd ((computeStatus_revoked_iff.mpr hrevoked).symm.trans h) (by simp)
  have htimed := computeStatus_timed hrevoked h
  unfold timedStatus at htimed
  split_ifs at htimed with hnow
  exact Nat.div_le_div_right hnow

/-- An accepted call leaves the tokens that expire within a year tended when it meets the
condition. -/
theorem Effect.tended_iff {call : Call Address} {listed : List ℕ} (h : Effect env w call s')
    (hi : Indexed w.store listed) (ht : Tended 365 listed w) :
    Tended 365 (listing call w (w.setStore s') listed) (w.setStore s') ↔
      call.KeepsExact listed w := by
  cases h with
  | administer hcall htoken _ _ _ =>
    rw [hcall.listing_eq]
    refine iff_of_true (ht.congr fun k => by rw [htoken]) ?_
    cases call <;> trivial
  | @issue admin owner tier expiryDate id _ hid =>
    simp only [listing, ← hid]
    have hsaved := ht.saved_iff (issued w.store w.now id owner tier expiryDate) (id :: listed)
      ⟨id, owner, tier, w.now, expiryDate, .active⟩ rfl fun k hk => by simp [hk]
    rw [hsaved]
    exact iff_of_true (fun _ => by simp) trivial
  | transfer hcall hmove =>
    rw [Call.listing_of_transfers hcall]
    refine iff_of_true (ht.congr fun k =>
      moveAll_token_map hi.numbered hmove (fun _ _ => rfl) k) ?_
    cases call <;> trivial
  | @renew admin id expiryDate token _ _ htoken _ =>
    obtain ⟨rfl, _⟩ := hi.numbered id token htoken
    have hsaved := ht.saved_iff (renewed w.store token.id token expiryDate) (token.id :: listed)
      { token with expiryDate := expiryDate, status := .active } rfl fun k hk => by simp [hk]
    simp only [listing]
    rw [hsaved]
    exact iff_of_true (fun _ => by simp) trivial
  | @revoke admin id token htoken hstatus =>
    obtain ⟨rfl, _⟩ := hi.numbered id token htoken
    have hsaved := ht.saved_iff (saveToken w.store { token with status := .revoked }) listed
      { token with status := .revoked } rfl fun _ _ => Iff.rfl
    have hdue := today_le_of_active hstatus
    simp only [listing]
    rw [hsaved]
    simp only [DueWithin, Call.KeepsExact, ne_eq, not_true_eq_false, iff_false, htoken,
      Option.some.injEq, forall_eq']
    constructor
    · intro hunlisted hlisted
      by_contra hnear
      exact hunlisted ⟨hdue, Nat.not_lt.mp hnear⟩ hlisted
    · intro hfar hwithin hlisted
      exact absurd hwithin.2 (Nat.not_le.mpr (hfar hlisted))
  | @issueBatch admin params hexpiry =>
    simp only [listing]
    -- a token of the batch is active and not listed
    have hnew (k : ℕ) (hk : w.store.tokenCount.getD 0 < k) : k ∉ listed := fun hlisted =>
      hi.exist k hlisted (hi.numbered.token_fresh hk)
    constructor
    · intro h' p hp
      by_contra hnear
      obtain ⟨k, hk, htoken⟩ := issuedBatch_token_of_mem w.store w.now hp
      have hwithin : DueWithin w 365 (⟨k, p.owner, p.tier, w.now, p.expiryDate, .active⟩ :
          MembershipToken Address) :=
        ⟨Nat.div_le_div_right (hexpiry p hp).le, Nat.not_lt.mp hnear⟩
      exact hnew k hk ((h' k _ htoken hwithin).mpr (by simp))
    · intro hfar k token hk hdue
      rcases issuedBatch_token_cases w.store w.now params k with hold | ⟨_, _, p, hp, htoken⟩
      · exact ht k token (hold ▸ hk) hdue
      · obtain rfl := Option.some.inj (htoken.symm.trans hk)
        exact absurd hdue.2 (Nat.not_le.mpr (hfar p hp))

/-- The steps that keep the list of expiring tokens exact: no accepted call leaves a token near
its expiry wrongly listed, and no token comes near its expiry wrongly listed. -/
def KeepsExact (listed : List ℕ) (w : MembershipWorld C) : Action C (Call Address) → Prop
  | .invoke env call => (∃ w', exec env call w = .ok w') → call.KeepsExact listed w
  | .tick seconds => Tended 365 listed (w.elapse seconds)
  | .external _ _ => True

/-- The contract beside the numbers of the tokens issued alone or renewed. -/
abbrev listedStep : MembershipWorld C × List ℕ → Action C (Call Address) →
    MembershipWorld C × List ℕ :=
  withHistory (step exec) (recordCalls exec listing)

theorem step_indexed {w : MembershipWorld C} {listed : List ℕ} (a : Action C (Call Address))
    (hi : Indexed w.store listed) :
    Indexed (step exec w a).store (recordCalls exec listing w a listed) := by
  refine recordCalls_keeps listing (fun w listed => Indexed w.store listed) hi ?_ ?_ ?_
  · intro env call w' _ hcall
    obtain ⟨s', rfl, heffect⟩ := exec_effect hcall
    exact heffect.indexed hi
  · exact fun _ _ => hi
  · exact fun _ _ _ _ => hi

/-- With the index in step with the listed tokens, a step keeps the list of expiring tokens
exact when it meets the condition. -/
theorem step_exact_iff {w : MembershipWorld C} {listed : List ℕ} {a : Action C (Call Address)}
    (hi : Indexed w.store listed) (hclock : (step exec w a).now < u64Bound) (hw : Exact w) :
    Exact (step exec w a) ↔ KeepsExact listed w a := by
  have hnow : w.now < u64Bound := (step_token w a hi.numbered).2.1.trans_lt hclock
  have ht := (exact_iff hnow hi).mp hw
  rw [exact_iff hclock (step_indexed a hi)]
  cases a with
  | invoke env call =>
    cases hcall : exec env call w with
    | ok w' =>
      obtain ⟨s', rfl, heffect⟩ := exec_effect hcall
      rw [step_invoke_ok hcall, recordCalls_ok hcall, heffect.tended_iff hi ht]
      exact ⟨fun h _ => h, fun h => h ⟨_, hcall⟩⟩
    | error fault =>
      rw [step_invoke_error hcall, recordCalls_error hcall]
      refine iff_of_true ht ?_
      rintro ⟨w', hw'⟩
      exact absurd (hcall.symm.trans hw') (by simp)
  | tick seconds => exact Iff.rfl
  | external token next =>
    exact iff_of_true (step_external_keeps (fun w => Tended 365 listed w) ht ht) trivial

theorem now_le_run {w : MembershipWorld C} (hs : Numbered w.store)
    (as : List (Action C (Call Address))) : w.now ≤ (run exec w as).now := by
  have hinv := RunSystem.run_invariant_all (step exec)
    (I := fun v => Numbered v.store ∧ w.now ≤ v.now)
    (fun v b hv => ⟨(step_token v b hv.1).1, hv.2.trans (step_token v b hv.1).2.1⟩)
    ⟨hs, Nat.le_refl _⟩ as
  exact hinv.2

/-- A ledger time that is in range at the end of a run is in range after every step. -/
theorem guarded_clock {w : MembershipWorld C} {as : List (Action C (Call Address))} {bound : ℕ}
    (hs : Numbered w.store) (hclock : (run exec w as).now < bound) :
    Guarded (step exec) (fun w a => (step exec w a).now < bound) w as := by
  induction as generalizing w with
  | nil => trivial
  | cons a as ih =>
    have hs₁ := (step_token w a hs).1
    exact ⟨(now_le_run hs₁ as).trans_lt hclock, ih hs₁ hclock⟩

theorem deployed_indexed (w : MembershipWorld C) (wasm : Hash) (gracePeriodDays : Option ℕ) :
    Indexed (deployed w wasm gracePeriodDays).store [] :=
  ⟨deployed_numbered w wasm gracePeriodDays, fun _ hk => absurd hk List.not_mem_nil, filed_empty⟩

/-- The list of expiring tokens is exact in every state of a run from a deployed contract exactly
when every step of the run meets the condition: a batch issues only tokens that expire more than
a year ahead, a token issued alone or renewed is revoked only when it does, and no token of a
batch that has not been renewed, nor one revoked after it was listed, comes within a year of its
expiry. -/
theorem expiry_index_run_iff (w : MembershipWorld C) (wasm : Hash) (gracePeriodDays : Option ℕ)
    (as : List (Action C (Call Address)))
    (hclock : (run exec (deployed w wasm gracePeriodDays) as).now < u64Bound) :
    Always (step exec) Exact (deployed w wasm gracePeriodDays) as ↔
      Guarded listedStep (fun s a => KeepsExact s.2 s.1 a)
        (deployed w wasm gracePeriodDays, []) as := by
  have hi := deployed_indexed w wasm gracePeriodDays
  have hg := guarded_clock (deployed_numbered w wasm gracePeriodDays) hclock
  rw [← always_withHistory (step exec) (recordCalls exec listing) Exact (_, [])]
  rw [← guarded_withHistory (step exec) (recordCalls exec listing) _ (_, [])] at hg
  refine always_iff_guarded_of_guarded listedStep (J := fun s => Indexed s.1.store s.2)
    (fun s a hs _ => step_indexed a hs) (fun s a hs hnow hexact => step_exact_iff hs hnow hexact)
    hg hi ?_
  have hstart := (now_le_run hi.numbered as).trans_lt hclock
  exact (exact_iff hstart hi).mpr fun k token hk => nomatch hk

/-- A contract with the admin 1, a moment after its deployment. -/
def freshContract : MembershipWorld numberedChain :=
  deployed ⟨Storage.empty 0, fun _ _ => (0 : ℕ), [], 0⟩ 0 none

/-- One token issued alone, renewed in its grace period. -/
def issuedAndRenewed : List (Action numberedChain (Call ℕ)) :=
  [.invoke (signedBy 0) (.initializeContract 1), .invoke (signedBy 0) (.issueToken 1 5 0 86400),
    .tick 90000, .invoke (signedBy 0) (.renewToken 1 1 864000)]

theorem expiry_index_run_iff_renewed :
    (run exec freshContract issuedAndRenewed).now < u64Bound ∧
      (Always (step exec) Exact freshContract issuedAndRenewed ↔
        Guarded listedStep (fun s a => KeepsExact s.2 s.1 a) (freshContract, []) issuedAndRenewed) :=
  ⟨by decide, expiry_index_run_iff _ 0 none issuedAndRenewed (by decide)⟩

/-- One token issued by a batch of one. -/
def issuedByBatch : List (Action numberedChain (Call ℕ)) :=
  [.invoke (signedBy 0) (.initializeContract 1),
    .invoke (signedBy 0) (.batchIssueTokens 1 [⟨5, 0, 86400⟩])]

/-- One token issued alone and revoked. -/
def issuedAndRevoked : List (Action numberedChain (Call ℕ)) :=
  [.invoke (signedBy 0) (.initializeContract 1), .invoke (signedBy 0) (.issueToken 1 5 0 86400),
    .invoke (signedBy 0) (.revokeToken 1 1)]

/-- The token of a batch is missing from the list, and a revoked token stays in it. -/
theorem expiry_index_not_exact :
    ¬Exact (run exec freshContract issuedByBatch) ∧
      ¬Exact (run exec freshContract issuedAndRevoked) := by
  constructor
  · intro h
    obtain ⟨ids, hids, _, hexact⟩ := h 30 (by decide)
    have hnone : getExpiringTokens 30 (run exec freshContract issuedByBatch) = .ok [] := by decide
    obtain rfl := Except.ok.inj (hnone.symm.trans hids)
    have hmissing := (hexact 1).mpr
      ⟨⟨1, 5, 0, 0, 86400, .active⟩, by decide, by decide, by decide, by decide⟩
    exact absurd hmissing List.not_mem_nil
  · intro h
    obtain ⟨ids, hids, _, hexact⟩ := h 30 (by decide)
    have hghost : getExpiringTokens 30 (run exec freshContract issuedAndRevoked) = .ok [1] := by
      decide
    obtain rfl := Except.ok.inj (hghost.symm.trans hids)
    obtain ⟨token, htoken, hlive, _⟩ := (hexact 1).mp List.mem_cons_self
    have hrevoked : (run exec freshContract issuedAndRevoked).store.token 1 =
        some ⟨1, 5, 0, 0, 86400, .revoked⟩ := by decide
    obtain rfl := Option.some.inj (hrevoked.symm.trans htoken)
    exact hlive rfl

end HubAssist.Membership
