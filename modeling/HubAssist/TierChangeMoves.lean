import HubAssist.TierChangeIds

/-! Requests for another tier against what happens between a request and its approval: the member
may have been moved by another request, and the tier may have been deactivated. -/
namespace HubAssist.ManageHub.Tiers
open SorobanHost RunSystem

variable {Address : Type} [DecidableEq Address] {C : Chain Address} {K : Crypto Address}
variable {env : Env C} {w : ManageWorld C K} {id requestId : K.Digest}
variable {request asked : TierChangeRequest Address K.Digest}

/-- The request describes the move that its approval makes now, to an active tier. -/
structure Describes (w : ManageWorld C K) (request : TierChangeRequest Address K.Digest) :
    Prop where
  start : w.store.userTier request.member = some request.fromTierId
  tiers : ∃ newTier oldTier, w.store.tier request.toTierId = some (.subscription newTier) ∧
    newTier.isActive = true ∧ w.store.tier request.fromTierId = some (.subscription oldTier) ∧
      request.changeType = determineChangeType oldTier.level newTier.level

/-- Where the step approves a request and changes the tier of its member, the request describes
the move. -/
def AppliesAsRequested (w : ManageWorld C K) : Action C (Call Address K.Digest) → Prop
  | .invoke env (.approveTierChange admin requestId) => ∀ w' request,
    exec env (.approveTierChange admin requestId) w = .ok w' →
      w.store.tierChangeRequest requestId = some request →
        w'.store.userTier request.member ≠ w.store.userTier request.member → Describes w request
  | .invoke _ _ | .tick _ | .external _ _ => True

/-- What has happened since a request was made: the tier that its member was last moved to, and the
last setting of `is_active` of the tier that it asks for. -/
structure Changes where
  moved : Option BytesN32
  switched : Option Bool
  deriving DecidableEq, Repr

/-- The changes after those of every request have been brought up to date. -/
def follow (w : ManageWorld C K)
    (update : TierChangeRequest Address K.Digest → Changes → Changes)
    (g : K.Digest → Option Changes) : K.Digest → Option Changes :=
  fun id => (g id).map fun changes =>
    match w.store.tierChangeRequest id with
    | some request => update request changes
    | none => changes

def moveTo (asked request : TierChangeRequest Address K.Digest) (changes : Changes) : Changes :=
  if request.member = asked.member then { changes with moved := some asked.toTierId } else changes

def switchTo (tierId : BytesN32) (isActive : Option Bool)
    (request : TierChangeRequest Address K.Digest) (changes : Changes) : Changes :=
  if request.toTierId = tierId then { changes with switched := isActive.or changes.switched }
  else changes

/-- The changes since the requests that a run has made, after an accepted call. -/
def notice (call : Call Address K.Digest) (w _w' : ManageWorld C K)
    (g : K.Digest → Option Changes) : K.Digest → Option Changes :=
  match call with
  | .requestTierChange _ _ sequence =>
    Function.update g (requestIdOf K sequence) (some ⟨none, none⟩)
  | .approveTierChange _ requestId =>
    match w.store.tierChangeRequest requestId with
    | some asked => follow w (moveTo asked) g
    | none => g
  | .updateTier _ tierId updates => follow w (switchTo tierId updates.isActive) g
  | .deactivateTier _ tierId => follow w (switchTo tierId (some false)) g
  | .setTierAdmin _ | .addTier _ _ | .rejectTierChange _ _ | .createPromotion _ _
  | .applyPromoCode _ _ => g

/-- The approval of a request leaves the member where it is, or comes while the member still has the
tier that it was made from and the other tier has not been switched off. What a request from before
the run says is compared with what there is. -/
def InTime (w : ManageWorld C K) (request : TierChangeRequest Address K.Digest) :
    Option Changes → Prop
  | some changes =>
    let present := changes.moved.getD request.fromTierId
    present = request.toTierId ∨ present = request.fromTierId ∧ changes.switched ≠ some false
  | none => w.store.userTier request.member = some request.toTierId ∨ Describes w request

/-- A request that is approved is approved in time. -/
def Timely (v : ManageWorld C K × (K.Digest → Option Changes)) :
    Action C (Call Address K.Digest) → Prop
  | .invoke env (.approveTierChange admin requestId) => ∀ request,
    Answerable env v.1 admin requestId request → InTime v.1 request (v.2 requestId)
  | .invoke _ _ | .tick _ | .external _ _ => True

/-- The changes since a request agree with what is stored: the tier of its member, and whether the
tier that it asks for is active. The levels of both tiers are those it was made for. -/
structure Noted (w : ManageWorld C K) (id : K.Digest) (request : TierChangeRequest Address K.Digest)
    (changes : Changes) : Prop where
  stored : w.store.tierChangeRequest id = some request
  held : w.store.userTier request.member = some (changes.moved.getD request.fromTierId)
  tiers : ∃ newTier oldTier, w.store.tier request.toTierId = some (.subscription newTier) ∧
    newTier.isActive = changes.switched.getD true ∧
      w.store.tier request.fromTierId = some (.subscription oldTier) ∧
        request.changeType = determineChangeType oldTier.level newTier.level

def Tracked (w : ManageWorld C K) (g : K.Digest → Option Changes) : Prop :=
  ∀ id changes, g id = some changes → ∃ request, Noted w id request changes

variable {changes : Changes}

/-- An answer changes nothing of a request but its status. -/
theorem Noted.answer (h : Noted w id request changes)
    (hasked : w.store.tierChangeRequest requestId = some asked) (status : TierChangeStatus) :
    ∃ request', Noted (answer w requestId asked status) id request' changes ∧
      request'.member = request.member := by
  by_cases hid : id = requestId
  · subst hid
    obtain rfl := Option.some.inj (h.stored.symm.trans hasked)
    exact ⟨{ request with status := status }, ⟨Function.update_self .., h.held, h.tiers⟩, rfl⟩
  · exact ⟨request, ⟨(Function.update_of_ne hid ..).trans h.stored, h.held, h.tiers⟩, rfl⟩

theorem Noted.move (h : Noted w id request changes)
    (asked : TierChangeRequest Address K.Digest) :
    Noted (move w asked) id request (moveTo asked request changes) := by
  refine ⟨h.stored, ?_, ?_⟩
  · unfold moveTo
    split_ifs with hmember
    · rw [hmember]
      exact Function.update_self ..
    · exact (Function.update_of_ne hmember ..).trans h.held
  · unfold moveTo
    split_ifs <;> exact h.tiers

/-- An edit of a tier keeps its level, and sets whether it is active or leaves that too. -/
theorem Noted.edit (h : Noted w id request changes) {tierId : BytesN32} {tier : SubscriptionTier}
    (htier : w.store.tier tierId = some (.subscription tier)) (updates : TierUpdate) :
    Noted (w.setStore (setTierRecord w.store tierId (updates.apply tier))) id request
      (switchTo tierId updates.isActive request changes) := by
  have hmoved : (switchTo tierId updates.isActive request changes).moved = changes.moved := by
    unfold switchTo
    split_ifs <;> rfl
  refine ⟨h.stored, ?_, ?_⟩
  · rw [hmoved]
    exact h.held
  obtain ⟨newTier, oldTier, hnew, hactive, hold, htype⟩ := h.tiers
  -- what is read now at a tier of the request has the level that it had
  have hread (other : BytesN32) (old : SubscriptionTier)
      (hother : w.store.tier other = some (.subscription old)) :
      ∃ now, (setTierRecord w.store tierId (updates.apply tier)).tier other =
        some (.subscription now) ∧ now.level = old.level ∧
          now.isActive = if other = tierId then updates.isActive.getD old.isActive
            else old.isActive := by
    by_cases heq : other = tierId
    · subst heq
      have hsame : tier = old := by simpa [htier] using hother
      subst hsame
      exact ⟨updates.apply tier, Function.update_self .., rfl, (if_pos rfl).symm⟩
    · exact ⟨old, (Function.update_of_ne heq ..).trans hother, rfl, (if_neg heq).symm⟩
  obtain ⟨newNow, hnewNow, hnewLevel, hnewActive⟩ := hread request.toTierId newTier hnew
  obtain ⟨oldNow, holdNow, holdLevel, _⟩ := hread request.fromTierId oldTier hold
  refine ⟨newNow, oldNow, hnewNow, ?_, holdNow, by rw [hnewLevel, holdLevel, htype]⟩
  rw [hnewActive, hactive]
  unfold switchTo
  split_ifs
  · cases updates.isActive <;> rfl
  · rfl

/-- A tier that is added is none that a request is about. -/
theorem Noted.add (h : Noted w id request changes) {tier : SubscriptionTier}
    (hnew : w.store.tier tier.id = none) (list : List BytesN32) :
    Noted (w.setStore { setTierRecord w.store tier.id tier with tierList := some list }) id request
      changes := by
  obtain ⟨newTier, oldTier, htarget, hactive, hold, htype⟩ := h.tiers
  have hread (other : BytesN32) (old : SubscriptionTier)
      (hother : w.store.tier other = some (.subscription old)) :
      (setTierRecord w.store tier.id tier).tier other = some (.subscription old) := by
    have hne : other ≠ tier.id := by
      rintro rfl
      exact nomatch hother.symm.trans hnew
    exact (Function.update_of_ne hne ..).trans hother
  exact ⟨h.stored, h.held, newTier, oldTier, hread _ _ htarget, hactive, hread _ _ hold, htype⟩

variable {g : K.Digest → Option Changes}

theorem follow_cases {update : TierChangeRequest Address K.Digest → Changes → Changes}
    (h : Tracked w g) (hid : follow w update g id = some changes) : ∃ request old,
      Noted w id request old ∧ update request old = changes := by
  obtain ⟨old, hold, heq⟩ := Option.map_eq_some_iff.mp hid
  obtain ⟨request, hnoted⟩ := h id old hold
  rw [hnoted.stored] at heq
  exact ⟨request, old, hnoted, heq⟩

theorem notice_edit {call : Call Address K.Digest} {tierId : BytesN32} {updates : TierUpdate}
    (hedit : call.edit = some (tierId, updates)) (w w' : ManageWorld C K) :
    notice call w w' g = follow w (switchTo tierId updates.isActive) g := by
  cases call with
  | updateTier admin tierId updates =>
    obtain ⟨rfl, rfl⟩ := Prod.mk.inj (Option.some.inj hedit)
    rfl
  | deactivateTier admin tierId =>
    obtain ⟨rfl, rfl⟩ := Prod.mk.inj (Option.some.inj hedit)
    rfl
  | _ => exact nomatch hedit

theorem notice_other {call : Call Address K.Digest} (hedit : call.edit = none)
    (hrequest : ∀ user newTierId sequence, call ≠ .requestTierChange user newTierId sequence)
    (happrove : ∀ admin requestId, call ≠ .approveTierChange admin requestId)
    (w w' : ManageWorld C K) : notice call w w' g = g := by
  cases call with
  | updateTier => exact nomatch hedit
  | deactivateTier => exact nomatch hedit
  | requestTierChange => exact absurd rfl (hrequest _ _ _)
  | approveTierChange => exact absurd rfl (happrove _ _)
  | _ => rfl

theorem Tracked.call {w' : ManageWorld C K} {call : Call Address K.Digest} (h : Tracked w g)
    (hok : exec env call w = .ok w') : Tracked w' (notice call w w' g) := by
  intro id changes hid
  cases exec_effect hok with
  | requests user newTierId sequence current newTier currentTier hrequest =>
    rcases StorageMap.update_cases hid with ⟨rfl, hfresh⟩ | ⟨hne, hold⟩
    · obtain rfl := Option.some.inj hfresh
      exact ⟨_, Function.update_self .., hrequest.held, newTier, currentTier, hrequest.target,
        hrequest.active, hrequest.start, rfl⟩
    · obtain ⟨request, hnoted⟩ := h id changes hold
      exact ⟨request, (Function.update_of_ne hne ..).trans hnoted.stored, hnoted.held,
        hnoted.tiers⟩
  | approves admin requestId asked hanswer =>
    rw [notice, hanswer.stored] at hid
    obtain ⟨request, old, hnoted, rfl⟩ := follow_cases h hid
    obtain ⟨request', hnoted', hmember⟩ := hnoted.answer hanswer.stored .approved
    have hsame : moveTo asked request' old = moveTo asked request old := by
      rw [moveTo, moveTo, hmember]
    exact ⟨request', hsame ▸ hnoted'.move asked⟩
  | rejects admin requestId asked hanswer =>
    obtain ⟨request, hnoted⟩ := h id changes hid
    obtain ⟨request', hnoted', _⟩ := hnoted.answer hanswer.stored .rejected
    exact ⟨request', hnoted'⟩
  | adds admin tier hnew =>
    obtain ⟨request, hnoted⟩ := h id changes hid
    exact ⟨request, hnoted.add hnew _⟩
  | edits _ tierId updates tier hedit htier =>
    rw [notice_edit hedit] at hid
    obtain ⟨request, old, hnoted, rfl⟩ := follow_cases h hid
    exact ⟨request, hnoted.edit htier updates⟩
  | others _ _ hsame hedit hrequest happrove =>
    rw [notice_other hedit hrequest happrove] at hid
    obtain ⟨request, hstored, hheld, htiers⟩ := h id changes hid
    refine ⟨request, ?_, ?_, ?_⟩
    · rwa [hsame.requests]
    · rwa [hsame.userTier]
    · rwa [hsame.tier]

theorem Tracked.step (h : Tracked w g) (a : Action C (Call Address K.Digest)) :
    Tracked (SorobanHost.step exec w a) (recordCalls exec notice w a g) := by
  -- time and the ledgers of tokens are no part of what is tracked
  have hstore (v : ManageWorld C K) (hv : v.store = w.store) : Tracked v g := by
    intro id changes hid
    obtain ⟨request, hstored, hheld, htiers⟩ := h id changes hid
    rw [← hv] at hstored hheld htiers
    exact ⟨request, hstored, hheld, htiers⟩
  exact recordCalls_keeps notice Tracked h (fun _ _ _ _ hok => h.call hok)
    (fun d _ => hstore (w.elapse d) rfl) fun token next _ _ => hstore (w.reledger token next) rfl

/-- What an approval does to the tier of the member. -/
theorem move_member (w : ManageWorld C K) (request : TierChangeRequest Address K.Digest) :
    (move w request).store.userTier request.member = some request.toTierId :=
  Function.update_self ..

/-- While the changes since its requests are tracked, the approval of a request is as requested
exactly when it is in time. -/
theorem Tracked.describes_iff (h : Tracked w g)
    (hstored : w.store.tierChangeRequest requestId = some request) :
    (some request.toTierId ≠ w.store.userTier request.member → Describes w request) ↔
      InTime w request (g requestId) := by
  cases hg : g requestId with
  | none =>
    constructor
    · intro hdescribes
      by_cases hsame : w.store.userTier request.member = some request.toTierId
      · exact Or.inl hsame
      · exact Or.inr (hdescribes (Ne.symm hsame))
    · intro hcondition hmoves
      exact hcondition.resolve_left (Ne.symm hmoves)
  | some changes =>
    obtain ⟨noted, hnoted⟩ := h requestId changes hg
    obtain rfl := Option.some.inj (hstored.symm.trans hnoted.stored)
    obtain ⟨newTier, oldTier, hnew, hactive, hold, htype⟩ := hnoted.tiers
    have hswitched : newTier.isActive = true ↔ changes.switched ≠ some false := by
      rw [hactive]
      cases changes.switched <;> simp
    rw [hnoted.held]
    constructor
    · intro hdescribes
      by_cases hsame : changes.moved.getD request.fromTierId = request.toTierId
      · exact Or.inl hsame
      · have hmoves : some request.toTierId ≠ some (changes.moved.getD request.fromTierId) :=
          fun heq => hsame (Option.some.inj heq).symm
        obtain ⟨hstart, newTier', _, hnew', hactive', _⟩ := hdescribes hmoves
        obtain rfl : newTier = newTier' := by simpa [hnew] using hnew'
        exact Or.inr ⟨Option.some.inj (hnoted.held.symm.trans hstart), hswitched.mp hactive'⟩
    · rintro (hsame | ⟨hstart, hon⟩) hmoves
      · exact absurd (congrArg some hsame.symm) hmoves
      · exact ⟨hnoted.held.trans (congrArg some hstart), newTier, oldTier, hnew,
          hswitched.mpr hon, hold, htype⟩

theorem appliesAsRequested_iff (h : Tracked w g) (a : Action C (Call Address K.Digest)) :
    AppliesAsRequested w a ↔ Timely (w, g) a := by
  cases a with
  | tick d => exact Iff.rfl
  | external token next => exact Iff.rfl
  | invoke env call =>
    cases call with
    | approveTierChange admin requestId =>
      constructor
      · intro happlies request hanswer
        apply (h.describes_iff hanswer.stored).mp
        intro hmoves
        apply happlies _ request (approveTierChange_eq_ok.mpr ⟨request, hanswer, rfl⟩)
          hanswer.stored
        rwa [move_member]
      · intro htimely w' request hok hstored hmoves
        obtain ⟨asked, hanswer, rfl⟩ := approveTierChange_eq_ok.mp hok
        obtain rfl := Option.some.inj (hstored.symm.trans hanswer.stored)
        rw [move_member] at hmoves
        exact (h.describes_iff hstored).mpr (htimely request hanswer) hmoves
    | _ => exact Iff.rfl

/-- From any state, every approval of a run that changes the tier of a member makes the move that
was requested, to an active tier, exactly when every approval is timely. -/
theorem approvals_apply_iff (w : ManageWorld C K) (as : List (Action C (Call Address K.Digest))) :
    Guarded (step exec) AppliesAsRequested w as ↔
      Guarded (withHistory (step exec) (recordCalls exec notice)) Timely (w, fun _ => none) as := by
  rw [← guarded_withHistory (step exec) (recordCalls exec notice) AppliesAsRequested
    (w, fun _ => none) as]
  have hstart : Tracked w fun _ => none := fun _ _ hid => nomatch hid
  have hkeep (v : ManageWorld C K × (K.Digest → Option Changes))
      (a : Action C (Call Address K.Digest)) (hv : Tracked v.1 v.2) :
      Tracked (withHistory (step exec) (recordCalls exec notice) v a).1
        (withHistory (step exec) (recordCalls exec notice) v a).2 := hv.step a
  constructor
  · exact guarded_of_invariant
      (J := fun v : ManageWorld C K × (K.Digest → Option Changes) => Tracked v.1 v.2) _ hkeep
      (fun v a hv => (appliesAsRequested_iff hv a).mp) hstart
  · exact guarded_of_invariant
      (J := fun v : ManageWorld C K × (K.Digest → Option Changes) => Tracked v.1 v.2) _ hkeep
      (fun v a hv => (appliesAsRequested_iff hv a).mpr) hstart

/-- Member 1 asks to go to the tier 42 and to keep the tier 41. The first request is approved. -/
def movedOn : List (Action numberedChain (Call ℕ plainCrypto.Digest)) :=
  [.invoke (signedBy 0) (.requestTierChange 1 42 20),
    .invoke (signedBy 0) (.requestTierChange 1 41 21),
    .invoke (signedBy 5) (.approveTierChange 6 (requestIdOf plainCrypto 20))]

def outdated : TierChangeRequest ℕ plainCrypto.Digest :=
  ⟨requestIdOf plainCrypto 21, 1, 41, 41, .renewal, .pending, 1000⟩

/-- The approval of the second request takes the member back, as a renewal. -/
theorem approval_stale : ¬Guarded (step exec) AppliesAsRequested twoMembers
    (movedOn ++ [.invoke (signedBy 5) (.approveTierChange 6 (requestIdOf plainCrypto 21))]) := by
  intro h
  have hlast := ((guarded_append (step exec) _ _ movedOn _).mp h).2.1
  have hanswer : Answerable (signedBy 5) (run exec twoMembers movedOn) 6
      (requestIdOf plainCrypto 21) outdated := ⟨⟨by decide, by decide⟩, by decide, rfl⟩
  have hok := approveTierChange_eq_ok.mpr ⟨outdated, hanswer, rfl⟩
  have hdescribes := hlast _ outdated hok hanswer.stored (by rw [move_member]; decide)
  exact absurd hdescribes.start (by decide)

end HubAssist.ManageHub.Tiers
