import HubAssist.ManageHubPrivilege

/-! Rewards claimed under a committed root. The hashes of a leaf and of a pair are placeholders in
the source, so what a proof shows is that the root is zero; claims are marked for each root and
address, and nothing is counted against the total. -/
namespace HubAssist.ManageHub.Rewards
open SorobanHost RunSystem StorageMap

variable {Address : Type} [DecidableEq Address] {C : Chain Address} {K : Crypto Address}
variable {env : Env C} {w w' : ManageWorld C K} {claimant : Address} {amount : ℤ}
variable {proof : List BytesN32} {root : BytesN32}

/-- A reward that has been paid, with the root it was claimed under. -/
structure Payment (Address : Type) where
  root : BytesN32
  claimant : Address
  amount : ℤ
  deriving DecidableEq

def paidUnder (root : BytesN32) (payments : List (Payment Address)) : ℤ :=
  ((payments.filter fun p => p.root = root).map Payment.amount).sum

/-- An accepted claim is a payment under the root committed at the time. -/
def pays (call : Call Address) (w _ : ManageWorld C K) (payments : List (Payment Address)) :
    List (Payment Address) :=
  match call with
  | .claimReward claimant amount _ =>
    payments ++ [⟨w.store.merkleRoot.getD 0, claimant, amount⟩]
  | .commitRewardsRoot _ _ _ => payments

/-- The contract beside the payments it has made. -/
abbrev ledgerStep : ManageWorld C K × List (Payment Address) → Action C (Call Address) →
    ManageWorld C K × List (Payment Address) :=
  withHistory (step exec) (recordCalls exec pays)

/-- What is left of the amount committed with the root covers the amount. -/
def WithinBudget (s : ManageWorld C K × List (Payment Address)) (root : BytesN32) (amount : ℤ) : Prop :=
  ∃ total, s.1.store.merkleRootAmount = some total ∧ paidUnder root s.2+amount ≤ total

/-- Whatever is paid in the step goes to somebody who has not been paid under the root, is one of the
leaves the root was built from, and is within the amount committed with it. -/
def PaysProperly (leaves : BytesN32 → List (Address × ℤ))
    (s : ManageWorld C K × List (Payment Address)) (a : Action C (Call Address)) : Prop :=
  ∀ env claimant amount proof root, a = .invoke env (.claimReward claimant amount proof) →
    (∃ w', exec env (.claimReward claimant amount proof) s.1 = .ok w') →
      s.1.store.merkleRoot = some root →
        (∀ p ∈ s.2, p.root = root → p.claimant ≠ claimant) ∧
          (claimant, amount) ∈ leaves root ∧ WithinBudget s root amount

/-- The claim is signed, it is the first one of its claimant under the root, and the token contract
carries out the transfer. -/
structure Payable (env : Env C) (w : ManageWorld C K) (root : BytesN32) (claimant : Address)
    (amount : ℤ) : Prop where
  signed : claimant ∈ env.signers
  first : (w.store.claimed (root, claimant)).getD false = false
  covered : ∃ token t, w.store.stakingToken = some token ∧
    C.token.transfer (w.tokens token) C.self claimant amount = some t

/-- Under the zero root, the claimants themselves ask for no more than the leaves and the total give
them. -/
def HonestUnderZero (leaves : BytesN32 → List (Address × ℤ))
    (s : ManageWorld C K × List (Payment Address)) (a : Action C (Call Address)) : Prop :=
  ∀ env claimant amount proof, a = .invoke env (.claimReward claimant amount proof) →
    s.1.store.merkleRoot = some 0 → Payable env s.1 0 claimant amount →
      (claimant, amount) ∈ leaves 0 ∧ WithinBudget s 0 amount

omit [DecidableEq Address] in
theorem verifyProof_iff : verifyProof (hashLeaf claimant amount) root proof = true ↔ root = 0 := by
  -- a pair hashes to its left element, so the walk ends where it starts, at a leaf that is zero
  have hfold (leaf : BytesN32) : proof.foldl hashPair leaf = leaf := by
    induction proof with
    | nil => rfl
    | cons element proof ih => exact ih
  rw [verifyProof, hfold, beq_iff_eq]
  exact eq_comm

/-- A claim is accepted under the zero root only, and there for any amount. -/
theorem claimReward_accepted_iff :
    (∃ w', claimReward env claimant amount proof w = .ok w') ↔
      w.store.merkleRoot = some 0 ∧ Payable env w 0 claimant amount := by
  simp only [claimReward, bind_eq_ok, requireAuth_eq_ok, getOr_eq_ok, failIf_eq_ok,
    World.transfer_eq_ok, pure_eq_ok, exists_const, Bool.not_eq_true, Bool.not_eq_false,
    verifyProof_iff]
  constructor
  · rintro ⟨_, hsigned, _, hroot, hfirst, rfl, token, htoken, _, ⟨t, ht, _⟩, _⟩
    exact ⟨hroot, hsigned, hfirst, token, t, htoken, ht⟩
  · rintro ⟨hroot, hsigned, hfirst, token, t, htoken, ht⟩
    exact ⟨_, hsigned, 0, hroot, hfirst, rfl, token, htoken, _, ⟨t, ht, rfl⟩, rfl⟩

/-- The claims that have been paid are marked. -/
def Marked (s : ManageWorld C K × List (Payment Address)) : Prop :=
  ∀ p ∈ s.2, s.1.store.claimed (p.root, p.claimant) = some true

/-- An accepted claim leaves its mark under the root, and no other. -/
theorem claimReward_marks (h : claimReward env claimant amount proof w = .ok w') :
    w'.store.claimed =
      Function.update w.store.claimed (w.store.merkleRoot.getD 0, claimant) (some true) := by
  simp only [claimReward, bind_eq_ok, getOr_eq_ok, World.transfer_eq_ok, pure_eq_ok] at h
  obtain ⟨_, _, root, hroot, _, _, _, _, _, _, _, ⟨t, _, rfl⟩, rfl⟩ := h
  rw [hroot]
  rfl

theorem marked_step {s : ManageWorld C K × List (Payment Address)} (hs : Marked s)
    (a : Action C (Call Address)) : Marked (ledgerStep s a) := by
  refine recordCalls_keeps pays (fun (v : ManageWorld C K) payments => Marked (v, payments)) hs ?_
    (fun _ _ => hs) fun _ _ _ _ => hs
  rintro env call w' _ hcall
  cases call with
  | commitRewardsRoot admin root total =>
    simp only [exec, commitRewardsRoot, bind_eq_ok, pure_eq_ok] at hcall
    obtain ⟨_, _, rfl⟩ := hcall
    exact hs
  | claimReward claimant amount proof =>
    intro p hp
    rw [claimReward_marks hcall]
    rcases List.mem_append.mp hp with hp | hp
    -- an earlier payment keeps its mark, also where the claim is for the same root and address
    · by_cases hkey : (p.root, p.claimant) = (s.1.store.merkleRoot.getD 0, claimant)
      · rw [hkey, Function.update_self]
      · rw [Function.update_of_ne hkey]
        exact hs p hp
    · obtain rfl := List.mem_singleton.mp hp
      exact Function.update_self ..

/-- Once for each root and address, whatever is committed in between. -/
theorem Payable.unpaid {s : ManageWorld C K × List (Payment Address)}
    (h : Payable env s.1 root claimant amount) (hs : Marked s) :
    ∀ p ∈ s.2, p.root = root → p.claimant ≠ claimant := by
  rintro p hp rfl rfl
  have hmark := hs p hp
  exact absurd h.first (by simp [hmark])

/-- In every run of commitments and claims, the rewards are paid once to each address, to the leaves
of the root and within its total, exactly when under the zero root the claimants ask for no more
than that. -/
theorem paysProperly_iff (leaves : BytesN32 → List (Address × ℤ)) (w : ManageWorld C K)
    (as : List (Action C (Call Address))) :
    Guarded ledgerStep (PaysProperly leaves) (w, []) as ↔
      Guarded ledgerStep (HonestUnderZero leaves) (w, []) as := by
  have hstart : Marked (w, ([] : List (Payment Address))) := fun p hp => nomatch hp
  constructor
  · refine guarded_of_invariant ledgerStep (J := Marked) (fun s a hs => marked_step hs a) ?_ hstart
    intro s a _ h env claimant amount proof ha hroot hpayable
    exact (h env claimant amount proof 0 ha
      (claimReward_accepted_iff.mpr ⟨hroot, hpayable⟩) hroot).2
  · refine guarded_of_invariant ledgerStep (J := Marked) (fun s a hs => marked_step hs a) ?_ hstart
    intro s a hs h env claimant amount proof root ha haccepted hroot
    obtain ⟨hzero, hpayable⟩ := claimReward_accepted_iff.mp haccepted
    obtain rfl := Option.some.inj (hroot.symm.trans hzero)
    exact ⟨hpayable.unpaid hs, h env claimant amount proof ha hzero hpayable⟩

/-- Where no zero root is committed, no reward is paid at all. -/
theorem claimReward_rejected (hroot : w.store.merkleRoot ≠ some 0) (w' : ManageWorld C K) :
    claimReward env claimant amount proof w ≠ .ok w' :=
  fun h => hroot (claimReward_accepted_iff.mp ⟨w', h⟩).1

/-- The contract with 800 of the staking token. -/
def rewardsStart : ManageWorld numberedChain plainCrypto :=
  ⟨{ (Storage.empty 0 : Storage ℕ (List UInt8)) with stakingToken := some 9 },
    fun _ account => if account = 0 then 800 else 0, [], 0⟩

/-- The root of the one leaf of account 2 is committed with the total 10, and account 3 is paid 750
under it. -/
theorem forgedClaim_paid : ¬Guarded ledgerStep
    (PaysProperly fun root => if root = hashLeaf 2 10 then [(2, 10)] else [])
    (rewardsStart, []) [.invoke (signedBy 0) (.commitRewardsRoot 1 (hashLeaf 2 10) 10),
      .invoke (signedBy 2) (.claimReward 3 750 [])] := by
  rintro ⟨_, h, _⟩
  have hpayable : Payable (signedBy 2) (step exec rewardsStart
      (.invoke (signedBy 0) (.commitRewardsRoot 1 (hashLeaf 2 10) 10))) 0 3 750 :=
    ⟨by decide, rfl, 9, _, rfl, rfl⟩
  have hleaf := (h (signedBy 2) 3 750 [] (hashLeaf 2 10) rfl
    (claimReward_accepted_iff.mpr ⟨rfl, hpayable⟩) rfl).2.1
  exact absurd hleaf (by decide)

end HubAssist.ManageHub.Rewards
