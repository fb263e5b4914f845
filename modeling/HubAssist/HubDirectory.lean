import HubAssist.HubRegistry
import Mathlib.Data.List.Nodup

/-! The log of the hubs and the members that have been registered. All that the registry says of
them, and whom it still admits, can be read off the log. -/
namespace HubAssist.Hub
open SorobanHost CheckedArith RunSystem Function

variable {Address : Type} [DecidableEq Address] {C : Chain Address}
variable {env : Env C} {w w' : HubWorld C} {call : Call Address}

inductive Registration (Address : Type) where
  | hub (owner : Address) (name : String)
  | member (hubId : ℕ) (address : Address) (role : String)
  deriving DecidableEq

def Call.registration : Call Address → List (Registration Address)
  | .registerHub caller name => [.hub caller name]
  | .registerMember caller hubId role => [.member hubId caller role]
  | _ => []

variable {log : List (Registration Address)}

/-- What this step registers. -/
def registered (w : HubWorld C) : Action C (Call Address) → List (Registration Address)
  | .invoke env call =>
    match exec env call w with
    | .ok _ => call.registration
    | .error _ => []
  | _ => []

def hubEntries (log : List (Registration Address)) : List (Address × String) :=
  log.filterMap fun
    | .hub owner name => some (owner, name)
    | .member .. => none

def memberEntries (log : List (Registration Address)) (hubId : ℕ) : List (Member Address) :=
  log.filterMap fun
    | .member id address role => if id = hubId then some ⟨address, role, true⟩ else none
    | .hub .. => none

/-- The registry is what has been registered: hubs are numbered from one in the order of their
registration, and nobody is twice in a hub. -/
structure Listed (w : HubWorld C) (log : List (Registration Address)) : Prop where
  count : hubCount w = (hubEntries log).length
  hubs : ∀ id, getHub (id+1) w =
    ((hubEntries log)[id]?).map fun entry => ⟨id+1, entry.2, entry.1, true⟩
  unnumbered : getHub 0 w = none
  members : ∀ hubId, (w.store.hubMembers hubId).getD [] = memberEntries log hubId
  distinct : ∀ hubId, ((memberEntries log hubId).map Member.address).Nodup

theorem registerHub_eq_ok {caller : Address} {name : String} {id : ℕ} :
    registerHub env caller name w = .ok (id, w') ↔
      caller ∈ env.signers ∧ hubCount w+1 < u32Bound ∧ id = hubCount w+1 ∧
        w' = w.setStore { w.store with
          hub := update w.store.hub (hubCount w+1) (some ⟨hubCount w+1, name, caller, true⟩)
          hubCount := some (hubCount w+1) } := by
  simp only [registerHub, hubCount, bind_eq_ok, requireAuth_eq_ok, checked_eq_ok, u32Add,
    Option.ite_none_right_eq_some, Option.some.injEq, pure_eq_ok, Prod.mk.injEq, exists_const]
  constructor
  · rintro ⟨hs, _, ⟨hlt, rfl⟩, rfl, rfl⟩
    exact ⟨hs, hlt, rfl, rfl⟩
  · rintro ⟨hs, hlt, rfl, rfl⟩
    exact ⟨hs, _, ⟨hlt, rfl⟩, rfl, rfl⟩

theorem registerMember_eq_ok {caller : Address} {hubId : ℕ} {role : String} :
    registerMember env caller hubId role w = .ok w' ↔
      caller ∈ env.signers ∧
        (∀ member ∈ (w.store.hubMembers hubId).getD [], member.address ≠ caller) ∧
        w' = w.setStore { w.store with
          hubMembers := update w.store.hubMembers hubId
            (some ((w.store.hubMembers hubId).getD [] ++ [⟨caller, role, true⟩])) } := by
  simp only [registerMember, bind_eq_ok, requireAuth_eq_ok, failIf_eq_ok, pure_eq_ok, exists_const,
    not_exists, not_and, ne_eq, eq_comm (a := w')]

/-- The entry of a hub is the next one. -/
theorem Listed.hub (h : Listed w log) (caller : Address) (name : String) :
    Listed (w.setStore { w.store with
      hub := update w.store.hub (hubCount w+1) (some ⟨hubCount w+1, name, caller, true⟩)
      hubCount := some (hubCount w+1) }) (log ++ [.hub caller name]) := by
  have hentries : hubEntries (log ++ [.hub caller name]) = hubEntries log ++ [(caller, name)] :=
    List.filterMap_append
  have hmembers (hubId : ℕ) :
      memberEntries (log ++ [.hub caller name]) hubId = memberEntries log hubId := by
    rw [memberEntries, List.filterMap_append]
    exact List.append_nil _
  have hcount := h.count
  refine ⟨?_, fun id => ?_, ?_, fun hubId => ?_, fun hubId => ?_⟩
  · rw [hentries, List.length_append, ← hcount]
    rfl
  · rw [hentries]
    by_cases hid : id = hubCount w
    · rw [hid, hcount, List.getElem?_concat_length, ← hcount]
      exact update_self ..
    · have hne : id+1 ≠ hubCount w+1 := by omega
      have hold : getHub (id+1) w =
          ((hubEntries log ++ [(caller, name)])[id]?).map
            (fun entry => ⟨id+1, entry.2, entry.1, true⟩) := by
        rw [h.hubs id]
        by_cases hlt : id < (hubEntries log).length
        · rw [List.getElem?_append_left hlt]
        · have hlength : (hubEntries log ++ [(caller, name)]).length ≤ id := by
            rw [List.length_append, List.length_singleton]
            omega
          rw [List.getElem?_eq_none (by omega), List.getElem?_eq_none hlength]
      exact (update_of_ne hne ..).trans hold
  · have hne : 0 ≠ hubCount w+1 := by omega
    simp only [getHub, World.setStore_store, update_of_ne hne]
    exact h.unnumbered
  · rw [hmembers]
    exact h.members hubId
  · rw [hmembers]
    exact h.distinct hubId

theorem Listed.member (h : Listed w log) {caller : Address} {hubId : ℕ} (role : String)
    (hnew : ∀ member ∈ (w.store.hubMembers hubId).getD [], member.address ≠ caller) :
    Listed (w.setStore { w.store with
      hubMembers := update w.store.hubMembers hubId
        (some ((w.store.hubMembers hubId).getD [] ++ [⟨caller, role, true⟩])) })
      (log ++ [.member hubId caller role]) := by
  have hentries : hubEntries (log ++ [.member hubId caller role]) = hubEntries log := by
    rw [hubEntries, List.filterMap_append]
    exact List.append_nil _
  have hself : memberEntries (log ++ [.member hubId caller role]) hubId =
      memberEntries log hubId ++ [⟨caller, role, true⟩] := by
    rw [memberEntries, List.filterMap_append]
    simp [memberEntries]
  have hother {id : ℕ} (hid : id ≠ hubId) :
      memberEntries (log ++ [.member hubId caller role]) id = memberEntries log id := by
    rw [memberEntries, List.filterMap_append]
    simp [memberEntries, Ne.symm hid]
  rw [h.members] at hnew
  refine ⟨?_, fun id => ?_, h.unnumbered, fun id => ?_, fun id => ?_⟩
  · rw [hentries]
    exact h.count
  · rw [hentries]
    exact h.hubs id
  · by_cases hid : id = hubId
    · subst hid
      simp only [hself, World.setStore_store, update_self, Option.getD_some, h.members]
    · simp only [hother hid, World.setStore_store, update_of_ne hid]
      exact h.members id
  · by_cases hid : id = hubId
    · subst hid
      rw [hself, List.map_append]
      apply List.Nodup.append (h.distinct id) (List.nodup_singleton _)
      apply List.disjoint_singleton.mpr
      intro hmem
      obtain ⟨member, hin, haddress⟩ := List.mem_map.mp hmem
      exact hnew member hin haddress
    · rw [hother hid]
      exact h.distinct id

theorem Listed.accepted (h : Listed w log) (hcall : exec env call w = .ok w') :
    Listed w' (log ++ registered w (.invoke env call)) := by
  rw [registered, hcall]
  cases call with
  | initializeContract admin =>
    simp only [exec, initializeContract, bind_eq_ok, pure_eq_ok] at hcall
    obtain ⟨_, _, rfl⟩ := hcall
    rw [show (.initializeContract admin : Call Address).registration = [] from rfl,
      List.append_nil]
    exact ⟨h.count, h.hubs, h.unnumbered, h.members, h.distinct⟩
  | registerHub caller name =>
    obtain ⟨⟨id, w₁⟩, hregister, rfl⟩ := map_eq_ok.mp hcall
    obtain ⟨_, _, _, rfl⟩ := registerHub_eq_ok.mp hregister
    exact h.hub caller name
  | registerMember caller hubId role =>
    obtain ⟨_, hnew, rfl⟩ := registerMember_eq_ok.mp hcall
    exact h.member role hnew
  | upgrade admin hash =>
    simp only [exec, upgrade, bind_eq_ok, pure_eq_ok] at hcall
    obtain ⟨_, _, _, _, _, _, rfl⟩ := hcall
    rw [show (.upgrade admin hash : Call Address).registration = [] from rfl, List.append_nil]
    exact ⟨h.count, h.hubs, h.unnumbered, h.members, h.distinct⟩

theorem Listed.step (h : Listed w log) (a : Action C (Call Address)) :
    Listed (step exec w a) (log ++ registered w a) := by
  refine step_emits Listed registered h (fun _ _ _ hcall => h.accepted hcall) ?_
    (fun d => ⟨rfl, ?_⟩) (fun token next => ⟨rfl, ?_⟩) a
  · intro env call fault hcall
    rw [registered, hcall]
  · exact ⟨h.count, h.hubs, h.unnumbered, h.members, h.distinct⟩
  · exact ⟨h.count, h.hubs, h.unnumbered, h.members, h.distinct⟩

/-- The contract as it has been deployed. -/
def deployed (wasm : Hash) (tokens : Address → C.token.State) (now : ℕ) : HubWorld C :=
  ⟨Storage.empty wasm, tokens, [], now⟩

/-- In every state that the deployed registry reaches, its hubs and their members are those of the
log of accepted registrations, and a member is registered exactly when it has signed and the log has
no registration of it in the same hub. -/
theorem directory_run (wasm : Hash) (tokens : Address → C.token.State) (now : ℕ)
    (as : List (Action C (Call Address))) :
    Listed (run exec (deployed wasm tokens now) as)
        (trace (step exec) registered (deployed wasm tokens now) as) ∧
      ∀ (env : Env C) (caller : Address) (hubId : ℕ) (role : String),
        (∃ w', registerMember env caller hubId role
            (run exec (deployed wasm tokens now) as) = .ok w') ↔
          caller ∈ env.signers ∧ ∀ role', .member hubId caller role' ∉
            trace (step exec) registered (deployed wasm tokens now) as := by
  have hstart : Listed (deployed wasm tokens now : HubWorld C) [] :=
    ⟨rfl, fun _ => rfl, rfl, fun _ => rfl, fun _ => List.nodup_nil⟩
  have h := trace_invariant_all (SorobanHost.step exec) registered (J := Listed)
    (fun _ a _ hw => Listed.step hw a) hstart as
  refine ⟨h, fun env caller hubId role => ?_⟩
  simp only [registerMember_eq_ok, exists_and_left, exists_eq, and_true, h.members]
  refine and_congr_right fun _ => ⟨fun hnew role' hmem => ?_, fun hnone member hmem hsame => ?_⟩
  · exact hnew ⟨caller, role', true⟩ (List.mem_filterMap.mpr ⟨_, hmem, if_pos rfl⟩) rfl
  · obtain ⟨entry, hin, hentry⟩ := List.mem_filterMap.mp hmem
    cases entry with
    | hub owner name => cases hentry
    | member id address role' =>
      by_cases hid : id = hubId
      · obtain rfl := Option.some.inj ((if_pos hid).symm.trans hentry)
        subst hid hsame
        exact hnone role' hin
      · cases (if_neg hid).symm.trans hentry

end HubAssist.Hub
