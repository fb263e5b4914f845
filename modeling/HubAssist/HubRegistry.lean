import HubAssist.SorobanHost

/-! The hubassist_hub contract: a registry of hubs and of the members of each. Entries are
taken not to expire. An upgrade replaces the hash of the contract's code; the calls modelled
here are those of the present code. -/
namespace HubAssist.Hub
open SorobanHost CheckedArith

inductive HubError where
  | memberAlreadyRegistered
  deriving DecidableEq, Repr

structure Member (Address : Type) where
  address : Address
  role : String
  active : Bool
  deriving DecidableEq

structure HubRecord (Address : Type) where
  hubId : ℕ
  name : String
  owner : Address
  active : Bool
  deriving DecidableEq

abbrev Hash := BitVec 256

/-- The contract's storage, one field for each `DataKey`, and the hash of its code. -/
structure Storage (Address : Type) where
  admin : Option Address
  members : Option (List (Member Address))
  hubCount : Option ℕ
  hub : ℕ → Option (HubRecord Address)
  hubMembers : ℕ → Option (List (Member Address))
  wasm : Hash

def Storage.empty {Address : Type} (wasm : Hash) : Storage Address where
  admin := none
  members := none
  hubCount := none
  hub _ := none
  hubMembers _ := none
  wasm := wasm

variable {Address : Type} [DecidableEq Address] {C : Chain Address}

abbrev HubWorld (C : Chain Address) := World C (Storage Address)

abbrev Outcome (C : Chain Address) := Except (Fault HubError) (HubWorld C)

def initializeContract (env : Env C) (admin : Address) (w : HubWorld C) : Outcome C := do
  -- nothing tests whether the registry has an admin already
  requireAuth env admin
  return w.setStore { w.store with admin := some admin, members := some [] }

def registerHub (env : Env C) (caller : Address) (name : String) (w : HubWorld C) :
    Except (Fault HubError) (ℕ × HubWorld C) := do
  requireAuth env caller
  let count ← checked (u32Add (w.store.hubCount.getD 0) 1)
  let hub : HubRecord Address := ⟨count, name, caller, true⟩
  return (count, w.setStore { w.store with
    hub := Function.update w.store.hub count (some hub)
    hubCount := some count })

def getHub (hubId : ℕ) (w : HubWorld C) : Option (HubRecord Address) := w.store.hub hubId

def hubCount (w : HubWorld C) : ℕ := w.store.hubCount.getD 0

def registerMember (env : Env C) (caller : Address) (hubId : ℕ) (role : String)
    (w : HubWorld C) : Outcome C := do
  requireAuth env caller
  let members := (w.store.hubMembers hubId).getD []
  failIf (∃ member ∈ members, member.address = caller) (.error .memberAlreadyRegistered)
  return w.setStore { w.store with
    hubMembers := Function.update w.store.hubMembers hubId (some (members ++ [⟨caller, role, true⟩])) }

def memberCount (hubId : ℕ) (w : HubWorld C) : ℕ := ((w.store.hubMembers hubId).getD []).length

def upgrade (env : Env C) (admin : Address) (newWasmHash : Hash) (w : HubWorld C) :
    Outcome C := do
  requireAuth env admin
  let storedAdmin ← getOr w.store.admin (.panic "admin not set")
  failIf (admin ≠ storedAdmin) (.panic "unauthorized")
  return w.setStore { w.store with wasm := newWasmHash }

/-- The entry points that write. -/
inductive Call (Address : Type) where
  | initializeContract (admin : Address)
  | registerHub (caller : Address) (name : String)
  | registerMember (caller : Address) (hubId : ℕ) (role : String)
  | upgrade (admin : Address) (newWasmHash : Hash)
  deriving DecidableEq

def exec (env : Env C) : Call Address → HubWorld C → Outcome C
  | .initializeContract admin, w => initializeContract env admin w
  | .registerHub caller name, w => (registerHub env caller name w).map Prod.snd
  | .registerMember caller hubId role, w => registerMember env caller hubId role w
  | .upgrade admin newWasmHash, w => upgrade env admin newWasmHash w

end HubAssist.Hub
