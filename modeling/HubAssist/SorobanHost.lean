import HubAssist.Checks
import HubAssist.RunSystem
import HubAssist.CheckedArith
import HubAssist.TokenLedger

/-! The host of a smart contract: who signed a call, the ledger time, the token contracts
it calls, and the rollback of a call that fails. Contract storage is a parameter. -/
namespace HubAssist.SorobanHost
open TokenLedger

export Checks (failIf getOr orRollback failIf_eq_ok getOr_eq_ok bind_eq_ok map_eq_ok pure_eq_ok
  FailsWith failsWith_failIf failsWith_getOr failsWith_bind failsWith_map failsWith_functor_map
  failsWith_ite failsWith_pure)

/-- Why a call fails. Every failure rolls the call back. -/
inductive Fault (E : Type) where
  | error (e : E)
  | panic (message : String)
  | auth
  | overflow
  | transfer
  deriving DecidableEq

/-- A checked arithmetic result. -/
def checked {E α : Type} (o : Option α) : Except (Fault E) α := getOr o .overflow

theorem checked_eq_ok {E α : Type} {o : Option α} {a : α} :
    (checked o : Except (Fault E) α) = .ok a ↔ o = some a := getOr_eq_ok

@[simp] theorem failsWith_checked {E α : Type} {P : Fault E → Prop} {o : Option α} :
    FailsWith P (checked o) ↔ o = none ∧ P .overflow := failsWith_getOr

variable {Address : Type} [DecidableEq Address]

/-- The chain around one contract: its own address and the token code it calls. -/
structure Chain (Address : Type) [DecidableEq Address] where
  token : Token Address
  self : Address

variable {C : Chain Address} {E Call Store : Type}

/-- The addresses that authorised a call. A contract's own address is never among them: it
authorises only the calls it makes itself, and these contracts do not call themselves. -/
structure Env (C : Chain Address) where
  signers : List Address
  self_not_signer : C.self ∉ signers

def requireAuth (env : Env C) (a : Address) : Except (Fault E) Unit :=
  failIf (a ∉ env.signers) .auth

theorem requireAuth_eq_ok {env : Env C} {a : Address} {u : Unit} :
    (requireAuth env a : Except (Fault E) Unit) = .ok u ↔ a ∈ env.signers := by
  simp [requireAuth, failIf_eq_ok]

@[simp] theorem failsWith_requireAuth {P : Fault E → Prop} {env : Env C} {a : Address} :
    FailsWith P (requireAuth env a) ↔ a ∉ env.signers ∧ P .auth := failsWith_failIf

theorem Env.ne_self {env : Env C} {a : Address} (h : a ∈ env.signers) : a ≠ C.self := by
  rintro rfl
  exact env.self_not_signer h

/-- Signed by one account. -/
def Env.single (a : Address) (h : a ≠ C.self) : Env C := ⟨[a], by simpa using h.symm⟩

/-- The event a token contract emits for one transfer. -/
structure TransferEvent (Address : Type) where
  token : Address
  sender : Address
  receiver : Address
  amount : ℤ
  deriving DecidableEq

/-- Everything a call reads and writes: the contract's storage, the token ledgers, the
transfers the contract has made or received in its calls, and the ledger time. -/
structure World (C : Chain Address) (Store : Type) where
  store : Store
  tokens : Address → C.token.State
  transfers : List (TransferEvent Address)
  now : ℕ

namespace World

def balance (w : World C Store) (token holder : Address) : ℤ :=
  C.token.balance (w.tokens token) holder

def setStore (w : World C Store) (s : Store) : World C Store := { w with store := s }

/-- The world after `token` has accepted a transfer and moved to the state `t`. -/
def paid (w : World C Store) (e : TransferEvent Address) (t : C.token.State) : World C Store :=
  { w with tokens := Function.update w.tokens e.token t, transfers := w.transfers ++ [e] }

/-- `token::Client::transfer`. -/
def transfer (w : World C Store) (token sender receiver : Address) (amount : ℤ) :
    Except (Fault E) (World C Store) := do
  let t ← getOr (C.token.transfer (w.tokens token) sender receiver amount) .transfer
  return w.paid ⟨token, sender, receiver, amount⟩ t

/-- The world `seconds` later. -/
def elapse (w : World C Store) (seconds : ℕ) : World C Store := { w with now := w.now+seconds }

/-- The world with the ledger at time `t`. -/
def atTime (w : World C Store) (t : ℕ) : World C Store := { w with now := t }

/-- The world after `token` has moved to the state `next` on its own. -/
def reledger (w : World C Store) (token : Address) (next : C.token.State) : World C Store :=
  { w with tokens := Function.update w.tokens token next }

@[simp] theorem setStore_store (w : World C Store) (s : Store) : (w.setStore s).store = s := rfl

@[simp] theorem setStore_transfers (w : World C Store) (s : Store) :
    (w.setStore s).transfers = w.transfers := rfl

@[simp] theorem setStore_balance (w : World C Store) (s : Store) (token holder : Address) :
    (w.setStore s).balance token holder = w.balance token holder := rfl

@[simp] theorem paid_store (w : World C Store) (e : TransferEvent Address) (t : C.token.State) :
    (w.paid e t).store = w.store := rfl

@[simp] theorem paid_transfers (w : World C Store) (e : TransferEvent Address)
    (t : C.token.State) : (w.paid e t).transfers = w.transfers ++ [e] := rfl

@[simp] theorem paid_now (w : World C Store) (e : TransferEvent Address) (t : C.token.State) :
    (w.paid e t).now = w.now := rfl

theorem paid_balance_self (w : World C Store) (e : TransferEvent Address) (t : C.token.State)
    (holder : Address) : (w.paid e t).balance e.token holder = C.token.balance t holder := by
  simp [balance, paid]

theorem paid_balance_of_ne (w : World C Store) (e : TransferEvent Address) (t : C.token.State)
    {token : Address} (h : token ≠ e.token) (holder : Address) :
    (w.paid e t).balance token holder = w.balance token holder := by
  simp [balance, paid, h]

/-- A transfer out of the contract's account takes its amount. -/
theorem paid_out_balance {w : World C Store} {token receiver : Address} {amount : ℤ}
    {t : C.token.State} (ht : C.token.transfer (w.tokens token) C.self receiver amount = some t)
    (hself : receiver ≠ C.self) : (w.paid ⟨token, C.self, receiver, amount⟩ t).balance token C.self =
      w.balance token C.self-amount :=
  (paid_balance_self w ⟨token, C.self, receiver, amount⟩ t C.self).trans
    (Token.transfer_sender ht hself.symm)

theorem paid_in_balance {w : World C Store} {token sender : Address} {amount : ℤ}
    {t : C.token.State} (ht : C.token.transfer (w.tokens token) sender C.self amount = some t)
    (hself : sender ≠ C.self) : (w.paid ⟨token, sender, C.self, amount⟩ t).balance token C.self =
      w.balance token C.self+amount :=
  (paid_balance_self w ⟨token, sender, C.self, amount⟩ t C.self).trans
    (Token.transfer_receiver ht hself)

@[simp] theorem reledger_store (w : World C Store) (token : Address) (t : C.token.State) :
    (w.reledger token t).store = w.store := rfl

/-- An outside change that takes nothing from `holder` in one token takes nothing from it
in any. -/
theorem balance_le_reledger (w : World C Store) {token holder : Address} {t : C.token.State}
    (h : w.balance token holder ≤ C.token.balance t holder) (other : Address) :
    w.balance other holder ≤ (w.reledger token t).balance other holder := by
  by_cases ho : other = token
  · subst ho
    simpa [balance, reledger] using h
  · simp [balance, reledger, ho]

theorem transfer_eq_ok {w w' : World C Store} {token sender receiver : Address} {amount : ℤ} :
    (w.transfer token sender receiver amount : Except (Fault E) _) = .ok w' ↔
      ∃ t, C.token.transfer (w.tokens token) sender receiver amount = some t ∧
        w.paid ⟨token, sender, receiver, amount⟩ t = w' := by
  simp only [transfer, bind_eq_ok, getOr_eq_ok, pure_eq_ok]

@[simp] theorem failsWith_transfer {P : Fault E → Prop} {w : World C Store}
    {token sender receiver : Address} {amount : ℤ} :
    FailsWith P (w.transfer token sender receiver amount) ↔
      C.token.transfer (w.tokens token) sender receiver amount = none ∧ P .transfer := by
  simp only [transfer, failsWith_bind, failsWith_getOr, failsWith_pure, and_false, exists_false,
    or_false]

end World

/-- What may happen next: a call, the passing of time, or a change of a token's ledger that
the contract has no part in. -/
inductive Action (C : Chain Address) (Call : Type) where
  | invoke (env : Env C) (call : Call)
  | tick (seconds : ℕ)
  | external (token : Address) (next : C.token.State)

variable (exec : Env C → Call → World C Store → Except (Fault E) (World C Store))

/-- One step. A failing call changes nothing, and no outside change of a token's ledger
takes from the contract's balance: only the contract authorises that. -/
def step (w : World C Store) : Action C Call → World C Store
  | .invoke env call => orRollback w (exec env call w)
  | .tick seconds => w.elapse seconds
  | .external token next =>
    if w.balance token C.self ≤ C.token.balance next C.self then w.reledger token next else w

abbrev run (w : World C Store) (as : List (Action C Call)) : World C Store :=
  RunSystem.run (step exec) w as

/-- The history that `after` brings up to date at every accepted call, from the call and the
worlds before and after it. -/
def recordCalls {G : Type} (after : Call → World C Store → World C Store → G → G)
    (w : World C Store) : Action C Call → G → G
  | .invoke env call, g =>
    match exec env call w with
    | .ok w' => after call w w' g
    | .error _ => g
  | .tick _, g | .external _ _, g => g

variable {exec}

theorem step_invoke_ok {w w' : World C Store} {env : Env C} {call : Call}
    (h : exec env call w = .ok w') : step exec w (.invoke env call) = w' := by
  simp [step, orRollback, h]

theorem step_invoke_error {w : World C Store} {env : Env C} {call : Call} {fault : Fault E}
    (h : exec env call w = .error fault) : step exec w (.invoke env call) = w := by
  simp [step, orRollback, h]

theorem step_external_keeps (I : World C Store → Prop) {w : World C Store} {token : Address}
    {next : C.token.State} (hw : I w) (hext : I (w.reledger token next)) :
    I (step exec w (.external token next)) := by
  rw [step]
  split_ifs
  · exact hext
  · exact hw

/-- Outside changes of a ledger do not reach the contract's storage. -/
theorem step_external_store {w : World C Store} {token : Address} {next : C.token.State} :
    (step exec w (.external token next)).store = w.store :=
  step_external_keeps (fun v => v.store = w.store) rfl rfl

/-- A property of states is kept by a step if the accepted call, the passing of time or the
outside change of a ledger that the step stands for keeps it. -/
theorem step_keeps (I : World C Store → Prop) {w : World C Store} {a : Action C Call}
    (hw : I w) (hcall : ∀ env call w', a = .invoke env call → exec env call w = .ok w' → I w')
    (htick : ∀ d, a = .tick d → I (w.elapse d))
    (hext : ∀ token next, a = .external token next →
      w.balance token C.self ≤ C.token.balance next C.self → I (w.reledger token next)) :
    I (step exec w a) := by
  cases a with
  | invoke env call =>
    cases h : exec env call w with
    | ok w' => rw [step_invoke_ok h]; exact hcall env call w' rfl h
    | error fault => rw [step_invoke_error h]; exact hw
  | tick d => exact htick d rfl
  | external token next =>
    by_cases h : w.balance token C.self ≤ C.token.balance next C.self
    · simpa only [step, if_pos h] using hext token next rfl h
    · simpa only [step, if_neg h] using hw

/-- What ties the world to the log of all that the steps have emitted is kept by a step when the
accepted calls keep it, and whatever else happens emits nothing and keeps it. -/
theorem step_emits {R : Type} (J : World C Store → List R → Prop)
    (emit : World C Store → Action C Call → List R) {w : World C Store} {log : List R}
    (hw : J w log)
    (hcall : ∀ env call w', exec env call w = .ok w' →
      J w' (log ++ emit w (.invoke env call)))
    (herror : ∀ env call fault, exec env call w = .error fault → emit w (.invoke env call) = [])
    (htick : ∀ d, emit w (.tick d) = [] ∧ J (w.elapse d) log)
    (hext : ∀ token next, emit w (.external token next) = [] ∧ J (w.reledger token next) log)
    (a : Action C Call) : J (step exec w a) (log ++ emit w a) := by
  cases a with
  | invoke env call =>
    cases h : exec env call w with
    | ok w' =>
      rw [step_invoke_ok h]
      exact hcall env call w' h
    | error fault =>
      rw [step_invoke_error h, herror env call fault h, List.append_nil]
      exact hw
  | tick d =>
    rw [(htick d).1, List.append_nil]
    exact (htick d).2
  | external token next =>
    rw [(hext token next).1, List.append_nil]
    exact step_external_keeps (fun v => J v log) hw (hext token next).2

/-- A property that holds is kept by a call exactly when it is kept if the call is accepted. -/
theorem step_invoke_keeps_iff (I : World C Store → Prop) {w : World C Store} {env : Env C}
    {call : Call} (hw : I w) :
    I (step exec w (.invoke env call)) ↔ ∀ w', exec env call w = .ok w' → I w' := by
  cases h : exec env call w with
  | ok w' =>
    rw [step_invoke_ok h]
    exact ⟨fun hi v hv => Except.ok.inj hv ▸ hi, fun hi => hi w' rfl⟩
  | error fault =>
    rw [step_invoke_error h]
    exact iff_of_true hw fun v hv => nomatch hv

theorem recordCalls_ok {G : Type} {after : Call → World C Store → World C Store → G → G}
    {w w' : World C Store} {env : Env C} {call : Call} (h : exec env call w = .ok w') (g : G) :
    recordCalls exec after w (.invoke env call) g = after call w w' g := by
  simp [recordCalls, h]

theorem recordCalls_error {G : Type} {after : Call → World C Store → World C Store → G → G}
    {w : World C Store} {env : Env C} {call : Call} {fault : Fault E}
    (h : exec env call w = .error fault) (g : G) :
    recordCalls exec after w (.invoke env call) g = g := by
  simp [recordCalls, h]

/-- A property of the world and its history is kept by a step if the accepted call, the
passing of time or the outside change of a ledger that the step stands for keeps it. -/
theorem recordCalls_keeps {G : Type} (after : Call → World C Store → World C Store → G → G)
    (I : World C Store → G → Prop) {w : World C Store} {g : G} {a : Action C Call} (hw : I w g)
    (hcall : ∀ env call w', a = .invoke env call → exec env call w = .ok w' →
      I w' (after call w w' g))
    (htick : ∀ d, a = .tick d → I (w.elapse d) g)
    (hext : ∀ token next, a = .external token next →
      w.balance token C.self ≤ C.token.balance next C.self → I (w.reledger token next) g) :
    I (step exec w a) (recordCalls exec after w a g) := by
  cases a with
  | invoke env call =>
    cases h : exec env call w with
    | ok w' =>
      rw [step_invoke_ok h, recordCalls_ok h]
      exact hcall env call w' rfl h
    | error fault =>
      rw [step_invoke_error h, recordCalls_error h]
      exact hw
  | tick d => exact htick d rfl
  | external token next =>
    exact step_keeps (I · g) hw (fun _ _ _ h => nomatch h) (fun _ h => nomatch h) hext

/-- No token reaches the contract in this step, unless by its own call. -/
def Ungifted (w : World C Store) : Action C Call → Prop
  | .external token next => C.token.balance next C.self ≤ w.balance token C.self
  | _ => True

/-- A chain of numbered accounts around a contract with the number zero. -/
def numberedChain : Chain ℕ := ⟨mapToken, 0⟩

/-- Signed by the one account `n+1`. -/
def signedBy (n : ℕ) : Env numberedChain := ⟨[n+1], by simp [numberedChain]⟩

end HubAssist.SorobanHost

/-! A contract that several modules are compiled into: a call of one module works on the part of
the storage that it knows, and its writes are put back into the whole. -/
namespace HubAssist.ContractParts
open SorobanHost

variable {Address : Type} [DecidableEq Address] {C : Chain Address}
variable {E E' Store Piece : Type}

/-- The same world around another storage. -/
def withStore (w : World C Store) (s : Piece) : World C Piece :=
  ⟨s, w.tokens, w.transfers, w.now⟩

@[simp] theorem withStore_store (w : World C Store) (s : Piece) : (withStore w s).store = s := rfl

def mapError (f : E → E') : Fault E → Fault E'
  | .error e => .error (f e)
  | .panic message => .panic message
  | .auth => .auth
  | .overflow => .overflow
  | .transfer => .transfer

/-- What a module sees of the storage, and the storage after its writes. -/
structure Part (Store Piece : Type) where
  get : Store → Piece
  put : Store → Piece → Store

/-- A call of the module, made on the whole storage. -/
def Part.call (part : Part Store Piece) (f : E → E')
    (body : World C Piece → Except (Fault E) (World C Piece)) (w : World C Store) :
    Except (Fault E') (World C Store) :=
  match body (withStore w (part.get w.store)) with
  | .ok v => .ok (withStore v (part.put w.store v.store))
  | .error fault => .error (mapError f fault)

theorem Part.call_eq_ok {part : Part Store Piece} {f : E → E'}
    {body : World C Piece → Except (Fault E) (World C Piece)} {w w' : World C Store} :
    part.call f body w = .ok w' ↔ ∃ v, body (withStore w (part.get w.store)) = .ok v ∧
      withStore v (part.put w.store v.store) = w' := by
  unfold Part.call
  cases body (withStore w (part.get w.store)) <;> simp

end HubAssist.ContractParts
