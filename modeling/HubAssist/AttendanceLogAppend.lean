import HubAssist.AttendanceLogSteps
import HubAssist.ManageHubPrivilege

/-! What a user has logged as a list that only grows, by logs that the user has signed. -/
namespace HubAssist.ManageHub.Attendance
open SorobanHost RunSystem

variable {Address : Type} [DecidableEq Address] {C : Chain Address} {K : Crypto Address}
variable {env : Env C} {w : ManageWorld C K} {a : Action C (Call Address)}

def AuthorisedBy (user : Address) : Action C (Call Address) → Prop
  | .invoke env _ => user ∈ env.signers
  | .tick _ | .external _ _ => False

/-- The step leaves every stored log as it is, and puts at most one log at the end of those of a
user: one of that user, by the user's authority. -/
structure AppendsOnly (w : ManageWorld C K) (a : Action C (Call Address)) : Prop where
  kept : ∀ id log, w.store.attendanceLog id = some log →
    (step exec w a).store.attendanceLog id = some log
  appended : ∀ user, getUserAttendance (step exec w a).store user = getUserAttendance w.store user ∨
    ∃ log, getUserAttendance (step exec w a).store user = getUserAttendance w.store user ++ [log] ∧
      log.userId = user ∧ AuthorisedBy user a

/-- Whatever is logged in the step is signed by the user that it is logged for, and its id stores
nothing, or the same record. -/
def Authored (w : ManageWorld C K) : Action C (Call Address) → Prop
  | .invoke env call => ∀ e, call.entry = some e → Loggable env call →
    e.userId ∈ env.signers ∧
      ∀ log, w.store.attendanceLog e.id = some log → log = newLog w e
  | .tick _ | .external _ _ => True

/-- Every id that is listed has a log. -/
def Stored {Digest : Type} (s : Storage Address Digest) : Prop :=
  ∀ user, ∀ id ∈ userLogs s user, (s.attendanceLog id).isSome = true

omit [DecidableEq Address] in
theorem Stored.length {Digest : Type} {s : Storage Address Digest} (h : Stored s) (user : Address) :
    (getUserAttendance s user).length = (userLogs s user).length :=
  List.filterMap_length_eq_length.mpr (h user)

theorem Stored.append (h : Stored w.store) (log : AttendanceLog Address K.Digest) :
    Stored (append w log).store := by
  intro user id hid
  rw [append_attendanceLog]
  by_cases heq : id = log.id
  · rw [heq, Function.update_self, Option.isSome_some]
  · rw [Function.update_of_ne heq]
    apply h user id
    by_cases huser : user = log.userId
    · subst huser
      rw [userLogs_append_self] at hid
      exact (List.mem_append.mp hid).resolve_right fun hlast => heq (List.mem_singleton.mp hlast)
    · rwa [userLogs_append_of_ne w log huser] at hid

theorem Stored.step (h : Stored w.store) (a : Action C (Call Address)) :
    Stored (SorobanHost.step exec w a).store := by
  cases step_logs w a with
  | appends env call e _ _ _ hw' =>
    rw [hw']
    exact h.append (newLog w e)
  | keeps hlogs hlists =>
    intro user id hid
    rw [userLogs, hlists] at hid
    rw [hlogs]
    exact h user id hid

/-- A step that writes no log appends nothing. -/
theorem AppendsOnly.of_same
    (hlog : (step exec w a).store.attendanceLog = w.store.attendanceLog)
    (hlist : (step exec w a).store.attendanceLogsByUser = w.store.attendanceLogsByUser) :
    AppendsOnly w a := by
  refine ⟨fun id log hid => ?_, fun user => Or.inl ?_⟩
  · rwa [hlog]
  · rw [getUserAttendance, getUserAttendance, hlog, hlist]

theorem length_getUserAttendance_append (hw : Stored w.store) (e : Entry Address) :
    (getUserAttendance (append w (newLog w e)).store e.userId).length =
      (getUserAttendance w.store e.userId).length+1 := by
  calc (getUserAttendance (append w (newLog w e)).store e.userId).length
      = (userLogs (append w (newLog w e)).store e.userId).length :=
        (hw.append (newLog w e)).length e.userId
    _ = (userLogs w.store e.userId).length+1 := by
        rw [userLogs_newLog, List.length_append, List.length_singleton]
    _ = (getUserAttendance w.store e.userId).length+1 := by rw [hw.length e.userId]

/-- What an accepted call logs is one more log at the end, of a user who has signed it, exactly
where the call is authored. -/
theorem appendsOnly_append {call : Call Address} {e : Entry Address} (hw : Stored w.store)
    (he : call.entry = some e) (hlog : Loggable env call) :
    AppendsOnly w (.invoke env call) ↔ Authored w (.invoke env call) := by
  have hstep : step exec w (.invoke env call) = append w (newLog w e) :=
    step_invoke_ok ((log_eq_ok he).mpr ⟨hlog, rfl⟩)
  constructor
  · rintro ⟨hkept, happended⟩ e' he' _
    obtain rfl := Option.some.inj (he.symm.trans he')
    rw [hstep] at hkept happended
    constructor
    · -- the list of the user gets longer, so there is a log that the user has signed
      have hlength := length_getUserAttendance_append hw e
      rcases happended e.userId with hsame | ⟨_, _, _, hsigned⟩
      · rw [hsame] at hlength
        omega
      · exact hsigned
    · intro log hold
      have hnew : (append w (newLog w e)).store.attendanceLog e.id = some (newLog w e) :=
        Function.update_self ..
      exact Option.some.inj ((hkept e.id log hold).symm.trans hnew)
  · intro hauthored
    obtain ⟨hsigned, hsame⟩ := hauthored e he hlog
    refine ⟨fun id log hold => ?_, fun user => ?_⟩
    · rw [hstep, append_attendanceLog]
      by_cases heq : id = e.id
      · subst heq
        rw [hsame log hold]
        exact Function.update_self ..
      · exact (Function.update_of_ne heq ..).trans hold
    · have hlogs : getUserAttendance (append w (newLog w e)).store user =
          getUserAttendance w.store user ++ if user = e.userId then [newLog w e] else [] := by
        apply getUserAttendance_append
        intro hlisted
        obtain ⟨log, hold⟩ := Option.isSome_iff_exists.mp (hw user e.id hlisted)
        rwa [hsame log hold] at hold
      rw [hstep, hlogs]
      split_ifs with huser
      · subst huser
        exact Or.inr ⟨newLog w e, rfl, rfl, hsigned⟩
      · exact Or.inl (List.append_nil _)

theorem appendsOnly_iff (hw : Stored w.store) : AppendsOnly w a ↔ Authored w a := by
  cases step_logs w a with
  | appends env call e ha he hlog _ =>
    subst ha
    exact appendsOnly_append hw he hlog
  | keeps hlogs hlists _ hrefused =>
    refine iff_of_true (.of_same hlogs hlists) ?_
    cases a with
    | invoke env call => exact fun e he hlog => absurd hlog (hrefused env call e rfl he)
    | tick d => trivial
    | external token next => trivial

/-- In a run of the deployed contract every step appends only, exactly when everything that is
logged is signed by its user, under an id that stores no other record. -/
theorem appendsOnly_iff_authored (wasm : BytesN32) (tokens : Address → C.token.State) (now : ℕ)
    (as : List (Action C (Call Address))) :
    Guarded (step exec) AppendsOnly (deployed wasm tokens now : ManageWorld C K) as ↔
      Guarded (step exec) Authored (deployed wasm tokens now : ManageWorld C K) as := by
  have hstart : Stored (deployed wasm tokens now : ManageWorld C K).store :=
    fun _ _ hid => absurd hid List.not_mem_nil
  have hkeep (v : ManageWorld C K) (a : Action C (Call Address)) (h : Stored v.store) :
      Stored (step exec v a).store := h.step a
  constructor
  · exact guarded_of_invariant (J := fun v => Stored v.store) (step exec) hkeep
      (fun v a h => (appendsOnly_iff h).mp) hstart
  · exact guarded_of_invariant (J := fun v => Stored v.store) (step exec) hkeep
      (fun v a h => (appendsOnly_iff h).mpr) hstart

/-- Account 2 logs a departure of account 1, over the arrival that account 1 has logged. -/
theorem log_overwritten : ¬Guarded (step exec) AppendsOnly
    (deployed 0 (fun _ _ => (50 : ℕ)) 1000 : ManageWorld numberedChain plainCrypto)
    [.invoke (signedBy 0) (.logAttendance 21 1 .clockIn []),
      .invoke (signedBy 1) (.logAttendanceInternal 21 1 .clockOut [])] := by
  rintro ⟨_, ⟨hkept, _⟩, _⟩
  exact absurd (hkept 21 ⟨21, 1, .clockIn, 1000, [], plainCrypto.zeroBytes⟩ (by decide)) (by decide)

end HubAssist.ManageHub.Attendance
