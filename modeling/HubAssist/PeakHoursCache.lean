import HubAssist.AttendanceLogSteps
import HubAssist.ManageHubPrivilege

/-! The cache of the peak hours against the logs that they are computed from. An entry may also
expire, at any time. -/
namespace HubAssist.ManageHub.Attendance
open SorobanHost RunSystem

variable {Address : Type} [DecidableEq Address] {C : Chain Address} {K : Crypto Address}
variable {env : Env C} {w start : ManageWorld C K} {user : Address}
variable {key : Address × ℕ × ℤ} {result : AggregatePeakHourData}

/-- What may happen next to the logs and the cache. -/
inductive Event (C : Chain Address) where
  | act (a : Action C (Call Address))
  | expire (key : Address × ℕ × ℤ)

def advance (w : ManageWorld C K) : Event C → ManageWorld C K
  | .act a => step exec w a
  | .expire key => w.setStore { w.store with
      peakHoursCache := Function.update w.store.peakHoursCache key none }

/-- The event is a call that finds nothing in the cache, computes `result` and puts it there. -/
def Computes (key : Address × ℕ × ℤ) (result : AggregatePeakHourData) (w : ManageWorld C K) :
    Event C → Prop
  | .act (.invoke _ (.aggregatePeakHours user daysWindow offsetHours)) =>
    (user, daysWindow, offsetHours) = key ∧ InRange daysWindow offsetHours ∧
      w.store.peakHoursCache key = none ∧
        computePeakHours w.store w.now user daysWindow offsetHours = some result
  | .act _ | .expire _ => False

/-- The event is an accepted call that logs for `user`. -/
def LogsFor (user : Address) (_ : ManageWorld C K) : Event C → Prop
  | .act (.invoke env call) => Loggable env call ∧ ∃ e, call.entry = some e ∧ e.userId = user
  | .act _ | .expire _ => False

/-- The result has been computed over all the logs that are listed now, and over a window that
reaches back at least as far. -/
def Covers (start : ManageWorld C K) (events : List (Event C)) (key : Address × ℕ × ℤ)
    (result : AggregatePeakHourData) : Prop :=
  ∃ pre post, events = pre ++ post ∧
    let past := run advance start pre
    let present := run advance start events
    computePeakHours past.store past.now key.1 key.2.1 key.2.2 = some result ∧
      userLogs past.store key.1 = userLogs present.store key.1 ∧ past.now ≤ present.now

/-- The result has been computed after the last log of its user. -/
structure Current (start : ManageWorld C K) (events : List (Event C)) (key : Address × ℕ × ℤ)
    (result : AggregatePeakHourData) : Prop where
  since : Since advance (Computes key result) (LogsFor key.1) start events
  covers : Covers start events key result

/-- Whatever a call would find in the cache after the events is current. -/
def Coherent (start : ManageWorld C K) (events : List (Event C)) : Prop :=
  ∀ key result, (run advance start events).store.peakHoursCache key = some result →
    Current start events key result

/-- What is in the cache for a user that is logged for is under a window and an offset that the log
removes. -/
def Invalidated (w : ManageWorld C K) : Event C → Prop
  | .act (.invoke env call) => Loggable env call → ∀ e, call.entry = some e →
    ∀ daysWindow offsetHours, w.store.peakHoursCache (e.userId, daysWindow, offsetHours) ≠ none →
      daysWindow ∈ invalidatedWindows ∧ offsetHours ∈ invalidatedOffsets
  | .act _ | .expire _ => True

/-- Events that do not log for a user leave the list of that user, and take no time back. -/
theorem advance_keeps {event : Event C} (h : ¬LogsFor user w event) :
    userLogs (advance w event).store user = userLogs w.store user ∧
      w.now ≤ (advance w event).now := by
  cases event with
  | expire key => exact ⟨rfl, le_refl _⟩
  | act a =>
    rw [advance]
    cases step_logs w a with
    | appends env call e ha he hlog hw' =>
      subst ha
      have hother : user ≠ e.userId := by
        rintro rfl
        exact h ⟨hlog, e, he, rfl⟩
      rw [hw']
      exact ⟨userLogs_append_of_ne w (newLog w e) hother, le_refl _⟩
    | keeps _ hlists hnow =>
      rw [userLogs, userLogs, hlists]
      exact ⟨rfl, hnow⟩

/-- What has been computed since the last log has been computed over all logs. -/
theorem covers_of_since {events : List (Event C)}
    (h : Since advance (Computes key result) (LogsFor key.1) start events) :
    Covers start events key result := by
  obtain ⟨pre, event, post, rfl, hcomputes, hguard⟩ := h
  have hkept : userLogs (run advance start (pre ++ event :: post)).store key.1 =
      userLogs (run advance start pre).store key.1 ∧
        (run advance start pre).now ≤ (run advance start (pre ++ event :: post)).now := by
    rw [run_append]
    refine run_invariant (I := fun v : ManageWorld C K =>
      userLogs v.store key.1 = userLogs (run advance start pre).store key.1 ∧
        (run advance start pre).now ≤ v.now) advance (fun v event hv hnot => ?_)
      ⟨rfl, le_refl _⟩ hguard
    obtain ⟨hlist, hnow⟩ := advance_keeps hnot
    exact ⟨hlist.trans hv.1, hv.2.trans hnow⟩
  refine ⟨pre, event :: post, rfl, ?_, hkept.1.symm, hkept.2⟩
  unfold Computes at hcomputes
  split at hcomputes
  · obtain ⟨rfl, _, _, hresult⟩ := hcomputes
    exact hresult
  · exact hcomputes.elim
  · exact hcomputes.elim

theorem coherent_iff {events : List (Event C)} : Coherent start events ↔ ∀ key result,
    (run advance start events).store.peakHoursCache key = some result →
      Since advance (Computes key result) (LogsFor key.1) start events := by
  constructor
  · intro h key result hcached
    exact (h key result hcached).since
  · intro h key result hcached
    have hsince := h key result hcached
    exact ⟨hsince, covers_of_since hsince⟩

/-- What is in the cache after an event was there before or is put there by the event. -/
theorem cached_before {event : Event C}
    (h : (advance w event).store.peakHoursCache key = some result) :
    w.store.peakHoursCache key = some result ∨ Computes key result w event := by
  cases event with
  | expire other =>
    rcases StorageMap.update_cases h with ⟨_, hnone⟩ | ⟨_, hold⟩
    · exact absurd hnone nofun
    · exact Or.inl hold
  | act a =>
    refine step_keeps (fun v : ManageWorld C K => v.store.peakHoursCache key = some result →
      w.store.peakHoursCache key = some result ∨ Computes key result w (.act a)) Or.inl
      (fun env call w' ha hok hafter => ?_) (fun _ _ => Or.inl) (fun _ _ _ _ => Or.inl) h
    subst ha
    cases exec_effect hok with
    | hits => exact Or.inl hafter
    | computes user daysWindow offsetHours new hrange hmiss hnew =>
      rcases StorageMap.update_cases hafter with ⟨rfl, hput⟩ | ⟨_, hold⟩
      · obtain rfl := Option.some.inj hput
        exact Or.inr ⟨rfl, hrange, hmiss, hnew⟩
      · exact Or.inl hold
    | logs _ e he hlog =>
      have hinvalid : invalidate w.store.peakHoursCache e.userId key = some result := hafter
      rw [invalidate] at hinvalid
      split_ifs at hinvalid
      exact Or.inl hinvalid

/-- A call that logs for a user leaves what is cached for that user under another window or offset
than those it removes. -/
theorem cached_after_log {call : Call Address} {e : Entry Address} (he : call.entry = some e)
    (hlog : Loggable env call) : (advance w (.act (.invoke env call))).store.peakHoursCache =
      invalidate w.store.peakHoursCache e.userId := by
  have hok : exec env call w = .ok (append w (newLog w e)) := (log_eq_ok he).mpr ⟨hlog, rfl⟩
  rw [advance, step_invoke_ok hok]
  rfl

/-- A coherent cache stays so, where the logs of the event remove all that is cached for their
user. -/
theorem Coherent.concat {events : List (Event C)} {event : Event C} (h : Coherent start events)
    (hevent : Invalidated (run advance start events) event) :
    Coherent start (events ++ [event]) := by
  rw [coherent_iff] at h ⊢
  intro key result hcached
  rw [run_concat] at hcached
  rw [since_concat]
  constructor
  · rcases cached_before hcached with hold | hnew
    · exact Or.inl (h key result hold)
    · exact Or.inr hnew
  · intro hlogs
    -- the entry would be one of those that the log has removed
    unfold LogsFor at hlogs
    split at hlogs
    · next env call =>
      obtain ⟨hlog, e, he, huser⟩ := hlogs
      obtain ⟨user, daysWindow, offsetHours⟩ := key
      obtain rfl : e.userId = user := huser
      rw [cached_after_log he hlog, invalidate] at hcached
      split_ifs at hcached with hremoved
      have hkeys := hevent hlog e he daysWindow offsetHours (by rw [hcached]; nofun)
      exact hremoved ⟨rfl, hkeys⟩
    · exact hlogs
    · exact hlogs

/-- Where the cache is coherent after a log, all that was cached for its user has been removed. -/
theorem Coherent.invalidated {events : List (Event C)} {event : Event C}
    (h : Coherent start (events ++ [event])) : Invalidated (run advance start events) event := by
  unfold Invalidated
  split
  · next env call =>
    intro hlog e he daysWindow offsetHours hcached
    obtain ⟨result, hresult⟩ := Option.ne_none_iff_exists'.mp hcached
    by_contra hkeys
    have hstays : (run advance start (events ++ [.act (.invoke env call)])).store.peakHoursCache
        (e.userId, daysWindow, offsetHours) = some result := by
      rw [run_concat, cached_after_log he hlog, invalidate, if_neg fun hremoved => hkeys hremoved.2]
      exact hresult
    -- but nothing has been computed since this very log
    have hsince := (h _ result hstays).since
    exact ((since_concat advance).mp hsince).2 ⟨hlog, e, he, rfl⟩
  · trivial
  · trivial

/-- In every run from the deployed contract, whatever is in the cache at any moment has been
computed after the last log of its user and covers all of the user's logs, exactly when every log
finds for its user nothing in the cache but entries under the windows and offsets that it
removes. -/
theorem peakHours_coherent_iff (wasm : BytesN32) (tokens : Address → C.token.State) (now : ℕ)
    (events : List (Event C)) :
    (∀ pre post, events = pre ++ post →
        Coherent (deployed wasm tokens now : ManageWorld C K) pre) ↔
      Guarded advance Invalidated (deployed wasm tokens now : ManageWorld C K) events := by
  have hstart : Coherent (deployed wasm tokens now : ManageWorld C K) [] :=
    fun key result hcached => nomatch hcached
  exact prefixes_iff_guarded advance hstart (fun events event h hevent => h.concat hevent)
    fun events event h => h.invalidated

/-- Account 1 asks for the last seven days, logs an arrival and asks again. -/
theorem peakHours_stale : ¬∀ pre post,
    ([.act (.invoke (signedBy 0) (.aggregatePeakHours 1 7 0)),
      .act (.invoke (signedBy 0) (.logAttendance 31 1 .clockIn []))] :
        List (Event numberedChain)) = pre ++ post →
      Coherent (deployed 0 (fun _ _ => (50 : ℕ)) 1000 : ManageWorld numberedChain plainCrypto)
        pre := by
  intro h
  have hlog : Invalidated _ (.act (.invoke (signedBy 0) (.logAttendance 31 1 .clockIn []))) :=
    (h ([.act (.invoke (signedBy 0) (.aggregatePeakHours 1 7 0))] ++ [_]) [] rfl).invalidated
  have hkeys := hlog ⟨by decide, by decide⟩ _ rfl 7 0 (by decide)
  exact absurd hkeys.1 (by decide)

end HubAssist.ManageHub.Attendance
