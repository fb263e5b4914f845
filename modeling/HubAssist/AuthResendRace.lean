import HubAssist.AuthResendWindow
import HubAssist.ReadModifyWrite

/-! Resends for one account at the same time. Each reads the list of the account from the cache and
writes it back later, in a step of its own. -/
namespace HubAssist.Auth
open Checks ReadModifyWrite RunSystem SlidingWindow TtlCache

/-- The clock, the cache and the times of the calls that have been allowed so far. -/
structure Resends where
  now : ℕ
  cache : Cache String (List ℕ)
  allowed : List ℕ

/-- What a call holds between its read and its write. -/
structure ResendCopy where
  now : ℕ
  timestamps : List ℕ
  deriving DecidableEq

/-- `checkAndRecordResend` up to the list that it loads, and from there on. -/
def resendCall (email : String) : RmwCall Resends ResendCopy ResendCheckResult where
  read s :=
    let timestamps := ((get s.cache s.now email).getD []).filter fun t =>
      s.now < t+otpResendWindowMs
    if otpResendLimit ≤ timestamps.length then
      .error ⟨false, 0, (oldest timestamps+otpResendWindowMs-s.now+999)/1000, false⟩
    else .ok ⟨s.now, timestamps⟩
  write copy s := { s with
    cache := set s.cache s.now otpResendWindowMs email (copy.timestamps ++ [copy.now])
    allowed := s.allowed ++ [copy.now] }

inductive ResendMove (I : Type) where
  | turn (i : I)
  | tick (d : ℕ)

variable {I : Type} [DecidableEq I]

abbrev ResendRace (I : Type) := Race I Resends ResendCopy ResendCheckResult

def advance (email : String) (race : ResendRace I) : ResendMove I → ResendRace I
  | .turn i => Interleaving.step act race (i, resendCall email)
  | .tick d => { race with shared := { race.shared with now := race.shared.now+d } }

def openWindow (now : ℕ) : ResendRace I := start ⟨now, TtlCache.empty, []⟩

/-- No interval of five minutes has more of the allowed calls than the limit. -/
def WithinLimit (race : ResendRace I) : Prop :=
  Within otpResendLimit otpResendWindowMs race.shared.allowed

/-- What a call writes back has every call that has been allowed within its window. -/
def Unmissed (race : ResendRace I) : ResendMove I → Prop
  | .turn i => ∀ copy, race.locals i = .holding copy →
    copy.timestamps = recent otpResendWindowMs copy.now race.shared.allowed
  | .tick _ => True

/-- No call writes while another one is between its read and its write. -/
def Alone (race : ResendRace I) : ResendMove I → Prop
  | .turn i => ∀ copy, race.locals i = .holding copy →
    ∀ j copy', race.locals j = .holding copy' → j = i
  | .tick _ => True

/-- The two steps of a call, with nothing between them, are `checkAndRecordResend`. -/
theorem resendCall_whole {env : Env} {s : AuthState} {shared : Resends} (email : String)
    (henv : Reliable env) (hnow : env.now = shared.now)
    (hcache : s.resendWindows = some shared.cache) :
    (checkAndRecordResend env email s).2.resendWindows =
        some ((resendCall email).whole shared).cache ∧
      (checkAndRecordResend env email s).1 =
        match (resendCall email).read shared with
        | .ok copy => ⟨true, otpResendLimit-(copy.timestamps.length+1), 0, false⟩
        | .error result => result := by
  simp only [checkAndRecordResend, hcache, loadTimestamps, saveTimestamps, henv.get, henv.set,
    RmwCall.whole, RmwCall.commit, resendCall, hnow, Bool.false_eq_true, if_false]
  split_ifs with hfull
  · exact ⟨hcache, rfl⟩
  · exact ⟨rfl, by simp⟩

variable {email : String} {race : ResendRace I} {i : I} {copy : ResendCopy}

/-- What a call does at its turn. -/
inductive Turned (email : String) (race : ResendRace I) (i : I) : ResendRace I → Prop where
  | reads (copy : ResendCopy) (hread : (resendCall email).read race.shared = .ok copy) :
      Turned email race i ⟨race.shared, Function.update race.locals i (.holding copy)⟩
  | writes (copy : ResendCopy) (hholding : race.locals i = .holding copy) :
      Turned email race i
        ⟨(resendCall email).write copy race.shared, Function.update race.locals i (.written copy)⟩
  | ends (phase : Phase ResendCopy ResendCheckResult) (hphase : ∀ copy, phase ≠ .holding copy) :
      Turned email race i ⟨race.shared, Function.update race.locals i phase⟩

theorem advance_turned (email : String) (race : ResendRace I) (i : I) :
    Turned email race i (advance email race (.turn i)) := by
  rw [advance, Interleaving.step]
  cases hphase : race.locals i with
  | ready =>
    rw [act_ready]
    cases hread : (resendCall email).read race.shared with
    | ok copy => exact .reads copy hread
    | error result => exact .ends (.rejected result) (by simp)
  | holding copy => exact .writes copy hphase
  | rejected result => exact .ends (.rejected result) (by simp)
  | written copy => exact .ends (.written copy) (by simp)

/-- Whoever holds a copy after a turn has come to hold it at that turn, or has held it before. -/
theorem holding_after {j : I} {phase : Phase ResendCopy ResendCheckResult}
    (h : Function.update race.locals i phase j = .holding copy) :
    j = i ∧ phase = .holding copy ∨ j ≠ i ∧ race.locals j = .holding copy := by
  by_cases hj : j = i
  · subst hj
    rw [Function.update_self] at h
    exact Or.inl ⟨rfl, h⟩
  · rw [Function.update_of_ne hj] at h
    exact Or.inr ⟨hj, h⟩

/-- What holds of all copies that are held, and of the one of the turn, holds of all after it. -/
theorem forall_holding_after {P : ResendCopy → Prop} {phase : Phase ResendCopy ResendCheckResult}
    (h : ∀ j copy, race.locals j = .holding copy → P copy)
    (hphase : ∀ copy, phase = .holding copy → P copy) (j : I) (copy : ResendCopy)
    (hcopy : Function.update race.locals i phase j = .holding copy) : P copy := by
  rcases holding_after hcopy with ⟨_, hnew⟩ | ⟨_, hbefore⟩
  · exact hphase copy hnew
  · exact h j copy hbefore

/-- A call that is let through has counted fewer than the limit at that time. -/
theorem read_eq_ok {shared : Resends} (h : (resendCall email).read shared = .ok copy) :
    copy.now = shared.now ∧ copy.timestamps.length < otpResendLimit ∧
      copy.timestamps = recent otpResendWindowMs shared.now
        ((get shared.cache shared.now email).getD []) := by
  simp only [resendCall] at h
  split_ifs at h with hfull
  cases h
  exact ⟨rfl, Nat.lt_of_not_le hfull, rfl⟩

/-- The limit is kept so far, and whoever is let through has counted fewer calls. -/
structure Bounded (race : ResendRace I) : Prop where
  within : WithinLimit race
  fewer (i : I) (copy : ResendCopy) (h : race.locals i = .holding copy) :
    copy.timestamps.length < otpResendLimit

theorem Bounded.step (h : Bounded race) {move : ResendMove I} (hmove : Unmissed race move) :
    Bounded (advance email race move) := by
  cases move with
  | tick d => exact ⟨h.within, h.fewer⟩
  | turn i =>
    have hturn := advance_turned email race i
    generalize advance email race (.turn i) = after at hturn ⊢
    cases hturn with
    | reads copy hread =>
      refine ⟨h.within, forall_holding_after h.fewer fun copy' hsame => ?_⟩
      cases hsame
      exact (read_eq_ok hread).2.1
    | writes copy hholding =>
      refine ⟨?_, forall_holding_after h.fewer fun copy' hsame => by cases hsame⟩
      -- the copy counts the allowed calls in the window of the call
      have hfew := h.fewer i copy hholding
      rw [hmove copy hholding] at hfew
      exact h.within.concat hfew
    | ends phase hphase =>
      exact ⟨h.within, forall_holding_after h.fewer fun copy' hsame => absurd hsame (hphase copy')⟩

/-- The cache mirrors the allowed calls, and so do the copies that are held. -/
structure Faithful (email : String) (race : ResendRace I) : Prop where
  mirrored : Mirrors otpResendWindowMs race.shared.cache email race.shared.now race.shared.allowed
  held (i : I) (copy : ResendCopy) (h : race.locals i = .holding copy) :
    copy.now ≤ race.shared.now ∧
      copy.timestamps = recent otpResendWindowMs copy.now race.shared.allowed

theorem Faithful.step (h : Faithful email race) {move : ResendMove I} (hmove : Alone race move) :
    Faithful email (advance email race move) := by
  cases move with
  | tick d =>
    refine ⟨h.mirrored.later (Nat.le_add_right _ _), fun j copy' hcopy' => ?_⟩
    obtain ⟨hle, hcopy⟩ := h.held j copy' hcopy'
    exact ⟨hle.trans (Nat.le_add_right _ _), hcopy⟩
  | turn i =>
    have hturn := advance_turned email race i
    generalize advance email race (.turn i) = after at hturn ⊢
    cases hturn with
    | reads copy hread =>
      refine ⟨h.mirrored, forall_holding_after h.held fun copy' hsame => ?_⟩
      cases hsame
      obtain ⟨hnow, _, hcopy⟩ := read_eq_ok hread
      rw [hcopy, hnow]
      exact ⟨Nat.le_refl _, h.mirrored.counted _ (Nat.le_refl _)⟩
    | writes copy hholding =>
      obtain ⟨hle, hcopy⟩ := h.held i copy hholding
      refine ⟨?_, fun j copy' hcopy' => ?_⟩
      · have hrecord := h.mirrored.record hle
        rw [← hcopy] at hrecord
        exact hrecord
      · -- nobody else holds a copy that has become old
        rcases holding_after hcopy' with ⟨_, hsame⟩ | ⟨hne, hbefore⟩
        · cases hsame
        · exact absurd (hmove copy hholding j copy' hbefore) hne
    | ends phase hphase =>
      exact ⟨h.mirrored,
        forall_holding_after h.held fun copy' hsame => absurd hsame (hphase copy')⟩

omit [DecidableEq I] in
theorem unmissed_of_faithful (h : Faithful email race) (move : ResendMove I) :
    Unmissed race move := by
  cases move with
  | tick d => trivial
  | turn i => exact fun copy hholding => (h.held i copy hholding).2

/-- However the steps of any number of calls interleave: as long as every call that writes has in
its copy the calls that have been allowed within its window, the limit holds. That is so as long as
no call writes while another one is between its read and its write. -/
theorem withinLimit_of_unmissed (email : String) (now : ℕ) (moves : List (ResendMove I)) :
    (Guarded (advance email) Unmissed (openWindow now) moves →
        Always (advance email) WithinLimit (openWindow now) moves) ∧
      (Guarded (advance email) Alone (openWindow now) moves →
        Guarded (advance email) Unmissed (openWindow now) moves) := by
  constructor
  · have hstart : Bounded (openWindow now : ResendRace I) :=
      ⟨within_nil, fun i copy hholding => by cases hholding⟩
    exact always_of_guarded (advance email) (fun _ _ hb hm => hb.step hm) (fun _ hb => hb.within)
      hstart
  · intro h
    have hstart : Faithful email (openWindow now : ResendRace I) :=
      ⟨mirrors_empty.later (Nat.zero_le now), fun i copy hholding => by cases hholding⟩
    exact guarded_of_guarded (J := Faithful email) (advance email)
      (fun _ _ hf hm => hf.step hm) (fun _ move hf _ => unmissed_of_faithful hf move) hstart h h

/-- A second call reads after the first has written. -/
theorem withinLimit_of_unmissed_turns : Always (advance "b@hub") WithinLimit (openWindow 2000)
    [.turn (0 : Fin 2), .turn 0, .tick 5, .turn 1, .turn 1] := by
  have hinOrder := withinLimit_of_unmissed (I := Fin 2) "b@hub" 2000
    [.turn 0, .turn 0, .tick 5, .turn 1, .turn 1]
  refine hinOrder.1 (hinOrder.2 ⟨?_, ?_, trivial, ?_, ?_, trivial⟩)
  · intro copy hready
    cases hready
  · intro copy _ j copy' hcopy'
    rcases holding_after hcopy' with ⟨hj, _⟩ | ⟨_, hready⟩
    · exact hj
    · cases hready
  · intro copy hready
    cases hready
  · intro copy _ j copy' hcopy'
    rcases holding_after hcopy' with ⟨hj, _⟩ | ⟨hj, hwritten⟩
    · exact hj
    · have hother : j ≠ 1 := hj
      obtain rfl : j = 0 := by omega
      cases hwritten

/-- Four calls read the empty window before any of them writes. -/
theorem resends_overrun : ¬Always (advance "b@hub") WithinLimit (openWindow 1000)
    [.turn 0, .turn 1, .turn 2, .turn (3 : ℕ), .turn 0, .turn 1, .turn 2, .turn 3] := by
  intro h
  have hlast := (always_iff_prefixes (advance "b@hub") WithinLimit _ _).mp h _ [] (by simp; rfl)
  exact absurd (hlast 1000) (by decide)

end HubAssist.Auth
