import HubAssist.RunSystem
import Mathlib.Algebra.Order.Ring.Int

/-! The dialog that warns of the end of a session: the timer that opens it, the countdown in it, and
what the user does meanwhile. The text of the access token is opaque but for its expiry. -/
namespace HubAssist.SessionTimeout
open RunSystem

def authPaths : List String :=
  ["/login", "/register", "/forgot-password", "/reset-password", "/verify-otp"]

def warnBeforeExpiryS : ℤ := 120

def countdownSeconds : ℤ := warnBeforeExpiryS

def activityDebounceMs : ℤ := 10000

def isAuthPage (pathname : String) : Bool :=
  authPaths.any fun p => pathname = p ∨ (p ++ "/").toList.isPrefixOf pathname.toList

/-- The timer of the hook: the first one, or the one that waits until the user has been idle. -/
inductive WarnTimer where
  | warn (due : ℤ)
  | debounce (due : ℤ)
  deriving DecidableEq

/-- The countdown of the open dialog: what it was given, what is left, when it goes down next. -/
structure CountDownTimer where
  seconds : ℤ
  remaining : ℤ
  due : ℤ
  deriving DecidableEq

structure Session where
  now : ℤ
  pathname : String
  accessToken : Option String
  warnTimer : Option WarnTimer
  lastActivity : ℤ
  dialog : Option CountDownTimer

/-- What `setTimeout` makes of a delay: a signed number of 32 bits, and at least zero. -/
def timeoutDelay (ms : ℤ) : ℤ := max 0 ((ms+2^31)%2^32-2^31)

def clearWarnTimer (s : Session) : Session := { s with warnTimer := none }

def hideWarning (s : Session) : Session := { s with dialog := none }

def onLogOut (s : Session) : Session :=
  { clearWarnTimer (hideWarning s) with accessToken := none, pathname := "/login" }

/-- A countdown that starts at zero has expired at once. One that is shown already starts again only
when it is given another number, and waits on when that is the number it shows. -/
def openDialog (seconds : ℤ) (s : Session) : Session :=
  match s.dialog with
  | none =>
    if seconds ≤ 0 then onLogOut s else { s with dialog := some ⟨seconds, seconds, s.now+1000⟩ }
  | some countdown =>
    if seconds = countdown.seconds then s
    else if seconds ≤ 0 then onLogOut s
    else if seconds = countdown.remaining then
      { s with dialog := some { countdown with seconds := seconds } }
    else { s with dialog := some ⟨seconds, seconds, s.now+1000⟩ }

variable (getTokenExpiryMs : String → Option ℤ)

def scheduleWarning (token : String) (s : Session) : Session :=
  let s := clearWarnTimer s
  match getTokenExpiryMs token with
  | none => hideWarning s
  | some expiryMs =>
    if expiryMs = 0 then hideWarning s
    else
      let msUntilWarn := expiryMs-s.now-warnBeforeExpiryS*1000
      -- hidden and shown at once, a dialog that is open is never taken away
      if msUntilWarn ≤ 0 then openDialog (max 0 ((expiryMs-s.now)/1000)) s
      else { hideWarning s with warnTimer := some (.warn (s.now+timeoutDelay msUntilWarn)) }

/-- The effect that runs when the token changes, or the user comes to a page of the other kind. -/
def tokenEffect (s : Session) : Session :=
  match s.accessToken with
  | none => hideWarning (clearWarnTimer s)
  | some token =>
    if isAuthPage s.pathname then hideWarning (clearWarnTimer s)
    else scheduleWarning getTokenExpiryMs token s

/-- The callback of the timer. -/
def onWarnTimer (s : Session) : Session :=
  match s.warnTimer with
  | none => s
  | some (.warn due) =>
    if due ≤ s.now then
      let idleMs := s.now-s.lastActivity
      if idleMs < activityDebounceMs then
        { s with warnTimer := some (.debounce (s.now+(activityDebounceMs-idleMs))) }
      else openDialog countdownSeconds (clearWarnTimer s)
    else s
  | some (.debounce due) =>
    if due ≤ s.now then openDialog countdownSeconds (clearWarnTimer s) else s

def onTick (s : Session) : Session :=
  match s.dialog with
  | none => s
  | some ⟨seconds, remaining, due⟩ =>
    if due ≤ s.now then
      if remaining-1 ≤ 0 then onLogOut s
      else { s with dialog := some ⟨seconds, remaining-1, s.now+1000⟩ }
    else s

def handleActivity (s : Session) : Session :=
  if s.accessToken.isSome ∧ isAuthPage s.pathname = false then { s with lastActivity := s.now }
  else s

inductive Move where
  | elapse (ms : ℕ)
  | warnTimer
  | tick
  | activity
  | navigate (pathname : String)
  /-- A login, or the outcome of a refresh. -/
  | setToken (token : Option String)
  | stayLoggedIn
  | logOut

def step (s : Session) : Move → Session
  | .elapse ms => { s with now := s.now+ms }
  | .warnTimer => onWarnTimer s
  | .tick => onTick s
  | .activity => handleActivity s
  | .navigate pathname =>
    if isAuthPage pathname = isAuthPage s.pathname then { s with pathname := pathname }
    else tokenEffect getTokenExpiryMs { s with pathname := pathname }
  | .setToken token =>
    if token = s.accessToken then s
    else tokenEffect getTokenExpiryMs { s with accessToken := token }
  | .stayLoggedIn => clearWarnTimer (hideWarning s)
  | .logOut => onLogOut s

def WarnTimer.due : WarnTimer → ℤ
  | .warn due => due
  | .debounce due => due

variable {getTokenExpiryMs} {s : Session} {e : ℤ} {token : String}

theorem timeoutDelay_eq {ms : ℤ} (hpos : 0 < ms) (hshort : ms < 2^31) : timeoutDelay ms = ms := by
  unfold timeoutDelay
  omega

/-- The token in effect warrants a warning at some time. -/
def Warranted (getTokenExpiryMs : String → Option ℤ) (s : Session) (time : ℤ) : Prop :=
  ∃ token e, s.accessToken = some token ∧ getTokenExpiryMs token = some e ∧
    isAuthPage s.pathname = false ∧ e-120000 ≤ time

/-- The timer and the dialog are about the token in effect. -/
structure Watched (getTokenExpiryMs : String → Option ℤ) (s : Session) : Prop where
  timer : ∀ timer, s.warnTimer = some timer → Warranted getTokenExpiryMs s timer.due
  shown : ∀ countdown, s.dialog = some countdown → Warranted getTokenExpiryMs s s.now
  lasting : ∀ token e, s.accessToken = some token → getTokenExpiryMs token = some e →
    e-120000 < s.now+2^31

/-- A token that is set does not outlast what a timer can wait for. -/
def Lasting (getTokenExpiryMs : String → Option ℤ) (s : Session) : Move → Prop
  | .setToken (some token) =>
    ∀ e, getTokenExpiryMs token = some e → e-120000 < s.now+2^31
  | _ => True

theorem Warranted.later {time time' : ℤ} (h : Warranted getTokenExpiryMs s time)
    (hle : time ≤ time') : Warranted getTokenExpiryMs s time' := by
  obtain ⟨token, e, htoken, hexpiry, hpage, hdue⟩ := h
  exact ⟨token, e, htoken, hexpiry, hpage, hdue.trans hle⟩

theorem Watched.clear (h : Watched getTokenExpiryMs s) :
    Watched getTokenExpiryMs (clearWarnTimer s) :=
  ⟨fun timer htimer => absurd htimer (by simp [clearWarnTimer]), h.shown, h.lasting⟩

theorem watched_hide (hlasting : ∀ token e, s.accessToken = some token →
    getTokenExpiryMs token = some e → e-120000 < s.now+2^31) :
    Watched getTokenExpiryMs (hideWarning (clearWarnTimer s)) :=
  ⟨fun timer htimer => absurd htimer (by simp [hideWarning, clearWarnTimer]),
    fun countdown hshown => absurd hshown (by simp [hideWarning, clearWarnTimer]), hlasting⟩

theorem watched_logOut : Watched getTokenExpiryMs (onLogOut s) :=
  ⟨fun timer htimer => absurd htimer (by simp [onLogOut, clearWarnTimer, hideWarning]),
    fun countdown hshown => absurd hshown (by simp [onLogOut, clearWarnTimer, hideWarning]),
    fun token e htoken => absurd htoken (by simp [onLogOut])⟩

/-- The dialog may open as soon as the token in effect warrants it, whatever timer waits. -/
theorem watched_openDialog
    (htimer : ∀ timer, s.warnTimer = some timer → Warranted getTokenExpiryMs s timer.due)
    (hlasting : ∀ token e, s.accessToken = some token → getTokenExpiryMs token = some e →
      e-120000 < s.now+2^31)
    (hnow : Warranted getTokenExpiryMs s s.now) (seconds : ℤ) :
    Watched getTokenExpiryMs (openDialog seconds s) := by
  unfold openDialog
  cases hdialog : s.dialog with
  | none =>
    dsimp only
    split_ifs
    · exact watched_logOut
    · exact ⟨htimer, fun _ _ => hnow, hlasting⟩
  | some countdown =>
    dsimp only
    split_ifs
    · exact ⟨htimer, fun _ _ => hnow, hlasting⟩
    · exact watched_logOut
    · exact ⟨htimer, fun _ _ => hnow, hlasting⟩
    · exact ⟨htimer, fun _ _ => hnow, hlasting⟩

theorem watched_schedule (htoken : s.accessToken = some token)
    (hpage : isAuthPage s.pathname = false)
    (hlasting : ∀ token e, s.accessToken = some token → getTokenExpiryMs token = some e →
      e-120000 < s.now+2^31) :
    Watched getTokenExpiryMs (scheduleWarning getTokenExpiryMs token s) := by
  have hclear := watched_hide hlasting
  unfold scheduleWarning
  cases hexpiry : getTokenExpiryMs token with
  | none => exact hclear
  | some e =>
    have hlast := hlasting token e htoken hexpiry
    dsimp only
    split_ifs with hzero hlate
    · exact hclear
    · have hdue : e-120000 ≤ s.now := by
        change e-s.now-120*1000 ≤ 0 at hlate
        omega
      refine watched_openDialog (s := clearWarnTimer s) (fun timer htimer => ?_) hlasting ?_ _
      · exact absurd htimer (by simp [clearWarnTimer])
      · exact ⟨token, e, htoken, hexpiry, hpage, hdue⟩
    · refine ⟨fun timer htimer => ?_, fun countdown hshown => ?_, hlasting⟩
      · obtain rfl := Option.some.inj htimer
        have hlong : 0 < e-s.now-120000 := by
          change ¬e-s.now-120*1000 ≤ 0 at hlate
          omega
        have hdelay : timeoutDelay (e-s.now-120*1000) = e-s.now-120*1000 :=
          timeoutDelay_eq (by omega) (by omega)
        have hdue : e-120000 ≤ s.now+timeoutDelay (e-s.now-120*1000) := by omega
        exact ⟨token, e, htoken, hexpiry, hpage, hdue⟩
      · exact absurd hshown (by simp [hideWarning, clearWarnTimer])

theorem watched_effect (hlasting : ∀ token e, s.accessToken = some token →
    getTokenExpiryMs token = some e → e-120000 < s.now+2^31) :
    Watched getTokenExpiryMs (tokenEffect getTokenExpiryMs s) := by
  unfold tokenEffect
  cases htoken : s.accessToken with
  | none => exact watched_hide hlasting
  | some token =>
    dsimp only
    cases hpage : isAuthPage s.pathname with
    | true => exact watched_hide hlasting
    | false => exact watched_schedule htoken hpage hlasting

theorem Watched.warnTimer (h : Watched getTokenExpiryMs s) :
    Watched getTokenExpiryMs (onWarnTimer s) := by
  have hopen (hnow : Warranted getTokenExpiryMs s s.now) :
      Watched getTokenExpiryMs (openDialog countdownSeconds (clearWarnTimer s)) :=
    watched_openDialog h.clear.timer h.lasting hnow _
  unfold onWarnTimer
  cases htimer : s.warnTimer with
  | none => exact h
  | some timer =>
    have hdue := h.timer timer htimer
    cases timer with
    | warn due =>
      dsimp only
      split_ifs with hnow hidle
      · refine ⟨fun timer htimer => ?_, h.shown, h.lasting⟩
        obtain rfl := Option.some.inj htimer
        apply hdue.later
        change due ≤ s.now+(activityDebounceMs-(s.now-s.lastActivity))
        omega
      · exact hopen (hdue.later hnow)
      · exact h
    | debounce due =>
      dsimp only
      split_ifs with hnow
      · exact hopen (hdue.later hnow)
      · exact h

theorem Watched.tick (h : Watched getTokenExpiryMs s) : Watched getTokenExpiryMs (onTick s) := by
  unfold onTick
  cases hdialog : s.dialog with
  | none => exact h
  | some countdown =>
    have hshown := h.shown countdown hdialog
    dsimp only
    split_ifs
    · exact watched_logOut
    · exact ⟨h.timer, fun _ _ => hshown, h.lasting⟩
    · exact h

/-- To go to another page of the same kind changes nothing. -/
theorem Watched.samePage (h : Watched getTokenExpiryMs s) {pathname : String}
    (hsame : isAuthPage pathname = isAuthPage s.pathname) :
    Watched getTokenExpiryMs { s with pathname := pathname } := by
  have hmove {time : ℤ} (hw : Warranted getTokenExpiryMs s time) :
      Warranted getTokenExpiryMs { s with pathname := pathname } time := by
    obtain ⟨token, e, htoken, hexpiry, hpage, hdue⟩ := hw
    exact ⟨token, e, htoken, hexpiry, hsame.trans hpage, hdue⟩
  exact ⟨fun timer htimer => hmove (h.timer timer htimer),
    fun countdown hshown => hmove (h.shown countdown hshown), h.lasting⟩

theorem Watched.step (h : Watched getTokenExpiryMs s) {move : Move}
    (hlasting : Lasting getTokenExpiryMs s move) :
    Watched getTokenExpiryMs (step getTokenExpiryMs s move) := by
  cases move with
  | elapse ms =>
    refine ⟨h.timer, fun countdown hshown => ?_, fun token e htoken hexpiry => ?_⟩
    · exact (h.shown countdown hshown).later (by simp [SessionTimeout.step])
    · have hlast := h.lasting token e htoken hexpiry
      change e-120000 < s.now+ms+2^31
      omega
  | warnTimer => exact h.warnTimer
  | tick => exact h.tick
  | activity =>
    change Watched getTokenExpiryMs (handleActivity s)
    unfold handleActivity
    split_ifs
    · exact ⟨h.timer, h.shown, h.lasting⟩
    · exact h
  | navigate pathname =>
    simp only [SessionTimeout.step]
    split_ifs with hsame
    · exact h.samePage hsame
    · exact watched_effect h.lasting
  | setToken token =>
    simp only [SessionTimeout.step]
    split_ifs
    · exact h
    · apply watched_effect
      intro token' e htoken hexpiry
      obtain rfl : token = some token' := htoken
      exact hlasting e hexpiry
  | stayLoggedIn => exact watched_hide h.lasting
  | logOut => exact watched_logOut

/-- In every run, however late the timers fire, the dialog is open only for the token in effect, in
the last two minutes before it expires or after, and never on the pages of the sign-in. -/
theorem warning_warranted (hstart : Watched getTokenExpiryMs s) (moves : List Move)
    (hlasting : Guarded (step getTokenExpiryMs) (Lasting getTokenExpiryMs) s moves) :
    Always (step getTokenExpiryMs) (fun s => s.dialog.isSome = true →
      ∃ token e, s.accessToken = some token ∧ getTokenExpiryMs token = some e ∧
        isAuthPage s.pathname = false ∧ e-120000 ≤ s.now) s moves := by
  refine always_of_guarded (step getTokenExpiryMs) (fun s move h => h.step)
    (fun s hwatched hopen => ?_) hstart hlasting
  obtain ⟨countdown, hshown⟩ := Option.isSome_iff_exists.mp hopen
  exact hwatched.shown countdown hshown

/-- A token that expires after five minutes. -/
def fiveMinutes (token : String) : Option ℤ :=
  if token = "eyJhbGciOiJIUzI1NiJ9.eyJleHAiOjMwMH0.c2ln" then some 300000 else none

/-- The user of the token has been idle for ten seconds, and no timer is set. -/
def onDashboard : Session :=
  ⟨10000, "/dashboard", some "eyJhbGciOiJIUzI1NiJ9.eyJleHAiOjMwMH0.c2ln", none, 0, none⟩

theorem warning_warranted_idle : Always (step fiveMinutes) (fun s => s.dialog.isSome = true →
    ∃ token e, s.accessToken = some token ∧ fiveMinutes token = some e ∧
      isAuthPage s.pathname = false ∧ e-120000 ≤ s.now)
    onDashboard [.elapse 60000, .setToken none, .navigate "/login",
      .setToken (some "eyJhbGciOiJIUzI1NiJ9.eyJleHAiOjMwMH0.c2ln"), .navigate "/bookings",
      .elapse 110000, .warnTimer, .elapse 500, .warnTimer] := by
  refine warning_warranted ⟨by simp [onDashboard], by simp [onDashboard], ?_⟩ _ ?_
  · intro token e htoken hexpiry
    obtain rfl := Option.some.inj htoken
    obtain rfl : (300000 : ℤ) = e := by simpa [fiveMinutes] using hexpiry
    decide
  · refine ⟨trivial, trivial, trivial, ?_, trivial, trivial, trivial, trivial, trivial, trivial⟩
    intro e hexpiry
    obtain rfl : (300000 : ℤ) = e := by simpa [fiveMinutes] using hexpiry
    decide

/-- The time never passes a timer that is set: what is due is dealt with first. -/
def Prompt (s : Session) : Move → Prop
  | .elapse ms =>
    (∀ timer ∈ s.warnTimer, s.now+ms ≤ timer.due) ∧ ∀ countdown ∈ s.dialog, s.now+ms ≤ countdown.due
  | .warnTimer | .tick | .activity => True
  | .navigate pathname => isAuthPage pathname = false
  | .setToken _ | .stayLoggedIn | .logOut => False

instance : (s : Session) → (move : Move) → Decidable (Prompt s move)
  | s, .elapse ms => inferInstanceAs (Decidable ((∀ timer ∈ s.warnTimer, s.now+ms ≤ timer.due) ∧
      ∀ countdown ∈ s.dialog, s.now+ms ≤ countdown.due))
  | _, .warnTimer | _, .tick | _, .activity => isTrue trivial
  | _, .navigate pathname => inferInstanceAs (Decidable (isAuthPage pathname = false))
  | _, .setToken _ | _, .stayLoggedIn | _, .logOut => isFalse id

/-- Where the hook stands with a token that expires at `e`, while nobody answers it. -/
inductive Stage (e : ℤ) (s : Session) : Prop where
  | out (htoken : s.accessToken = none) (htimer : s.warnTimer = none) (hdialog : s.dialog = none)
    (hlate : e < s.now+1000)
  | waiting (htoken : s.accessToken.isSome = true) (hdialog : s.dialog = none)
    (htimer : s.warnTimer = some (.warn (e-120000))) (hnow : s.now ≤ e-120000)
  | idling (htoken : s.accessToken.isSome = true) (hdialog : s.dialog = none) (due : ℤ)
    (htimer : s.warnTimer = some (.debounce due)) (hnow : s.now ≤ due)
    (hearly : e-120000 ≤ s.now) (hdue : due ≤ e-110000)
  | counting (htoken : s.accessToken.isSome = true) (htimer : s.warnTimer = none)
    (seconds remaining due : ℤ) (hdialog : s.dialog = some ⟨seconds, remaining, due⟩)
    (hleft : 0 < remaining) (hnow : s.now ≤ due) (hearly : e-120000 ≤ s.now)
    (hafter : e-1000 < due+(remaining-1)*1000) (hbefore : due+(remaining-1)*1000 ≤ e+10000)

structure Unanswered (e : ℤ) (s : Session) : Prop where
  page : s.accessToken.isSome = true → isAuthPage s.pathname = false
  activity : s.lastActivity ≤ s.now
  stage : Stage e s

/-- The stage is a matter of the clock, the token, the timer and the dialog. -/
theorem Stage.frame {s' : Session} (h : Stage e s) (hnow : s'.now = s.now)
    (htoken : s'.accessToken = s.accessToken) (htimer : s'.warnTimer = s.warnTimer)
    (hdialog : s'.dialog = s.dialog) : Stage e s' := by
  cases h with
  | out htoken' htimer' hdialog' hlate =>
    exact .out (htoken.trans htoken') (htimer.trans htimer') (hdialog.trans hdialog')
      (by rwa [hnow])
  | waiting htoken' hdialog' htimer' hwait =>
    exact .waiting (by rwa [htoken]) (hdialog.trans hdialog') (htimer.trans htimer') (by rwa [hnow])
  | idling htoken' hdialog' due htimer' hwait hearly hdue =>
    exact .idling (by rwa [htoken]) (hdialog.trans hdialog') due (htimer.trans htimer')
      (by rwa [hnow]) (by rwa [hnow]) hdue
  | counting htoken' htimer' seconds remaining due hdialog' hleft hwait hearly hafter hbefore =>
    exact .counting (by rwa [htoken]) (htimer.trans htimer') seconds remaining due
      (hdialog.trans hdialog') hleft (by rwa [hnow]) (by rwa [hnow]) hafter hbefore

theorem unanswered_opened {seconds : ℤ} (htoken : s.accessToken.isSome = true)
    (hpage : isAuthPage s.pathname = false) (hactivity : s.lastActivity ≤ s.now)
    (htimer : s.warnTimer = none) (hdialog : s.dialog = none) (hearly : e-120000 ≤ s.now)
    (hafter : e-1000 < s.now+seconds*1000)
    (hbefore : 0 < seconds → s.now+seconds*1000 ≤ e+10000) :
    Unanswered e (openDialog seconds s) := by
  unfold openDialog
  rw [hdialog]
  dsimp only
  split_ifs with hzero
  · have hlate : e < s.now+1000 := by omega
    exact ⟨fun h => absurd h (by simp [onLogOut]), hactivity, .out rfl rfl rfl hlate⟩
  · have hleft : 0 < seconds := by omega
    have hnow : s.now ≤ s.now+1000 := by omega
    have hend : s.now+1000+(seconds-1)*1000 = s.now+seconds*1000 := by omega
    rw [← hend] at hafter hbefore
    exact ⟨fun _ => hpage, hactivity, .counting htoken htimer seconds seconds (s.now+1000) rfl
      hleft hnow hearly hafter (hbefore hleft)⟩

theorem unanswered_effect (htoken : s.accessToken = some token)
    (hpage : isAuthPage s.pathname = false) (hactivity : s.lastActivity ≤ s.now)
    (hdialog : s.dialog = none) (hexpiry : getTokenExpiryMs token = some e) (hzero : e ≠ 0)
    (hshort : e-120000 < s.now+2^31) : Unanswered e (tokenEffect getTokenExpiryMs s) := by
  have hsome : s.accessToken.isSome = true := by simp [htoken]
  simp only [tokenEffect, htoken, hpage, scheduleWarning, hexpiry, hzero]
  change Unanswered e (if e-s.now-120*1000 ≤ 0 then
    openDialog (max 0 ((e-s.now)/1000)) (clearWarnTimer s)
    else { hideWarning (clearWarnTimer s) with
      warnTimer := some (.warn (s.now+timeoutDelay (e-s.now-120*1000))) })
  split_ifs with hlate
  · have hearly : e-120000 ≤ s.now := by omega
    have hafter : e-1000 < s.now+max 0 ((e-s.now)/1000)*1000 := by omega
    have hbefore (h : 0 < max 0 ((e-s.now)/1000)) :
        s.now+max 0 ((e-s.now)/1000)*1000 ≤ e+10000 := by omega
    exact unanswered_opened (s := clearWarnTimer s) hsome hpage hactivity rfl hdialog hearly hafter
      hbefore
  · have hdelay : timeoutDelay (e-s.now-120*1000) = e-s.now-120*1000 :=
      timeoutDelay_eq (by omega) (by omega)
    have hdue : s.now+timeoutDelay (e-s.now-120*1000) = e-120000 := by omega
    rw [hdue]
    have hnow : s.now ≤ e-120000 := by omega
    exact ⟨fun _ => hpage, hactivity, .waiting hsome rfl rfl hnow⟩

theorem Unanswered.elapse (h : Unanswered e s) {ms : ℕ} (hprompt : Prompt s (.elapse ms)) :
    Unanswered e { s with now := s.now+ms } := by
  obtain ⟨htimers, hdialogs⟩ := hprompt
  have hactivity : s.lastActivity ≤ s.now+ms := h.activity.trans (by omega)
  refine ⟨h.page, hactivity, ?_⟩
  cases h.stage with
  | out htoken htimer hdialog hlate =>
    have hlater : e < s.now+ms+1000 := by omega
    exact .out htoken htimer hdialog hlater
  | waiting htoken hdialog htimer hnow => exact .waiting htoken hdialog htimer (htimers _ htimer)
  | idling htoken hdialog due htimer hnow hearly hdue =>
    have hearlier : e-120000 ≤ s.now+ms := by omega
    exact .idling htoken hdialog due htimer (htimers _ htimer) hearlier hdue
  | counting htoken htimer seconds remaining due hdialog hleft hnow hearly hafter hbefore =>
    have hearlier : e-120000 ≤ s.now+ms := by omega
    exact .counting htoken htimer seconds remaining due hdialog hleft (hdialogs _ hdialog) hearlier
      hafter hbefore

theorem Unanswered.warnTimer (h : Unanswered e s) : Unanswered e (onWarnTimer s) := by
  unfold onWarnTimer
  cases h.stage with
  | out htoken htimer hdialog hlate => rwa [htimer]
  | counting htoken htimer => rwa [htimer]
  | waiting htoken hdialog htimer hnow =>
    rw [htimer]
    dsimp only
    have hactivity := h.activity
    split_ifs with hdue hidle
    · -- the user has been active: the dialog waits for the rest of the ten seconds
      change s.now-s.lastActivity < 10000 at hidle
      have hwait : s.now ≤ s.now+(10000-(s.now-s.lastActivity)) := by omega
      have hlatest : s.now+(10000-(s.now-s.lastActivity)) ≤ e-110000 := by omega
      exact ⟨h.page, hactivity, .idling htoken hdialog _ rfl hwait hdue hlatest⟩
    · exact unanswered_opened (s := clearWarnTimer s) htoken (h.page htoken) hactivity rfl hdialog
        hdue (by change e-1000 < s.now+120*1000; omega) fun _ => by
          change s.now+120*1000 ≤ e+10000; omega
    · exact h
  | idling htoken hdialog due htimer hnow hearly hdue =>
    rw [htimer]
    dsimp only
    split_ifs with hfires
    · exact unanswered_opened (s := clearWarnTimer s) htoken (h.page htoken) h.activity rfl hdialog
        hearly (by change e-1000 < s.now+120*1000; omega) fun _ => by
          change s.now+120*1000 ≤ e+10000; omega
    · exact h

theorem Unanswered.tick (h : Unanswered e s) : Unanswered e (onTick s) := by
  unfold onTick
  cases h.stage with
  | out htoken htimer hdialog hlate => rwa [hdialog]
  | waiting htoken hdialog => rwa [hdialog]
  | idling htoken hdialog => rwa [hdialog]
  | counting htoken htimer seconds remaining due hdialog hleft hnow hearly hafter hbefore =>
    rw [hdialog]
    dsimp only
    split_ifs with hdue hlast
    · have hlate : e < s.now+1000 := by omega
      exact ⟨fun h => absurd h (by simp [onLogOut]), h.activity, .out rfl rfl rfl hlate⟩
    · have hleft' : 0 < remaining-1 := by omega
      have hnow' : s.now ≤ s.now+1000 := by omega
      have hend : s.now+1000+(remaining-1-1)*1000 = due+(remaining-1)*1000 := by omega
      rw [← hend] at hafter hbefore
      exact ⟨h.page, h.activity, .counting htoken htimer seconds (remaining-1) (s.now+1000) rfl
        hleft' hnow' hearly hafter hbefore⟩
    · exact h

theorem Unanswered.activityAgain (h : Unanswered e s) : Unanswered e (handleActivity s) := by
  unfold handleActivity
  split_ifs
  · exact ⟨h.page, le_rfl, h.stage.frame rfl rfl rfl rfl⟩
  · exact h

theorem Unanswered.navigate (h : Unanswered e s) {pathname : String}
    (hpathname : isAuthPage pathname = false) :
    Unanswered e (step getTokenExpiryMs s (.navigate pathname)) := by
  simp only [SessionTimeout.step]
  split_ifs with hsame
  · refine ⟨fun _ => hpathname, h.activity, ?_⟩
    exact h.stage.frame rfl rfl rfl rfl
  · -- a page of the sign-in is left, and only who is signed out can be on one
    have hout (htoken : s.accessToken.isSome = true) : False :=
      hsame (hpathname.trans (h.page htoken).symm)
    cases h.stage with
    | out htoken htimer hdialog hlate =>
      simp only [tokenEffect, htoken]
      refine ⟨fun h => absurd h (by simp [hideWarning, clearWarnTimer]), h.activity, ?_⟩
      exact .out rfl rfl rfl hlate
    | waiting htoken => exact (hout htoken).elim
    | idling htoken => exact (hout htoken).elim
    | counting htoken => exact (hout htoken).elim

theorem Unanswered.step (h : Unanswered e s) {move : Move} (hprompt : Prompt s move) :
    Unanswered e (step getTokenExpiryMs s move) := by
  cases move with
  | elapse ms => exact h.elapse hprompt
  | warnTimer => exact h.warnTimer
  | tick => exact h.tick
  | activity => exact h.activityAgain
  | navigate pathname => exact h.navigate hprompt
  | setToken token => exact absurd hprompt (by simp [Prompt])
  | stayLoggedIn => exact absurd hprompt (by simp [Prompt])
  | logOut => exact absurd hprompt (by simp [Prompt])

/-- The user of a token that expires at `e` is signed out within a second before `e` and ten seconds
after, and only after the dialog has been open from ten seconds into the last two minutes on. -/
structure OnTime (e : ℤ) (s : Session) : Prop where
  out : s.accessToken = none → e-1000 < s.now
  inside : s.accessToken.isSome = true → s.now ≤ e+10000
  quiet : s.dialog.isSome = true → e-120000 ≤ s.now
  warned : s.accessToken.isSome = true → e-110000 < s.now → s.dialog.isSome = true

theorem Unanswered.onTime (h : Unanswered e s) : OnTime e s := by
  cases h.stage with
  | out htoken htimer hdialog hlate =>
    exact ⟨fun _ => by omega, by simp [htoken], by simp [hdialog], by simp [htoken]⟩
  | waiting htoken hdialog htimer hnow =>
    exact ⟨fun h => absurd htoken (by simp [h]), fun _ => by omega, by simp [hdialog],
      fun _ hlate => absurd hlate (by omega)⟩
  | idling htoken hdialog due htimer hnow hearly hdue =>
    exact ⟨fun h => absurd htoken (by simp [h]), fun _ => by omega, by simp [hdialog],
      fun _ hlate => absurd hlate (by omega)⟩
  | counting htoken htimer seconds remaining due hdialog hleft hnow hearly hafter hbefore =>
    exact ⟨fun h => absurd htoken (by simp [h]), fun _ => by omega, fun _ => hearly,
      fun _ _ => by simp [hdialog]⟩

/-- Whatever the user does on the pages that are not for signing in, a session that nobody answers
for ends on time, where its warning is not too far ahead for a timer. -/
theorem unanswered_run (htoken : s.accessToken = some token) (hpage : isAuthPage s.pathname = false)
    (hactivity : s.lastActivity ≤ s.now) (hdialog : s.dialog = none)
    (hexpiry : getTokenExpiryMs token = some e) (hzero : e ≠ 0) (hshort : e-120000 < s.now+2^31)
    (moves : List Move)
    (hprompt : Guarded (step getTokenExpiryMs) Prompt (tokenEffect getTokenExpiryMs s) moves) :
    Always (step getTokenExpiryMs) (OnTime e) (tokenEffect getTokenExpiryMs s) moves := by
  have hstart := unanswered_effect htoken hpage hactivity hdialog hexpiry hzero hshort
  exact always_of_guarded (step getTokenExpiryMs) (fun s move h => h.step) (fun s h => h.onTime)
    hstart hprompt

theorem unanswered_run_active :
    Always (step fiveMinutes) (OnTime 300000) (tokenEffect fiveMinutes onDashboard)
      [.elapse 165000, .activity, .elapse 5000, .warnTimer, .elapse 5000, .warnTimer, .elapse 1000,
        .tick] := by
  have htoken : onDashboard.accessToken = some "eyJhbGciOiJIUzI1NiJ9.eyJleHAiOjMwMH0.c2ln" := rfl
  exact unanswered_run htoken (by decide) (by decide) rfl (by decide) (by decide) (by decide) _
    (by decide)

end HubAssist.SessionTimeout
