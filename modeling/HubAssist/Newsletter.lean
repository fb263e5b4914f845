import HubAssist.Checks
import HubAssist.KeyedTable
import HubAssist.OffsetFeed
import HubAssist.RunSystem

/-! The newsletter with its double opt-in. A request is one step over the table of subscribers; the
uuids that it draws come with it. -/
namespace HubAssist.Newsletter
open Checks KeyedTable OffsetFeed RunSystem

structure NewsletterSubscriber (U : Type) where
  id : U
  email : String
  confirmationToken : U
  isConfirmed : Bool
  unsubscribeToken : U
  ipAddress : Option String
  subscribedAt : ℕ
  confirmedAt : Option ℕ

inductive NewsletterError where
  | badRequest (message : String)
  | notFound (message : String)
  deriving DecidableEq

structure Reply where
  message : String
  email : Option String
  deriving DecidableEq

/-- The database, which answers a query without a condition with a row of its choice. -/
structure Database (U : Type) where
  anyRow : List (NewsletterSubscriber U) → Option (NewsletterSubscriber U)
  anyRow_mem : ∀ rows r, anyRow rows = some r → r ∈ rows

structure Service (U : Type) where
  now : ℕ
  subscribers : List (NewsletterSubscriber U)

def start {U : Type} (now : ℕ) : Service U := ⟨now, []⟩

variable {U : Type} [DecidableEq U] (db : Database U)

/-- `findOne` on a column of tokens. A token that is missing from the request is no condition. -/
def findOne (column : NewsletterSubscriber U → U) (rows : List (NewsletterSubscriber U)) :
    Option U → Option (NewsletterSubscriber U)
  | some token => findRow column rows token
  | none => db.anyRow rows

/-- The uuids are drawn for the row, and for its two tokens. -/
def subscribe (email : String) (ipAddress : Option String)
    (id confirmationToken unsubscribeToken : U) (s : Service U) :
    Except NewsletterError (Reply × Service U) := do
  failIf ((findRow NewsletterSubscriber.email s.subscribers email).isSome = true)
    (.badRequest "Email already subscribed")
  let subscriber : NewsletterSubscriber U :=
    ⟨id, email, confirmationToken, false, unsubscribeToken, ipAddress, s.now, none⟩
  return (⟨"Subscription pending confirmation", some email⟩,
    { s with subscribers := save NewsletterSubscriber.id s.subscribers subscriber })

def confirm (token : Option U) (s : Service U) : Except NewsletterError (Reply × Service U) := do
  let subscriber ← getOr (findOne db NewsletterSubscriber.confirmationToken s.subscribers token)
    (.notFound "Invalid confirmation token")
  failIf (subscriber.isConfirmed = true) (.badRequest "Already confirmed")
  let confirmed := { subscriber with isConfirmed := true, confirmedAt := some s.now }
  return (⟨"Subscription confirmed", some subscriber.email⟩,
    { s with subscribers := save NewsletterSubscriber.id s.subscribers confirmed })

def unsubscribe (token : Option U) (s : Service U) :
    Except NewsletterError (Reply × Service U) := do
  let subscriber ← getOr (findOne db NewsletterSubscriber.unsubscribeToken s.subscribers token)
    (.notFound "Invalid unsubscribe token")
  return (⟨"Unsubscribed successfully", none⟩,
    { s with subscribers := others NewsletterSubscriber.id s.subscribers subscriber.id })

/-- A page of the confirmed subscribers, and how many there are. -/
def listSubscribers (page limit : ℕ) (s : Service U) : List (NewsletterSubscriber U) × ℕ :=
  let confirmed := s.subscribers.filter NewsletterSubscriber.isConfirmed
  (skipTake page limit confirmed, confirmed.length)

inductive Move (U : Type) where
  | elapse (ms : ℕ)
  | subscribe (email : String) (ipAddress : Option String)
    (id confirmationToken unsubscribeToken : U)
  | confirm (token : Option U)
  | unsubscribe (token : Option U)

def step (s : Service U) : Move U → Service U
  | .elapse ms => { s with now := s.now+ms }
  | .subscribe email ipAddress id confirmationToken unsubscribeToken =>
    orRollback s
      ((subscribe email ipAddress id confirmationToken unsubscribeToken s).map Prod.snd)
  | .confirm token => orRollback s ((confirm db token s).map Prod.snd)
  | .unsubscribe token => orRollback s ((unsubscribe db token s).map Prod.snd)

/-- A row is told by each of its keys. -/
structure Sound (s : Service U) : Prop where
  id : Keyed NewsletterSubscriber.id s.subscribers
  email : Keyed NewsletterSubscriber.email s.subscribers
  confirmationToken : Keyed NewsletterSubscriber.confirmationToken s.subscribers
  unsubscribeToken : Keyed NewsletterSubscriber.unsubscribeToken s.subscribers

/-- The uuids that the step draws are in no row. -/
def Fresh (s : Service U) : Move U → Prop
  | .subscribe _ _ id confirmationToken unsubscribeToken => ∀ r ∈ s.subscribers,
    r.id ≠ id ∧ r.confirmationToken ≠ confirmationToken ∧ r.unsubscribeToken ≠ unsubscribeToken
  | .elapse _ | .confirm _ | .unsubscribe _ => True

instance (s : Service U) : (m : Move U) → Decidable (Fresh s m)
  | .subscribe _ _ _ _ _ => inferInstanceAs (Decidable (∀ r ∈ s.subscribers, _))
  | .elapse _ | .confirm _ | .unsubscribe _ => isTrue trivial

/-- The row that was made with these tokens. -/
def Made (email : String) (t u : U) (r : NewsletterSubscriber U) : Prop :=
  r.email = email ∧ r.confirmationToken = t ∧ r.unsubscribeToken = u

def Subscribed (email : String) (t u : U) (s : Service U) : Prop :=
  ∃ r ∈ s.subscribers, Made email t u r

def Confirmed (email : String) (t u : U) (s : Service U) : Prop :=
  ∃ r ∈ s.subscribers, Made email t u r ∧ r.isConfirmed = true

/-- The step subscribes an address that has no row, and sends it the token `t`. -/
def Subscribes (email : String) (t u : U) (s : Service U) (m : Move U) : Prop :=
  (∃ ipAddress id, m = .subscribe email ipAddress id t u) ∧ ∀ r ∈ s.subscribers, r.email ≠ email

/-- The request has the token `t`, or it has none and the database comes upon the row of `t`. -/
def Confirms (t : U) (s : Service U) (m : Move U) : Prop :=
  m = .confirm (some t) ∨
    ∃ r, m = .confirm none ∧ db.anyRow s.subscribers = some r ∧ r.confirmationToken = t

def Unsubscribes (u : U) (s : Service U) (m : Move U) : Prop :=
  m = .unsubscribe (some u) ∨
    ∃ r, m = .unsubscribe none ∧ db.anyRow s.subscribers = some r ∧ r.unsubscribeToken = u

variable {db} {s : Service U} {m : Move U} {email : String} {t u : U}

theorem findOne_iff {column : NewsletterSubscriber U → U} {rows : List (NewsletterSubscriber U)}
    {token : Option U} {r : NewsletterSubscriber U} (hrows : Keyed column rows) :
    findOne db column rows token = some r ↔
      r ∈ rows ∧ (token = some (column r) ∨ token = none ∧ db.anyRow rows = some r) := by
  cases token with
  | none =>
    simp only [findOne, reduceCtorEq, false_or, true_and]
    exact ⟨fun h => ⟨db.anyRow_mem rows r h, h⟩, fun h => h.2⟩
  | some x =>
    simp only [findOne, Option.some.injEq, reduceCtorEq, false_and, or_false]
    constructor
    · intro h
      obtain ⟨hr, hkey⟩ := findRow_eq_some h
      exact ⟨hr, hkey.symm⟩
    · rintro ⟨hr, rfl⟩
      exact hrows.findRow_of_mem hr

theorem confirms_iff (hs : Sound s) {r : NewsletterSubscriber U} (hr : r ∈ s.subscribers)
    {token : Option U} : Confirms db r.confirmationToken s (.confirm token) ↔
      findOne db NewsletterSubscriber.confirmationToken s.subscribers token = some r := by
  rw [findOne_iff hs.confirmationToken, Confirms, Move.confirm.injEq]
  refine ⟨?_, fun h => h.2.imp id fun h => ⟨r, congrArg _ h.1, h.2, rfl⟩⟩
  rintro (htoken | ⟨r', htoken, hany, hsame⟩)
  · exact ⟨hr, Or.inl htoken⟩
  · obtain rfl := hs.confirmationToken.eq_of_key (db.anyRow_mem _ _ hany) hr hsame
    exact ⟨hr, Or.inr ⟨Move.confirm.inj htoken, hany⟩⟩

theorem unsubscribes_iff (hs : Sound s) {r : NewsletterSubscriber U} (hr : r ∈ s.subscribers)
    {token : Option U} : Unsubscribes db r.unsubscribeToken s (.unsubscribe token) ↔
      findOne db NewsletterSubscriber.unsubscribeToken s.subscribers token = some r := by
  rw [findOne_iff hs.unsubscribeToken, Unsubscribes, Move.unsubscribe.injEq]
  refine ⟨?_, fun h => h.2.imp id fun h => ⟨r, congrArg _ h.1, h.2, rfl⟩⟩
  rintro (htoken | ⟨r', htoken, hany, hsame⟩)
  · exact ⟨hr, Or.inl htoken⟩
  · obtain rfl := hs.unsubscribeToken.eq_of_key (db.anyRow_mem _ _ hany) hr hsame
    exact ⟨hr, Or.inr ⟨Move.unsubscribe.inj htoken, hany⟩⟩

/-- What a step does to the rows: nothing, or it adds, confirms or removes one. -/
inductive Effect (db : Database U) (s : Service U) (m : Move U)
    (rows : List (NewsletterSubscriber U)) : Prop
  | nothing (hrows : rows = s.subscribers) (hadds : ∀ email t u, ¬Subscribes email t u s m)
      (hconfirms : ∀ r ∈ s.subscribers, Confirms db r.confirmationToken s m → r.isConfirmed = true)
      (hremoves : ∀ r ∈ s.subscribers, ¬Unsubscribes db r.unsubscribeToken s m)
  | adds (r : NewsletterSubscriber U) (hrows : rows = s.subscribers ++ [r])
      (hpending : r.isConfirmed = false)
      (hadds : ∀ email t u, Subscribes email t u s m ↔ Made email t u r)
      (hnew : ∀ r' ∈ s.subscribers, r'.id ≠ r.id ∧ r'.email ≠ r.email ∧
        r'.confirmationToken ≠ r.confirmationToken ∧ r'.unsubscribeToken ≠ r.unsubscribeToken)
  | confirms (r : NewsletterSubscriber U) (now : ℕ) (hr : r ∈ s.subscribers)
      (hconfirms : Confirms db r.confirmationToken s m)
      (hrows : rows = save NewsletterSubscriber.id s.subscribers
        { r with isConfirmed := true, confirmedAt := some now })
  | removes (r : NewsletterSubscriber U) (hr : r ∈ s.subscribers)
      (hremoves : Unsubscribes db r.unsubscribeToken s m)
      (hrows : rows = others NewsletterSubscriber.id s.subscribers r.id)

omit [DecidableEq U] in
theorem not_confirms_subscribe {ipAddress : Option String} {id t' u' : U} :
    ¬Confirms db t s (.subscribe email ipAddress id t' u') := by
  rintro (h | ⟨_, h, _⟩) <;> cases h

omit [DecidableEq U] in
theorem not_unsubscribes_subscribe {ipAddress : Option String} {id t' u' : U} :
    ¬Unsubscribes db u s (.subscribe email ipAddress id t' u') := by
  rintro (h | ⟨_, h, _⟩) <;> cases h

variable (db) in
theorem effect_step (hs : Sound s) (hfresh : Fresh s m) :
    Effect db s m (step db s m).subscribers := by
  cases m with
  | elapse ms =>
    refine .nothing rfl ?_ ?_ ?_
    · rintro email t u ⟨⟨_, _, h⟩, _⟩
      cases h
    · rintro r _ (h | ⟨_, h, _⟩) <;> cases h
    · rintro r _ (h | ⟨_, h, _⟩) <;> cases h
  | subscribe email ipAddress id t u =>
    cases hfind : findRow NewsletterSubscriber.email s.subscribers email with
    | some r =>
      obtain ⟨hr, hemail⟩ := findRow_eq_some hfind
      refine .nothing ?_ ?_ ?_ ?_
      · simp [step, subscribe, hfind, failIf, orRollback, bind, Except.bind, Except.map]
      · rintro email' t' u' ⟨⟨_, _, h⟩, hnone⟩
        obtain ⟨rfl, _⟩ := Move.subscribe.inj h
        exact hnone r hr hemail
      · exact fun r _ h => absurd h not_confirms_subscribe
      · exact fun r _ => not_unsubscribes_subscribe
    | none =>
      have hnone : ∀ r ∈ s.subscribers, r.email ≠ email := by
        intro r hr
        simpa using List.find?_eq_none.mp hfind r hr
      have hid : id ∉ s.subscribers.map NewsletterSubscriber.id := by
        intro hmem
        obtain ⟨r, hr, hsame⟩ := List.mem_map.mp hmem
        exact (hfresh r hr).1 hsame
      have hsave : save NewsletterSubscriber.id s.subscribers
          ⟨id, email, t, false, u, ipAddress, s.now, none⟩ =
            s.subscribers ++ [⟨id, email, t, false, u, ipAddress, s.now, none⟩] := save_fresh hid
      refine .adds ⟨id, email, t, false, u, ipAddress, s.now, none⟩ ?_ rfl ?_ ?_
      · rw [← hsave]
        simp [step, subscribe, hfind, failIf, orRollback, bind, Except.bind, Except.map, pure,
          Except.pure]
      · intro email' t' u'
        constructor
        · rintro ⟨⟨_, _, h⟩, _⟩
          obtain ⟨rfl, _, _, rfl, rfl⟩ := Move.subscribe.inj h
          exact ⟨rfl, rfl, rfl⟩
        · rintro ⟨rfl, rfl, rfl⟩
          exact ⟨⟨ipAddress, id, rfl⟩, hnone⟩
      · intro r hr
        obtain ⟨hid', hconfirmation, hunsubscribe⟩ := hfresh r hr
        exact ⟨hid', hnone r hr, hconfirmation, hunsubscribe⟩
  | confirm token =>
    have hadds (email : String) (t u : U) : ¬Subscribes email t u s (.confirm token) := by
      rintro ⟨⟨_, _, h⟩, _⟩
      cases h
    have hremoves (u : U) : ¬Unsubscribes db u s (.confirm token) := by
      rintro (h | ⟨_, h, _⟩) <;> cases h
    cases hfind : findOne db NewsletterSubscriber.confirmationToken s.subscribers token with
    | none =>
      refine .nothing ?_ hadds ?_ fun r _ => hremoves _
      · simp [step, confirm, hfind, getOr, orRollback, bind, Except.bind, Except.map]
      · intro r hr h
        rw [confirms_iff hs hr, hfind] at h
        exact absurd h (by simp)
    | some r =>
      have hr := ((findOne_iff hs.confirmationToken).mp hfind).1
      cases hdone : r.isConfirmed with
      | true =>
        refine .nothing ?_ hadds ?_ fun r _ => hremoves _
        · simp [step, confirm, hfind, hdone, getOr, failIf, orRollback, bind, Except.bind,
            Except.map]
        · intro r' hr' h
          rw [confirms_iff hs hr', hfind] at h
          rwa [← Option.some.inj h]
      | false =>
        refine .confirms r s.now hr ((confirms_iff hs hr).mpr hfind) ?_
        simp [step, confirm, hfind, hdone, getOr, failIf, orRollback, bind, Except.bind,
          Except.map, pure, Except.pure]
  | unsubscribe token =>
    cases hfind : findOne db NewsletterSubscriber.unsubscribeToken s.subscribers token with
    | none =>
      refine .nothing ?_ ?_ ?_ ?_
      · simp [step, unsubscribe, hfind, getOr, orRollback, bind, Except.bind, Except.map]
      · rintro email t u ⟨⟨_, _, h⟩, _⟩
        cases h
      · rintro r _ (h | ⟨_, h, _⟩) <;> cases h
      · intro r hr h
        rw [unsubscribes_iff hs hr, hfind] at h
        exact absurd h (by simp)
    | some r =>
      have hr := ((findOne_iff hs.unsubscribeToken).mp hfind).1
      refine .removes r hr ((unsubscribes_iff hs hr).mpr hfind) ?_
      simp [step, unsubscribe, hfind, getOr, orRollback, bind, Except.bind, Except.map, pure,
        Except.pure]

theorem sound_step (hs : Sound s) (hfresh : Fresh s m) : Sound (step db s m) := by
  have hadded {L : Type} {column : NewsletterSubscriber U → L}
      (hcolumn : Keyed column s.subscribers) {r : NewsletterSubscriber U}
      (hnew : ∀ r' ∈ s.subscribers, column r' ≠ column r) :
      Keyed column (s.subscribers ++ [r]) := by
    rw [Keyed, List.map_append, List.map_singleton, List.nodup_append]
    refine ⟨hcolumn, List.nodup_singleton _, ?_⟩
    intro x hx y hy
    obtain ⟨r', hr', rfl⟩ := List.mem_map.mp hx
    obtain rfl := List.mem_singleton.mp hy
    exact hnew r' hr'
  have hkept {L : Type} {column : NewsletterSubscriber U → L} (hcolumn : Keyed column s.subscribers)
      {r new : NewsletterSubscriber U} (hr : r ∈ s.subscribers) (hid : new.id = r.id)
      (hsame : column new = column r) :
      Keyed column (save NewsletterSubscriber.id s.subscribers new) := by
    rw [Keyed, hs.id.map_save hr hid hsame]
    exact hcolumn
  have hless {L : Type} {column : NewsletterSubscriber U → L} (hcolumn : Keyed column s.subscribers)
      (id : U) : Keyed column (others NewsletterSubscriber.id s.subscribers id) :=
    hcolumn.sublist (List.filter_sublist.map column)
  cases effect_step db hs hfresh with
  | nothing hrows =>
    constructor <;> rw [hrows]
    · exact hs.id
    · exact hs.email
    · exact hs.confirmationToken
    · exact hs.unsubscribeToken
  | adds r hrows _ _ hnew =>
    constructor <;> rw [hrows]
    · exact hadded hs.id fun r' hr' => (hnew r' hr').1
    · exact hadded hs.email fun r' hr' => (hnew r' hr').2.1
    · exact hadded hs.confirmationToken fun r' hr' => (hnew r' hr').2.2.1
    · exact hadded hs.unsubscribeToken fun r' hr' => (hnew r' hr').2.2.2
  | confirms r now hr _ hrows =>
    constructor <;> rw [hrows]
    · exact hkept hs.id hr rfl rfl
    · exact hkept hs.email hr rfl rfl
    · exact hkept hs.confirmationToken hr rfl rfl
    · exact hkept hs.unsubscribeToken hr rfl rfl
  | removes r _ _ hrows =>
    constructor <;> rw [hrows]
    · exact hless hs.id r.id
    · exact hless hs.email r.id
    · exact hless hs.confirmationToken r.id
    · exact hless hs.unsubscribeToken r.id

omit [DecidableEq U] in
variable (db) in
theorem Subscribes.exclusive (h : Subscribes email t u s m) (t' u' : U) :
    ¬Confirms db t' s m ∧ ¬Unsubscribes db u' s m := by
  obtain ⟨⟨_, _, rfl⟩, _⟩ := h
  exact ⟨not_confirms_subscribe, not_unsubscribes_subscribe⟩

omit [DecidableEq U] in
theorem Confirms.exclusive (h : Confirms db t s m) (u : U) : ¬Unsubscribes db u s m := by
  rintro (rfl | ⟨_, rfl, _⟩) <;> rcases h with h | ⟨_, h, _⟩ <;> cases h

/-- A request names one row at most. -/
theorem Confirms.eq (hs : Sound s) {r r' : NewsletterSubscriber U} (hr : r ∈ s.subscribers)
    (hr' : r' ∈ s.subscribers) (h : Confirms db r.confirmationToken s m)
    (h' : Confirms db r'.confirmationToken s m) : r = r' := by
  obtain ⟨token, rfl⟩ : ∃ token, m = .confirm token := by
    rcases h with rfl | ⟨_, rfl, _⟩
    · exact ⟨_, rfl⟩
    · exact ⟨_, rfl⟩
  rw [confirms_iff hs hr] at h
  rw [confirms_iff hs hr', h] at h'
  exact Option.some.inj h'

theorem Unsubscribes.eq (hs : Sound s) {r r' : NewsletterSubscriber U} (hr : r ∈ s.subscribers)
    (hr' : r' ∈ s.subscribers) (h : Unsubscribes db r.unsubscribeToken s m)
    (h' : Unsubscribes db r'.unsubscribeToken s m) : r = r' := by
  obtain ⟨token, rfl⟩ : ∃ token, m = .unsubscribe token := by
    rcases h with rfl | ⟨_, rfl, _⟩
    · exact ⟨_, rfl⟩
    · exact ⟨_, rfl⟩
  rw [unsubscribes_iff hs hr] at h
  rw [unsubscribes_iff hs hr', h] at h'
  exact Option.some.inj h'

/-- The rows that an unsubscription leaves are those that it does not name. -/
theorem mem_left_iff (hs : Sound s) {r r' : NewsletterSubscriber U} (hr : r ∈ s.subscribers)
    (hremoves : Unsubscribes db r.unsubscribeToken s m) :
    r' ∈ others NewsletterSubscriber.id s.subscribers r.id ↔
      r' ∈ s.subscribers ∧ ¬Unsubscribes db r'.unsubscribeToken s m := by
  rw [others, List.mem_filter, decide_eq_true_eq]
  refine and_congr_right fun hr' => ?_
  constructor
  · intro hne h
    exact hne (congrArg _ (h.eq hs hr' hr hremoves))
  · intro hkept hsame
    obtain rfl := hs.id.eq_of_key hr' hr hsame
    exact hkept hremoves

theorem subscribed_step (hs : Sound s) (hfresh : Fresh s m) :
    Subscribed email t u (step db s m) ↔
      Subscribes email t u s m ∨ Subscribed email t u s ∧ ¬Unsubscribes db u s m := by
  unfold Subscribed
  cases effect_step db hs hfresh with
  | nothing hrows hadds _ hremoves =>
    rw [hrows]
    constructor
    · rintro ⟨r, hr, hmade⟩
      refine Or.inr ⟨⟨r, hr, hmade⟩, ?_⟩
      rw [← hmade.2.2]
      exact hremoves r hr
    · rintro (h | ⟨h, _⟩)
      · exact absurd h (hadds email t u)
      · exact h
  | adds r hrows _ hadds _ =>
    have hother : ¬Unsubscribes db u s m := (((hadds _ _ _).mpr ⟨rfl, rfl, rfl⟩).exclusive db t u).2
    rw [hrows, hadds]
    constructor
    · rintro ⟨r', hr', hmade⟩
      rcases List.mem_append.mp hr' with hold | hnew
      · exact Or.inr ⟨⟨r', hold, hmade⟩, hother⟩
      · exact Or.inl (List.mem_singleton.mp hnew ▸ hmade)
    · rintro (hmade | ⟨⟨r', hr', hmade⟩, _⟩)
      · exact ⟨r, List.mem_append_right _ (List.mem_singleton_self r), hmade⟩
      · exact ⟨r', List.mem_append_left _ hr', hmade⟩
  | confirms r now hr hconfirms hrows =>
    have hadds : ¬Subscribes email t u s m := fun h => (h.exclusive db _ u).1 hconfirms
    rw [hrows]
    constructor
    · rintro ⟨r', hr', hmade⟩
      refine Or.inr ⟨?_, hconfirms.exclusive u⟩
      rcases hs.id.mem_save_iff.mp hr' with rfl | ⟨hold, _⟩
      · exact ⟨r, hr, hmade⟩
      · exact ⟨r', hold, hmade⟩
    · rintro (h | ⟨⟨r', hr', hmade⟩, _⟩)
      · exact absurd h hadds
      · by_cases hsame : r'.id = r.id
        · obtain rfl := hs.id.eq_of_key hr' hr hsame
          exact ⟨_, hs.id.mem_save_iff.mpr (Or.inl rfl), hmade⟩
        · exact ⟨r', hs.id.mem_save_iff.mpr (Or.inr ⟨hr', hsame⟩), hmade⟩
  | removes r hr hremoves hrows =>
    have hadds : ¬Subscribes email t u s m := fun h => (h.exclusive db t _).2 hremoves
    rw [hrows]
    constructor
    · rintro ⟨r', hr', hmade⟩
      obtain ⟨hold, hkept⟩ := (mem_left_iff hs hr hremoves).mp hr'
      exact Or.inr ⟨⟨r', hold, hmade⟩, hmade.2.2 ▸ hkept⟩
    · rintro (h | ⟨⟨r', hr', hmade⟩, hkept⟩)
      · exact absurd h hadds
      · exact ⟨r', (mem_left_iff hs hr hremoves).mpr ⟨hr', hmade.2.2 ▸ hkept⟩, hmade⟩

theorem confirmed_step (hs : Sound s) (hfresh : Fresh s m) :
    Confirmed email t u (step db s m) ↔ (Confirms db t s m ∧ Subscribed email t u s) ∨
      Confirmed email t u s ∧ ¬Unsubscribes db u s m := by
  unfold Confirmed Subscribed
  cases effect_step db hs hfresh with
  | nothing hrows _ hconfirms hremoves =>
    rw [hrows]
    constructor
    · rintro ⟨r, hr, hmade, hdone⟩
      refine Or.inr ⟨⟨r, hr, hmade, hdone⟩, ?_⟩
      rw [← hmade.2.2]
      exact hremoves r hr
    · rintro (⟨h, r, hr, hmade⟩ | ⟨h, _⟩)
      · rw [← hmade.2.1] at h
        exact ⟨r, hr, hmade, hconfirms r hr h⟩
      · exact h
  | adds r hrows hpending hadds _ =>
    obtain ⟨hconfirm, hother⟩ := ((hadds _ _ _).mpr ⟨rfl, rfl, rfl⟩).exclusive db t u
    rw [hrows]
    constructor
    · rintro ⟨r', hr', hmade, hdone⟩
      rcases List.mem_append.mp hr' with hold | hnew
      · exact Or.inr ⟨⟨r', hold, hmade, hdone⟩, hother⟩
      · rw [List.mem_singleton.mp hnew, hpending] at hdone
        exact absurd hdone (by simp)
    · rintro (⟨h, _⟩ | ⟨⟨r', hr', hmade⟩, _⟩)
      · exact absurd h hconfirm
      · exact ⟨r', List.mem_append_left _ hr', hmade⟩
  | confirms r now hr hconfirms hrows =>
    rw [hrows]
    constructor
    · rintro ⟨r', hr', hmade, hdone⟩
      rcases hs.id.mem_save_iff.mp hr' with rfl | ⟨hold, _⟩
      · exact Or.inl ⟨hmade.2.1 ▸ hconfirms, r, hr, hmade⟩
      · exact Or.inr ⟨⟨r', hold, hmade, hdone⟩, hconfirms.exclusive u⟩
    · rintro (⟨h, r', hr', hmade⟩ | ⟨⟨r', hr', hmade, hdone⟩, _⟩)
      · rw [← hmade.2.1] at h
        obtain rfl := h.eq hs hr' hr hconfirms
        exact ⟨_, hs.id.mem_save_iff.mpr (Or.inl rfl), hmade, rfl⟩
      · by_cases hsame : r'.id = r.id
        · obtain rfl := hs.id.eq_of_key hr' hr hsame
          exact ⟨_, hs.id.mem_save_iff.mpr (Or.inl rfl), hmade, rfl⟩
        · exact ⟨r', hs.id.mem_save_iff.mpr (Or.inr ⟨hr', hsame⟩), hmade, hdone⟩
  | removes r hr hremoves hrows =>
    have hconfirm : ¬Confirms db t s m := fun h => h.exclusive _ hremoves
    rw [hrows]
    constructor
    · rintro ⟨r', hr', hmade, hdone⟩
      obtain ⟨hold, hkept⟩ := (mem_left_iff hs hr hremoves).mp hr'
      exact Or.inr ⟨⟨r', hold, hmade, hdone⟩, hmade.2.2 ▸ hkept⟩
    · rintro (⟨h, _⟩ | ⟨⟨r', hr', hmade, hdone⟩, hkept⟩)
      · exact absurd h hconfirm
      · exact ⟨r', (mem_left_iff hs hr hremoves).mpr ⟨hr', hmade.2.2 ▸ hkept⟩, hmade, hdone⟩

omit [DecidableEq U] in
theorem sound_start (now : ℕ) : Sound (start now : Service U) :=
  ⟨List.nodup_nil, List.nodup_nil, List.nodup_nil, List.nodup_nil⟩

theorem subscribed_run {now : ℕ} {moves : List (Move U)}
    (hfresh : Guarded (step db) Fresh (start now) moves) (email : String) (t u : U) :
    Subscribed email t u (run (step db) (start now) moves) ↔ ∃ pre sub mid,
      moves = pre ++ sub :: mid ∧ Subscribes email t u (run (step db) (start now) pre) sub ∧
        Guarded (step db) (fun s m => ¬Unsubscribes db u s m)
          (run (step db) (start now) (pre ++ [sub])) mid := by
  have hnone : ¬Subscribed email t u (start now) := by
    rintro ⟨r, hr, _⟩
    exact List.not_mem_nil hr
  exact lasts_iff (step db) (fun _ _ => sound_step) (fun _ _ => subscribed_step) (sound_start now)
    hnone hfresh

/-- An address is confirmed exactly when it was subscribed, the token that was sent to it came back,
and no request has named its row to unsubscribe since it was made. The uuids are drawn fresh. -/
theorem double_opt_in {now : ℕ} {moves : List (Move U)}
    (hfresh : Guarded (step db) Fresh (start now) moves) (email : String) (t u : U) :
    Confirmed email t u (run (step db) (start now) moves) ↔
      ∃ pre sub mid m post, moves = pre ++ sub :: mid ++ m :: post ∧
        Subscribes email t u (run (step db) (start now) pre) sub ∧
        Guarded (step db) (fun s m => ¬Unsubscribes db u s m)
          (run (step db) (start now) (pre ++ [sub])) mid ∧
        Confirms db t (run (step db) (start now) (pre ++ sub :: mid)) m ∧
        Guarded (step db) (fun s m => ¬Unsubscribes db u s m)
          (run (step db) (start now) (pre ++ sub :: mid ++ [m])) post := by
  have hnone : ¬Confirmed email t u (start now) := by
    rintro ⟨r, hr, _⟩
    exact List.not_mem_nil hr
  have hconfirmed := lasts_iff (step db) (fun _ _ => sound_step) (fun _ _ => confirmed_step)
    (sound_start now) hnone hfresh
  rw [hconfirmed]
  constructor
  · rintro ⟨pre', m, post, rfl, ⟨hconfirms, hsub⟩, hpost⟩
    have hpre := ((guarded_append (step db) Fresh _ pre' (m :: post)).mp hfresh).1
    obtain ⟨pre, sub, mid, rfl, hadds, hmid⟩ := (subscribed_run hpre email t u).mp hsub
    exact ⟨pre, sub, mid, m, post, rfl, hadds, hmid, hconfirms, hpost⟩
  · rintro ⟨pre, sub, mid, m, post, rfl, hadds, hmid, hconfirms, hpost⟩
    have hpre := ((guarded_append (step db) Fresh _ (pre ++ sub :: mid) (m :: post)).mp hfresh).1
    have hsub := (subscribed_run hpre email t u).mpr ⟨pre, sub, mid, rfl, hadds, hmid⟩
    exact ⟨pre ++ sub :: mid, m, post, rfl, ⟨hconfirms, hsub⟩, hpost⟩

omit [DecidableEq U] in
/-- The pages of the list hold the confirmed addresses. -/
theorem listed_iff {limit : ℕ} (hlimit : 0 < limit) :
    (∃ page r, 1 ≤ page ∧ r ∈ (listSubscribers page limit s).1 ∧ r.email = email) ↔
      ∃ t u, Confirmed email t u s := by
  constructor
  · rintro ⟨page, r, hpage, hr, hemail⟩
    have hmem := (mem_skipTake_iff hlimit).mp ⟨page, hpage, hr⟩
    obtain ⟨hrow, hdone⟩ := List.mem_filter.mp hmem
    exact ⟨_, _, r, hrow, ⟨hemail, rfl, rfl⟩, hdone⟩
  · rintro ⟨t, u, r, hr, hmade, hdone⟩
    have hmem := List.mem_filter.mpr ⟨hr, hdone⟩
    obtain ⟨page, hpage, hlisted⟩ := (mem_skipTake_iff hlimit).mpr hmem
    exact ⟨page, r, hpage, hlisted, hmade.1⟩

/-- A database that comes upon its first row. -/
def firstRow : Database ℕ := ⟨List.head?, fun _ _ h => List.mem_of_mem_head? h⟩

/-- Two addresses, of which one is confirmed and the other unsubscribed. -/
theorem confirmed_once : Confirmed "a@b.com" 2 3 (run (step firstRow) (start 0)
    [.subscribe "a@b.com" none 1 2 3, .subscribe "c@d.com" none 4 5 6, .confirm (some 2),
      .unsubscribe (some 6)]) := by
  have hother : ∀ s, ¬Unsubscribes firstRow 3 s (.unsubscribe (some 6)) := by
    rintro s (h | ⟨_, h, _⟩) <;> cases h
  exact (double_opt_in (by decide) "a@b.com" 2 3).mpr
    ⟨[], .subscribe "a@b.com" none 1 2 3, [.subscribe "c@d.com" none 4 5 6], .confirm (some 2),
      [.unsubscribe (some 6)], rfl, ⟨⟨none, 1, rfl⟩, by simp [start]⟩,
      ⟨not_unsubscribes_subscribe, trivial⟩, Or.inl rfl, ⟨hother _, trivial⟩⟩

end HubAssist.Newsletter
