import HubAssist.IdempotencyModel
import Mathlib.Data.Fintype.Basic

/-! How often the handler is entered for requests with one cache key, in any interleaving of their
steps within the time that cache entries live. -/
namespace HubAssist.Idempotency
open Checks TtlCache RunSystem Interleaving

variable {I B : Type*} (tokens : Tokens)

abbrev Requests (I B : Type*) := Global I (ResponseCache B) (Progress B)

/-- The handler has been entered under the key, and has not answered with an error. -/
def Phase.Live (key : String) : Phase B → Prop
  | .handling k => k = key
  | .responded k response | .settled k response => k = key ∧ response.ok
  | _ => False

def Phase.lookingKey : Phase B → Option String
  | .looking key => some key
  | _ => none

def Phase.markedKey : Phase B → Option String
  | .marked key => some key
  | _ => none

/-- When a request enters the handler, every other request with its key that has entered it has
finished with a status that is not 2xx. -/
def EntersOnce (g : Requests I B) (move : I × Action B) : Prop :=
  move.2.move = .next → ∀ key ∈ (g.locals move.1).phase.markedKey,
    ∀ j, j ≠ move.1 → ¬(g.locals j).phase.Live key

/-- A request that passes the checks and is answered by the middleware gets the conflict, or the
successful response that the handler gave to a request with the same key. -/
def Served (g : Requests I B) : Prop :=
  ∀ i key reply, cacheKey tokens (g.locals i).request = .ok key →
    (g.locals i).phase = .answered reply →
    reply = conflictReply ∨ ∃ j response, (g.locals j).phase = .settled key response ∧
      response.ok ∧ reply = .replayed response

/-- No request reads the cache while another with its key has read it and not yet set its mark. -/
def ReadsAlone (g : Requests I B) (move : I × Action B) : Prop :=
  move.2.move = .get → ∀ key ∈ (g.locals move.1).phase.lookingKey,
    ∀ j, j ≠ move.1 → (g.locals j).phase ≠ .marking key

/-- The step is taken while what is written from `t₀` on lives. -/
def WithinTtl (t₀ : ℕ) (a : Action B) : Prop := t₀ ≤ a.now ∧ a.now < t₀+idempotencyTtlMs

instance (key : String) (phase : Phase B) : Decidable (phase.Live key) :=
  match phase with
  | .handling k => inferInstanceAs (Decidable (k = key))
  | .responded k response => inferInstanceAs (Decidable (k = key ∧ response.ok))
  | .settled k response => inferInstanceAs (Decidable (k = key ∧ response.ok))
  | .arrived | .looking _ | .marking _ | .marked _ | .answered _ => isFalse id

instance [DecidableEq B] [DecidableEq I] [Fintype I] (g : Requests I B) (move : I × Action B) :
    Decidable (EntersOnce g move) :=
  inferInstanceAs (Decidable (_ → ∀ key ∈ _, ∀ _j, _))

instance [DecidableEq B] [DecidableEq I] [Fintype I] (g : Requests I B) (move : I × Action B) :
    Decidable (ReadsAlone g move) :=
  inferInstanceAs (Decidable (_ → ∀ key ∈ _, ∀ _j, _))

instance (t₀ : ℕ) (a : Action B) : Decidable (WithinTtl t₀ a) :=
  inferInstanceAs (Decidable (_ ∧ _))

/-- What a step of a request does. -/
inductive Effect (cache : ResponseCache B) (p : Progress B) (now : ℕ) :
    Move B → ResponseCache B × Progress B → Prop
  | skips (m : Move B) : Effect cache p now m (cache, p)
  | rejected {e : HttpError} (hphase : p.phase = .arrived) (hkey : cacheKey tokens p.request = .error e) :
    Effect cache p now .check (cache, { p with phase := .answered (.rejected e) })
  | admitted {key : String} (hphase : p.phase = .arrived) (hkey : cacheKey tokens p.request = .ok key) :
    Effect cache p now .check (cache, { p with phase := .looking key })
  | conflicted {key : String} (hphase : p.phase = .looking key)
    (hget : get cache now key = some .inFlight) :
    Effect cache p now .get (cache, { p with phase := .answered conflictReply })
  | replayed {key : String} {response : CachedResponse B} (hphase : p.phase = .looking key)
    (hget : get cache now key = some (.response response)) :
    Effect cache p now .get (cache, { p with phase := .answered (.replayed response) })
  | missed {key : String} (hphase : p.phase = .looking key) (hget : get cache now key = none) :
    Effect cache p now .get (cache, { p with phase := .marking key })
  | marked {key : String} (hphase : p.phase = .marking key) :
    Effect cache p now .mark
      (set cache now idempotencyTtlMs key .inFlight, { p with phase := .marked key })
  | entered {key : String} (hphase : p.phase = .marked key) :
    Effect cache p now .next (cache, { p with phase := .handling key })
  | responded {key : String} (statusCode : ℕ) (body : B) (hphase : p.phase = .handling key) :
    Effect cache p now (.json statusCode body)
      (cache, { p with phase := .responded key ⟨statusCode, body⟩ })
  | stored {key : String} {response : CachedResponse B} (hphase : p.phase = .responded key response)
    (hok : response.ok) :
    Effect cache p now .settle (set cache now idempotencyTtlMs key (.response response),
      { p with phase := .settled key response })
  | cleared {key : String} {response : CachedResponse B} (hphase : p.phase = .responded key response)
    (hfailed : ¬response.ok) :
    Effect cache p now .settle (del cache key, { p with phase := .settled key response })

variable {tokens} {cache : ResponseCache B} {p q : Progress B} {a : Action B}

theorem act_effect (tokens : Tokens) (cache : ResponseCache B) (p : Progress B) (a : Action B) :
    Effect tokens cache p a.now a.move (act tokens cache p a) := by
  obtain ⟨now, move⟩ := a
  simp only [act]
  split
  · next hphase =>
    split
    · next e hkey => exact .rejected hphase hkey
    · next key hkey => exact .admitted hphase hkey
  · next key hphase =>
    split
    · next hget => exact .conflicted hphase hget
    · next response hget => exact .replayed hphase hget
    · next hget => exact .missed hphase hget
  · next key hphase => exact .marked hphase
  · next key hphase => exact .entered hphase
  · next statusCode body key hphase => exact .responded statusCode body hphase
  · next key response hphase =>
    split_ifs with hok
    · exact .stored hphase hok
    · exact .cleared hphase hok
  · exact .skips _

/-- What a request takes the cache to hold under which key. -/
def Phase.expects : Phase B → Option (String × Option (Stored B))
  | .marking key => some (key, none)
  | .marked key | .handling key | .responded key _ => some (key, some .inFlight)
  | .settled key response => if response.ok then some (key, some (.response response)) else none
  | _ => none

/-- The request is between its look at the cache and the last write to it. -/
def Phase.Busy (key : String) : Phase B → Prop
  | .marking k | .marked k | .handling k | .responded k _ => k = key
  | _ => False

/-- The cache holds what the request takes it to hold. -/
def Warranted (t₀ : ℕ) (cache : ResponseCache B) (p : Progress B) : Prop :=
  ∀ key found, p.phase.expects = some (key, found) →
    Throughout cache t₀ (t₀+idempotencyTtlMs) key found

def Exclusive (p q : Progress B) : Prop := ∀ key, p.phase.Busy key → ¬q.phase.Busy key

theorem mem_markedKey {phase : Phase B} {key : String} (h : key ∈ phase.markedKey) :
    phase = .marked key := by
  cases phase with
  | marked k =>
    obtain rfl := Option.some.inj h
    rfl
  | _ => cases h

theorem expects_of_busy {phase : Phase B} {key : String} (h : phase.Busy key) :
    phase.expects = some (key, none) ∧ phase = .marking key ∨
      phase.expects = some (key, some .inFlight) := by
  cases phase <;> simp_all [Phase.Busy, Phase.expects]

theorem busy_or_stored_of_expects {phase : Phase B} {key : String} {found : Option (Stored B)}
    (h : phase.expects = some (key, found)) :
    phase.Busy key ∨ ∃ response, found = some (.response response) := by
  cases phase with
  | settled k response =>
    simp only [Phase.expects] at h
    split_ifs at h with hok
    obtain ⟨rfl, rfl⟩ := Prod.mk.inj (Option.some.inj h)
    exact .inr ⟨response, rfl⟩
  | marking k =>
    obtain ⟨rfl, rfl⟩ := Prod.mk.inj (Option.some.inj h)
    exact .inl rfl
  | marked k =>
    obtain ⟨rfl, rfl⟩ := Prod.mk.inj (Option.some.inj h)
    exact .inl rfl
  | handling k =>
    obtain ⟨rfl, rfl⟩ := Prod.mk.inj (Option.some.inj h)
    exact .inl rfl
  | responded k response =>
    obtain ⟨rfl, rfl⟩ := Prod.mk.inj (Option.some.inj h)
    exact .inl rfl
  | _ => cases h

theorem ttl_pos (t₀ : ℕ) : t₀ < t₀+idempotencyTtlMs := Nat.lt_add_of_pos_right (by decide)

/-- A busy request is the only one that expects anything under its key. -/
theorem expects_ne_of_busy {t₀ : ℕ} {key k : String} {found : Option (Stored B)}
    (hp : Warranted t₀ cache p) (hq : Warranted t₀ cache q) (hexclusive : Exclusive p q)
    (hbusy : p.phase.Busy key) (hexpects : q.phase.expects = some (k, found)) : k ≠ key := by
  rintro rfl
  rcases busy_or_stored_of_expects hexpects with hq' | ⟨response, rfl⟩
  · exact hexclusive k hbusy hq'
  · -- the busy one expects the mark, or nothing
    have hstored := hq k _ hexpects
    rcases expects_of_busy hbusy with ⟨hnone, _⟩ | hmark
    · cases (hp k _ hnone).unique hstored (ttl_pos t₀)
    · cases (hp k _ hmark).unique hstored (ttl_pos t₀)

theorem Warranted.of_phase {t₀ : ℕ} {phase : Phase B} (h : Warranted t₀ cache p)
    (hexpects : phase.expects = p.phase.expects) :
    Warranted t₀ cache { p with phase := phase } :=
  fun key found hfound => h key found (hexpects ▸ hfound)

theorem warranted_of_expects_none {t₀ : ℕ} {phase : Phase B} (hexpects : phase.expects = none) :
    Warranted t₀ cache { p with phase := phase } := by
  intro key found hfound
  rw [hexpects] at hfound
  cases hfound

theorem warranted_settled {t₀ : ℕ} {key : String} {response : CachedResponse B} (hok : response.ok)
    (hstored : Throughout cache t₀ (t₀+idempotencyTtlMs) key (some (.response response))) :
    Warranted t₀ cache { p with phase := .settled key response } := by
  intro k found hfound
  simp only [Phase.expects, if_pos hok, Option.some.injEq, Prod.mk.injEq] at hfound
  obtain ⟨rfl, rfl⟩ := hfound
  exact hstored

/-- Busy requests become so by a look at the cache that finds nothing. -/
theorem Effect.busy {now : ℕ} {move : Move B} {r : ResponseCache B × Progress B} {key : String}
    (h : Effect tokens cache p now move r) (hbusy : r.2.phase.Busy key) :
    p.phase.Busy key ∨ move = .get ∧ p.phase = .looking key ∧ get cache now key = none := by
  cases h with
  | skips => exact .inl hbusy
  | rejected => exact hbusy.elim
  | admitted => exact hbusy.elim
  | conflicted => exact hbusy.elim
  | replayed => exact hbusy.elim
  | missed hphase hget =>
    obtain rfl : _ = key := hbusy
    exact .inr ⟨rfl, hphase, hget⟩
  | marked hphase => exact .inl (by rw [hphase]; exact hbusy)
  | entered hphase => exact .inl (by rw [hphase]; exact hbusy)
  | responded _ _ hphase => exact .inl (by rw [hphase]; exact hbusy)
  | stored => exact hbusy.elim
  | cleared => exact hbusy.elim

/-- A request writes to the cache under a key only while it is busy with it. -/
theorem Effect.writes {now : ℕ} {move : Move B} {r : ResponseCache B × Progress B}
    (h : Effect tokens cache p now move r) :
    r.1 = cache ∨ ∃ key, p.phase.Busy key ∧
      (r.1 = del cache key ∨ ∃ v, r.1 = set cache now idempotencyTtlMs key v) := by
  cases h with
  | marked hphase => exact .inr ⟨_, by rw [hphase]; rfl, .inr ⟨_, rfl⟩⟩
  | stored hphase => exact .inr ⟨_, by rw [hphase]; rfl, .inr ⟨_, rfl⟩⟩
  | cleared hphase => exact .inr ⟨_, by rw [hphase]; rfl, .inl rfl⟩
  | _ => exact .inl rfl

theorem Effect.request {now : ℕ} {move : Move B} {r : ResponseCache B × Progress B}
    (h : Effect tokens cache p now move r) : r.2.request = p.request := by
  cases h <;> rfl

theorem Effect.looking {now : ℕ} {move : Move B} {r : ResponseCache B × Progress B} {key : String}
    (h : Effect tokens cache p now move r) (hlooking : r.2.phase = .looking key) :
    p.phase = .looking key ∨ cacheKey tokens p.request = .ok key := by
  cases h with
  | skips => exact .inl hlooking
  | admitted hphase hkey =>
    cases hlooking
    exact .inr hkey
  | _ => cases hlooking

/-- A request that has settled stays as it is. -/
theorem Effect.settled {now : ℕ} {move : Move B} {r : ResponseCache B × Progress B} {key : String}
    {response : CachedResponse B} (h : Effect tokens cache p now move r)
    (hsettled : p.phase = .settled key response) : r.2.phase = .settled key response := by
  cases h with
  | skips => exact hsettled
  | rejected hphase => cases hphase.symm.trans hsettled
  | admitted hphase => cases hphase.symm.trans hsettled
  | conflicted hphase => cases hphase.symm.trans hsettled
  | replayed hphase => cases hphase.symm.trans hsettled
  | missed hphase => cases hphase.symm.trans hsettled
  | marked hphase => cases hphase.symm.trans hsettled
  | entered hphase => cases hphase.symm.trans hsettled
  | responded _ _ hphase => cases hphase.symm.trans hsettled
  | stored hphase => cases hphase.symm.trans hsettled
  | cleared hphase => cases hphase.symm.trans hsettled

/-- A response that is stored after a step was stored before it, or is the one with which the
request has settled. -/
theorem Effect.stored_response {now : ℕ} {move : Move B} {r : ResponseCache B × Progress B}
    {key : String} {e : Entry (Stored B)} {response : CachedResponse B}
    (h : Effect tokens cache p now move r) (he : r.1 key = some e)
    (hvalue : e.value = .response response) :
    cache key = some e ∨ r.2.phase = .settled key response ∧ response.ok := by
  cases h with
  | marked =>
    rcases set_eq_some he with ⟨_, hmark⟩ | hbefore
    · cases hmark.symm.trans hvalue
    · exact .inl hbefore
  | stored _ hok =>
    rcases set_eq_some he with ⟨rfl, hresponse⟩ | hbefore
    · obtain rfl := Stored.response.inj (hresponse.symm.trans hvalue)
      exact .inr ⟨rfl, hok⟩
    · exact .inl hbefore
  | cleared => exact .inl (del_eq_some he)
  | _ => exact .inl he

/-- What the middleware answers by itself. -/
theorem Effect.answered {now : ℕ} {move : Move B} {r : ResponseCache B × Progress B}
    {reply : Reply B} (h : Effect tokens cache p now move r)
    (hanswered : r.2.phase = .answered reply) :
    p.phase = .answered reply ∨ (∃ e, cacheKey tokens p.request = .error e) ∨
      ∃ key, p.phase = .looking key ∧ (reply = conflictReply ∨
        ∃ response, get cache now key = some (.response response) ∧ reply = .replayed response) := by
  cases h with
  | skips => exact .inl hanswered
  | rejected hphase hkey => exact .inr (.inl ⟨_, hkey⟩)
  | conflicted hphase hget =>
    cases hanswered
    exact .inr (.inr ⟨_, hphase, .inl rfl⟩)
  | replayed hphase hget =>
    cases hanswered
    exact .inr (.inr ⟨_, hphase, .inr ⟨_, hget, rfl⟩⟩)
  | _ => cases hanswered

/-- Requests that read the cache alone do not disturb each other. -/
theorem undisturbed (t₀ : ℕ) : Undisturbed (@act B tokens)
    (fun cache => Lasting cache (t₀+idempotencyTtlMs)) (Warranted t₀) Exclusive
    (fun _ _ a => WithinTtl t₀ a)
    (fun p q a => a.move = .get → ∀ key ∈ p.phase.lookingKey, q.phase ≠ .marking key) where
  symm p q h key hq hp := h key hp hq
  shared cache p a hlasting _ hwithin := by
    have hle : t₀+idempotencyTtlMs ≤ a.now+idempotencyTtlMs := Nat.add_le_add_right hwithin.1 _
    rcases (act_effect tokens cache p a).writes with h | ⟨key, _, h | ⟨v, h⟩⟩
    · rwa [h]
    · rw [h]
      exact hlasting.del
    · rw [h]
      exact hlasting.set hle
  own cache p a hlasting hp hwithin := by
    obtain ⟨now, move⟩ := a
    obtain ⟨hlo, hhi⟩ := hwithin
    have heffect := act_effect tokens cache p ⟨now, move⟩
    generalize act tokens cache p ⟨now, move⟩ = r at heffect ⊢
    cases heffect with
    | skips => exact hp
    | rejected => exact warranted_of_expects_none rfl
    | admitted => exact warranted_of_expects_none rfl
    | conflicted => exact warranted_of_expects_none rfl
    | replayed => exact warranted_of_expects_none rfl
    | missed hphase hget =>
      intro key found hfound
      obtain ⟨rfl, rfl⟩ := Prod.mk.inj (Option.some.inj hfound)
      exact hlasting.throughout hhi hget
    | marked hphase =>
      intro key found hfound
      obtain ⟨rfl, rfl⟩ := Prod.mk.inj (Option.some.inj hfound)
      exact throughout_set_self hlo
    | entered hphase => exact hp.of_phase (by rw [hphase]; rfl)
    | responded _ _ hphase => exact hp.of_phase (by rw [hphase]; rfl)
    | stored hphase hok => exact warranted_settled hok (throughout_set_self hlo)
    | cleared hphase hfailed => exact warranted_of_expects_none (if_neg hfailed)
  other cache p q a _ hp hq hexclusive _ := by
    intro k found hfound
    have hkept := hq k found hfound
    rcases (act_effect tokens cache p a).writes with h | ⟨key, hbusy, h⟩
    · rwa [h]
    · -- the other request expects nothing under the key that is written
      have hne := expects_ne_of_busy hp hq hexclusive hbusy hfound
      rcases h with h | ⟨v, h⟩
      · rw [h]
        exact hkept.del_of_ne hne
      · rw [h]
        exact hkept.set_of_ne hne
  apart cache p q a _ hq hexclusive hwithin halone := by
    intro key hbusy hqbusy
    rcases (act_effect tokens cache p a).busy hbusy with hp' | ⟨hmove, hphase, hget⟩
    · exact hexclusive key hp' hqbusy
    · -- nothing was found, so that the other one has not set its mark
      rcases expects_of_busy hqbusy with ⟨_, hmarking⟩ | hmark
      · exact halone hmove key (by rw [hphase]; rfl) hmarking
      · cases (hq key _ hmark a.now hwithin.1 hwithin.2).symm.trans hget

/-- What holds throughout a run of requests that read the cache alone. -/
abbrev Separate (t₀ : ℕ) (g : Requests I B) : Prop :=
  Holds (fun cache => Lasting cache (t₀+idempotencyTtlMs)) (Warranted t₀) Exclusive g

theorem separate_start (t₀ : ℕ) (requests : I → Request B) : Separate t₀ (start requests) := by
  refine ⟨lasting_empty, fun i => ?_, fun i j _ key hbusy => ?_⟩
  · intro key found hfound
    cases hfound
  · exact hbusy.elim

theorem Separate.entersOnce {t₀ : ℕ} {g : Requests I B} {move : I × Action B}
    (h : Separate t₀ g) : EntersOnce g move := by
  intro _ key hkey j hj hlive
  have hphase := mem_markedKey hkey
  have hbusy : (g.locals move.1).phase.Busy key := by
    rw [hphase]
    rfl
  have hexclusive := h.apart move.1 j hj.symm key hbusy
  cases hother : (g.locals j).phase with
  | handling k =>
    rw [hother] at hlive hexclusive
    exact hexclusive hlive
  | responded k response =>
    rw [hother] at hlive hexclusive
    exact hexclusive hlive.1
  | settled k response =>
    -- the cache would hold the mark and the response of the other
    rw [hother] at hlive
    obtain ⟨rfl, hok⟩ := hlive
    have hmark := h.own move.1 k (some .inFlight) (by rw [hphase]; rfl)
    have hstored := h.own j k (some (.response response)) (by rw [hother]; exact if_pos hok)
    cases hmark.unique hstored (ttl_pos t₀)
  | _ =>
    rw [hother] at hlive
    exact hlive

/-- Where what the middleware gives out comes from: the key that a request looks under is its own,
and a stored response is one that the handler gave to a request with that key. -/
structure Traced (tokens : Tokens) (g : Requests I B) : Prop where
  keyed : ∀ i key, (g.locals i).phase = .looking key →
    cacheKey tokens (g.locals i).request = .ok key
  stored : ∀ key e response, g.shared key = some e → e.value = .response response →
    ∃ j, (g.locals j).phase = .settled key response ∧ response.ok
  served : Served tokens g

variable [DecidableEq I] {g : Requests I B} {move : I × Action B}

theorem request_step (i : I) :
    ((step (act tokens) g move).locals i).request = (g.locals i).request := by
  have hmoved := (act_effect tokens g.shared (g.locals move.1) move.2).request
  exact step_locals_related (T := fun p q : Progress B => q.request = p.request) (fun _ => rfl)
    hmoved i

theorem settled_step {i : I} {key : String} {response : CachedResponse B}
    (h : (g.locals i).phase = .settled key response) :
    ((step (act tokens) g move).locals i).phase = .settled key response := by
  have hmoved (hbefore : (g.locals move.1).phase = .settled key response) :=
    (act_effect tokens g.shared (g.locals move.1) move.2).settled hbefore
  exact step_locals_related (T := fun p q : Progress B => p.phase = .settled key response →
    q.phase = .settled key response) (fun _ hp => hp) hmoved i h

/-- A request that looks under a key did so before, or has just taken the key from its headers. -/
theorem looking_step {i : I} {key : String}
    (hkeyed : (g.locals i).phase = .looking key → cacheKey tokens (g.locals i).request = .ok key)
    (hlooking : ((step (act tokens) g move).locals i).phase = .looking key) :
    cacheKey tokens (g.locals i).request = .ok key := by
  by_cases hi : i = move.1
  · subst hi
    rw [step_locals_self] at hlooking
    have heffect := act_effect tokens g.shared (g.locals move.1) move.2
    rcases heffect.looking hlooking with hbefore | hkey
    · exact hkeyed hbefore
    · exact hkey
  · rw [step_locals_of_ne hi] at hlooking
    exact hkeyed hlooking

/-- Where a stored response comes from: the request that got it from the handler has settled. -/
theorem Traced.stored_step (h : Traced tokens g) {key : String} {e : Entry (Stored B)}
    {response : CachedResponse B} (he : (step (act tokens) g move).shared key = some e)
    (hvalue : e.value = .response response) :
    ∃ j, ((step (act tokens) g move).locals j).phase = .settled key response ∧ response.ok := by
  have heffect := act_effect tokens g.shared (g.locals move.1) move.2
  rcases heffect.stored_response he hvalue with hbefore | ⟨hsettled, hok⟩
  · obtain ⟨j, hj, hok⟩ := h.stored key e response hbefore hvalue
    exact ⟨j, settled_step hj, hok⟩
  · refine ⟨move.1, ?_, hok⟩
    rw [step_locals_self]
    exact hsettled

/-- An answer that was accounted for is so after any step. -/
theorem Traced.served_before (h : Traced tokens g) {i : I} {key : String} {reply : Reply B}
    (hkey : cacheKey tokens (g.locals i).request = .ok key)
    (hanswered : (g.locals i).phase = .answered reply) :
    reply = conflictReply ∨ ∃ j response,
      ((step (act tokens) g move).locals j).phase = .settled key response ∧
        response.ok ∧ reply = .replayed response := by
  rcases h.served i key reply hkey hanswered with hconflict | ⟨j, response, hj, hok, hreply⟩
  · exact .inl hconflict
  · exact .inr ⟨j, response, settled_step hj, hok, hreply⟩

theorem Traced.served_step (h : Traced tokens g) : Served tokens (step (act tokens) g move) := by
  intro i key reply hkey hanswered
  rw [request_step] at hkey
  by_cases hi : i = move.1
  · subst hi
    rw [step_locals_self] at hanswered
    have heffect := act_effect tokens g.shared (g.locals move.1) move.2
    rcases heffect.answered hanswered with hbefore | ⟨e, hrejected⟩ | ⟨k, hlooking, hreply⟩
    · exact h.served_before hkey hbefore
    · cases hrejected.symm.trans hkey
    · rcases hreply with hconflict | ⟨response, hget, hreply⟩
      · exact .inl hconflict
      -- the response was stored under the key of this request
      · obtain rfl := Except.ok.inj ((h.keyed move.1 k hlooking).symm.trans hkey)
        obtain ⟨e, he, hvalue⟩ := get_eq_some hget
        obtain ⟨j, hj, hok⟩ := h.stored k e response he hvalue
        exact .inr ⟨j, response, settled_step hj, hok, hreply⟩
  · rw [step_locals_of_ne hi] at hanswered
    exact h.served_before hkey hanswered

theorem Traced.step (h : Traced tokens g) (move : I × Action B) :
    Traced tokens (step (act tokens) g move) where
  keyed i key hlooking := by
    rw [request_step]
    exact looking_step (h.keyed i key) hlooking
  stored _ _ _ he hvalue := h.stored_step he hvalue
  served := h.served_step

omit [DecidableEq I] in
theorem traced_start (tokens : Tokens) (requests : I → Request B) :
    Traced tokens (start requests) := by
  refine ⟨fun i key h => ?_, fun key e response h => ?_, fun i key reply _ h => ?_⟩
  · cases h
  · cases h
  · cases h

/-- Within the time that cache entries live, and when no request reads the cache while another
with its key is about to set its mark, the handler is entered once for a key, but for entries
after all earlier ones have failed; and every other request gets the conflict or a replay. -/
theorem enters_once_run (tokens : Tokens) (requests : I → Request B) (t₀ : ℕ)
    (moves : List (I × Action B)) (hwithin : ∀ move ∈ moves, WithinTtl t₀ move.2)
    (halone : Guarded (step (act tokens)) ReadsAlone (start requests) moves) :
    Guarded (step (act tokens)) EntersOnce (start requests) moves ∧
      Always (step (act tokens)) (Served tokens) (start requests) moves := by
  have hallowed : Guarded (step (act tokens)) (Allowed (fun _ _ a => WithinTtl t₀ a) fun p q a =>
      a.move = .get → ∀ key ∈ p.phase.lookingKey, q.phase ≠ .marking key)
      (start requests) moves := by
    have htimes := guarded_of_forall_mem (step (act tokens)) (s := start requests) hwithin
    have hboth := guarded_and _ htimes halone
    refine guarded_of_invariant _ (J := fun _ => True) (fun _ _ _ => trivial) ?_ trivial hboth
    intro g move _ h
    exact ⟨h.1, fun j hj hmove key hkey => h.2 hmove key hkey j hj⟩
  constructor
  · exact guarded_of_guarded _ (fun g move hg ha => (undisturbed t₀).step hg ha)
      (fun g move hg _ => Separate.entersOnce hg) (separate_start t₀ requests) hallowed hallowed
  · exact always_of_invariant _ (J := Traced tokens) (fun _ move h => h.step move)
      (fun _ h => h.served) (traced_start tokens requests) moves

/-- Tokens that are their subjects. -/
def plainTokens : Tokens := ⟨fun token _ => some (some token), some "secret", none⟩

/-- Bookings by one user under one key. -/
def bookings (n : ℕ) : Fin n → Request String := fun _ =>
  ⟨"POST", "/v1/bookings", some "key-1", some "Bearer alice", "desk"⟩

/-- The second and the third request come while the handler is at work on the first, and the fourth
when the first has been answered. -/
def crossedBookings : List (Fin 4 × Action String) :=
  [(0, ⟨0, .check⟩), (1, ⟨0, .check⟩), (0, ⟨1, .get⟩), (0, ⟨2, .mark⟩), (2, ⟨2, .check⟩),
   (0, ⟨3, .next⟩), (1, ⟨3, .get⟩), (2, ⟨3, .get⟩), (0, ⟨4, .json 201 "b-1"⟩), (3, ⟨4, .check⟩),
   (0, ⟨5, .settle⟩), (3, ⟨6, .get⟩)]

theorem enters_once_crossed :
    ((run (step (act plainTokens)) (start (bookings 4)) crossedBookings).locals 1).phase =
        .answered conflictReply ∧
      ((run (step (act plainTokens)) (start (bookings 4)) crossedBookings).locals 2).phase =
        .answered conflictReply ∧
      ((run (step (act plainTokens)) (start (bookings 4)) crossedBookings).locals 3).phase =
        .answered (.replayed ⟨201, "b-1"⟩) ∧
      Guarded (step (act plainTokens)) EntersOnce (start (bookings 4)) crossedBookings ∧
      Always (step (act plainTokens)) (Served plainTokens) (start (bookings 4)) crossedBookings :=
  ⟨by decide, by decide, by decide,
    enters_once_run plainTokens (bookings 4) 0 crossedBookings (by decide) (by decide)⟩

/-- Both requests read the cache before either has set its mark, and both enter the handler. -/
theorem entered_twice :
    ¬Guarded (step (act plainTokens)) EntersOnce (start (bookings 2))
      [(0, ⟨0, .check⟩), (1, ⟨0, .check⟩), (0, ⟨1, .get⟩), (1, ⟨1, .get⟩), (0, ⟨2, .mark⟩),
       (1, ⟨2, .mark⟩), (0, ⟨3, .next⟩), (1, ⟨3, .next⟩)] := by
  decide

end HubAssist.Idempotency
