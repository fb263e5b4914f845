import HubAssist.IdempotencyOnce

/-! Where a replayed response comes from, in any interleaving of the requests of any users to any
of the routes that the middleware guards. -/
namespace HubAssist.Idempotency
open Checks TtlCache RunSystem Interleaving

variable {I B : Type*} {tokens : Tokens} {cache : ResponseCache B} {p q : Progress B}

/-- The cache key that a request has been given. -/
def Phase.key : Phase B → Option String
  | .looking key | .marking key | .marked key | .handling key => some key
  | .responded key _ | .settled key _ => some key
  | .arrived | .answered _ => none

/-- What the handler has answered. -/
def Phase.given : Phase B → Option (CachedResponse B)
  | .responded _ response | .settled _ response => some response
  | _ => none

theorem Effect.key {now : ℕ} {move : Move B} {r : ResponseCache B × Progress B} {key : String}
    (h : Effect tokens cache p now move r) (hkey : r.2.phase.key = some key) :
    p.phase.key = some key ∨ cacheKey tokens p.request = .ok key := by
  cases h with
  | skips => exact .inl hkey
  | rejected => cases hkey
  | admitted _ hadmitted =>
    obtain rfl := Option.some.inj hkey
    exact .inr hadmitted
  | conflicted => cases hkey
  | replayed => cases hkey
  | missed hphase => exact .inl (by rw [hphase]; exact hkey)
  | marked hphase => exact .inl (by rw [hphase]; exact hkey)
  | entered hphase => exact .inl (by rw [hphase]; exact hkey)
  | responded _ _ hphase => exact .inl (by rw [hphase]; exact hkey)
  | stored hphase => exact .inl (by rw [hphase]; exact hkey)
  | cleared hphase => exact .inl (by rw [hphase]; exact hkey)

theorem Effect.given {now : ℕ} {move : Move B} {r : ResponseCache B × Progress B}
    {response : CachedResponse B} (h : Effect tokens cache p now move r)
    (hgiven : r.2.phase.given = some response) :
    p.phase.given = some response ∨
      move = .json response.statusCode response.body ∧ ∃ key, p.phase = .handling key := by
  cases h with
  | skips => exact .inl hgiven
  | responded _ _ hphase =>
    obtain rfl := Option.some.inj hgiven
    exact .inr ⟨rfl, _, hphase⟩
  | stored hphase => exact .inl (by rw [hphase]; exact hgiven)
  | cleared hphase => exact .inl (by rw [hphase]; exact hgiven)
  | _ => cases hgiven

theorem Effect.replays {now : ℕ} {move : Move B} {r : ResponseCache B × Progress B}
    {response : CachedResponse B} (h : Effect tokens cache p now move r)
    (hreplayed : r.2.phase = .answered (.replayed response)) :
    p.phase = .answered (.replayed response) ∨
      ∃ key, p.phase = .looking key ∧ get cache now key = some (.response response) := by
  cases h with
  | skips => exact .inl hreplayed
  | replayed hphase hget =>
    cases hreplayed
    exact .inr ⟨_, hphase, hget⟩
  | _ => cases hreplayed

variable [DecidableEq I] (tokens : Tokens) (requests : I → Request B)

/-- The step replays the response to the request that takes it. -/
def Replays (response : CachedResponse B) (g : Requests I B) (move : I × Action B) : Prop :=
  (g.locals move.1).phase ≠ .answered (.replayed response) ∧
    ((step (act tokens) g move).locals move.1).phase = .answered (.replayed response)

/-- In this step the handler answers the request `j` with the response. -/
def Handles (j : I) (response : CachedResponse B) (g : Requests I B) (move : I × Action B) : Prop :=
  move.1 = j ∧ move.2.move = .json response.statusCode response.body ∧
    ∃ key, (g.locals j).phase = .handling key

/-- A response that is replayed is one that the handler has given before, to a request that is
related to the one that gets it. -/
def SoundReplay (Related : Request B → Request B → Prop) (moves : List (I × Action B)) : Prop :=
  ∀ pre move post response, moves = pre ++ move :: post →
    Replays tokens response (run (step (act tokens)) (start requests) pre) move →
    ∃ j, Occurred (step (act tokens)) (Handles j response) (start requests) pre ∧
      Related (requests j) (requests move.1)

/-- The requests come from one user, with one idempotency key. -/
def SameScope (p q : Request B) : Prop :=
  extractUserIdFromToken tokens p = extractUserIdFromToken tokens q ∧
    p.idempotencyKey = q.idempotencyKey

def SameRoute (p q : Request B) : Prop := p.method = q.method ∧ p.path = q.path

/-- Every subject is the id of a user, and has no colon. -/
def PlainSubjects : Prop :=
  ∀ token secret sub, tokens.verify token secret = some (some sub) → ':' ∉ sub.toList

/-- What is known of the requests after the moves: their keys are their own, and what they have
been given the handler has given them. -/
structure Accounted (g : Requests I B) (moves : List (I × Action B)) : Prop where
  request : ∀ i, (g.locals i).request = requests i
  keyed : ∀ i key, (g.locals i).phase.key = some key → cacheKey tokens (requests i) = .ok key
  given : ∀ i response, (g.locals i).phase.given = some response →
    Occurred (step (act tokens)) (Handles i response) (start requests) moves

variable {tokens requests}

theorem Accounted.step {moves : List (I × Action B)} (move : I × Action B)
    (h : Accounted tokens requests (run (step (act tokens)) (start requests) moves) moves) :
    Accounted tokens requests
      (step (act tokens) (run (step (act tokens)) (start requests) moves) move)
      (moves ++ [move]) := by
  generalize hg : run (Interleaving.step (act tokens)) (start requests) moves = g at h ⊢
  have heffect := act_effect tokens g.shared (g.locals move.1) move.2
  refine ⟨fun i => (request_step i).trans (h.request i), fun i key hkey => ?_,
    fun i response hgiven => ?_⟩
  · by_cases hi : i = move.1
    · subst hi
      rw [step_locals_self] at hkey
      rcases heffect.key hkey with hbefore | hadmitted
      · exact h.keyed _ _ hbefore
      · rwa [h.request] at hadmitted
    · rw [step_locals_of_ne hi] at hkey
      exact h.keyed i key hkey
  · by_cases hi : i = move.1
    · subst hi
      rw [step_locals_self] at hgiven
      rcases heffect.given hgiven with hbefore | ⟨hjson, hhandling⟩
      · exact (h.given _ _ hbefore).append _ [move]
      · -- the handler gives it in this step
        apply occurred_last
        rw [hg]
        exact ⟨rfl, hjson, hhandling⟩
    · rw [step_locals_of_ne hi] at hgiven
      exact (h.given i response hgiven).append _ [move]

theorem accounted_run (tokens : Tokens) (requests : I → Request B) (moves : List (I × Action B)) :
    Accounted tokens requests (run (step (act tokens)) (start requests) moves) moves := by
  refine history_invariant _ (I := Accounted tokens requests) ?_ (fun _ move h => h.step move) moves
  refine ⟨fun i => rfl, fun i key h => ?_, fun i response h => ?_⟩
  · cases h
  · cases h

theorem traced_run (tokens : Tokens) (requests : I → Request B) (moves : List (I × Action B)) :
    Traced tokens (run (step (act tokens)) (start requests) moves) :=
  run_invariant_all _ (I := Traced tokens) (fun _ move h => h.step move)
    (traced_start tokens requests) moves

/-- A replayed response was given by the handler to a request with the same cache key. -/
theorem replayed_under_key (tokens : Tokens) (requests : I → Request B)
    (moves : List (I × Action B)) : SoundReplay tokens requests (fun p q => ∃ key,
      cacheKey tokens p = .ok key ∧ cacheKey tokens q = .ok key) moves := by
  intro pre move post response _ hreplays
  have hbefore := accounted_run tokens requests pre
  have htraced := traced_run tokens requests pre
  generalize run (step (act tokens)) (start requests) pre = g at hbefore htraced hreplays
  obtain ⟨hnot, hreplayed⟩ := hreplays
  rw [step_locals_self] at hreplayed
  rcases (act_effect tokens g.shared _ move.2).replays hreplayed with h | ⟨key, hlooking, hget⟩
  · exact absurd h hnot
  -- what is stored under the key was given to a request that has settled
  obtain ⟨e, he, hvalue⟩ := get_eq_some hget
  obtain ⟨j, hsettled, _⟩ := htraced.stored key e response he hvalue
  refine ⟨j, hbefore.given j response (by rw [hsettled]; rfl), key, ?_, ?_⟩
  · exact hbefore.keyed j key (by rw [hsettled]; rfl)
  · exact hbefore.keyed move.1 key (by rw [hlooking]; rfl)

theorem SoundReplay.mono {Related Related' : Request B → Request B → Prop}
    {moves : List (I × Action B)} (h : SoundReplay tokens requests Related moves)
    (himp : ∀ p q, Related p q → Related' p q) : SoundReplay tokens requests Related' moves := by
  intro pre move post response hsplit hreplays
  obtain ⟨j, hgiven, hrelated⟩ := h pre move post response hsplit hreplays
  exact ⟨j, hgiven, himp _ _ hrelated⟩

theorem cacheKey_eq_ok {req : Request B} {key : String} (h : cacheKey tokens req = .ok key) :
    ∃ userId rawKey, extractUserIdFromToken tokens req = some userId ∧
      req.idempotencyKey = some rawKey ∧ key = "idempotency:" ++ userId ++ ":" ++ rawKey := by
  simp only [cacheKey, bind_eq_ok, failIf_eq_ok, pure_eq_ok] at h
  obtain ⟨_, hraw, _, _, _, huser, hkey⟩ := h
  cases hid : extractUserIdFromToken tokens req with
  | none => simp [hid] at huser
  | some userId =>
    cases hheader : req.idempotencyKey with
    | none => simp [hheader] at hraw
    | some rawKey =>
      rw [hid, hheader] at hkey
      exact ⟨userId, rawKey, rfl, rfl, hkey.symm⟩

theorem mem_extractUserIdFromToken {req : Request B} {userId : String}
    (h : extractUserIdFromToken tokens req = some userId) :
    ∃ token secret, tokens.verify token secret = some (some userId) := by
  simp only [extractUserIdFromToken, Option.bind_eq_bind, Option.bind_eq_some_iff] at h
  obtain ⟨header, _, h⟩ := h
  split_ifs at h
  obtain ⟨secret, _, h⟩ := Option.bind_eq_some_iff.mp h
  split_ifs at h
  obtain ⟨sub, hverify, rfl⟩ := Option.bind_eq_some_iff.mp h
  exact ⟨_, secret, hverify⟩

/-- Two texts with a separator that neither has in front of it agree on both sides of it. -/
theorem eq_of_append_separator {α : Type*} {c : α} {xs xs' ys ys' : List α} (hxs : c ∉ xs)
    (hxs' : c ∉ xs') (h : xs ++ c :: ys = xs' ++ c :: ys') : xs = xs' ∧ ys = ys' := by
  induction xs generalizing xs' with
  | nil =>
    cases xs' with
    | nil => exact ⟨rfl, (List.cons.inj h).2⟩
    | cons x' xs' => exact absurd (by simp [(List.cons.inj h).1]) hxs'
  | cons x xs ih =>
    cases xs' with
    | nil => exact absurd (by simp [(List.cons.inj h).1]) hxs
    | cons x' xs' =>
      obtain ⟨hx, hrest⟩ := List.cons.inj h
      obtain ⟨hxs, hys⟩ := ih (fun hc => hxs (List.mem_cons_of_mem x hc))
        (fun hc => hxs' (List.mem_cons_of_mem x' hc)) hrest
      exact ⟨by rw [hx, hxs], hys⟩

/-- A cache key can be read back, as the user's part of it ends at its first colon. -/
theorem sameScope_of_cacheKey (hplain : PlainSubjects tokens) {p q : Request B} {key : String}
    (hp : cacheKey tokens p = .ok key) (hq : cacheKey tokens q = .ok key) :
    SameScope tokens p q := by
  obtain ⟨user, raw, huser, hraw, rfl⟩ := cacheKey_eq_ok hp
  obtain ⟨user', raw', huser', hraw', heq⟩ := cacheKey_eq_ok hq
  obtain ⟨token, secret, hverify⟩ := mem_extractUserIdFromToken huser
  obtain ⟨token', secret', hverify'⟩ := mem_extractUserIdFromToken huser'
  have hlists : user.toList ++ ':' :: raw.toList = user'.toList ++ ':' :: raw'.toList := by
    have htexts := congrArg String.toList heq
    simpa using htexts
  obtain ⟨hu, hr⟩ := eq_of_append_separator (hplain _ _ _ hverify) (hplain _ _ _ hverify') hlists
  have hsame : user = user' := String.toList_injective hu
  have hsame' : raw = raw' := String.toList_injective hr
  subst hsame hsame'
  exact ⟨huser.trans huser'.symm, hraw.trans hraw'.symm⟩

/-- Whatever the users, the keys and the routes are: a response that is replayed is one that the
handler of some route gave before, to the same user, for the same key. -/
theorem replay_sound (hplain : PlainSubjects tokens) (requests : I → Request B)
    (moves : List (I × Action B)) : SoundReplay tokens requests (SameScope tokens) moves := by
  apply (replayed_under_key tokens requests moves).mono
  rintro p q ⟨key, hp, hq⟩
  exact sameScope_of_cacheKey hplain hp hq

/-- The tokens of two users. -/
def issuedTokens : Tokens :=
  ⟨fun token _ => if token = "t-alice" then some (some "alice")
    else if token = "t-bob" then some (some "bob") else none, some "secret", none⟩

/-- One user books a desk and writes to the hub, with one key; another books with it as well. -/
def mixed : Fin 3 → Request String
  | 0 => ⟨"POST", "/v1/bookings", some "key-7", some "Bearer t-alice", "desk"⟩
  | 1 => ⟨"POST", "/v1/contact", some "key-7", some "Bearer t-alice", "question"⟩
  | 2 => ⟨"POST", "/v1/bookings", some "key-7", some "Bearer t-bob", "desk"⟩

/-- The booking is made before the other two requests look at the cache. -/
def bookedFirst : List (Fin 3 × Action String) :=
  [(0, ⟨0, .check⟩), (0, ⟨1, .get⟩), (0, ⟨2, .mark⟩), (0, ⟨3, .next⟩), (0, ⟨4, .json 201 "b-1"⟩),
   (0, ⟨5, .settle⟩), (2, ⟨6, .check⟩), (2, ⟨7, .get⟩), (1, ⟨8, .check⟩)]

/-- The other user's request goes on, and the message is answered with the response of a request
of its user with its key. -/
theorem replay_sound_mixed :
    ((run (step (act issuedTokens)) (start mixed) bookedFirst).locals 2).phase =
        .marking "idempotency:bob:key-7" ∧
      Replays issuedTokens ⟨201, "b-1"⟩
        (run (step (act issuedTokens)) (start mixed) bookedFirst) (1, ⟨9, .get⟩) ∧
      SoundReplay issuedTokens mixed (SameScope issuedTokens)
        (bookedFirst ++ [(1, ⟨9, .get⟩)]) := by
  refine ⟨by decide, ⟨by decide, by decide⟩, replay_sound ?_ mixed _⟩
  intro token secret sub h
  simp only [issuedTokens] at h
  split_ifs at h
  · obtain rfl := Option.some.inj (Option.some.inj h)
    decide
  · obtain rfl := Option.some.inj (Option.some.inj h)
    decide

/-- The message is answered with the booking, which is the response of another route. -/
theorem replayed_across_routes :
    ¬SoundReplay issuedTokens mixed (fun p q => SameScope issuedTokens p q ∧ SameRoute p q)
      (bookedFirst ++ [(1, ⟨9, .get⟩)]) := by
  intro h
  obtain ⟨j, ⟨pre, a, post, hsplit, hj, hjson, _⟩, _, hroute⟩ :=
    h bookedFirst (1, ⟨9, .get⟩) [] ⟨201, "b-1"⟩ rfl ⟨by decide, by decide⟩
  -- only the first request is answered by the handler with this response
  have honly : ∀ b ∈ bookedFirst, b.2.move = .json 201 "b-1" → b.1 = 0 := by decide
  have hzero : j = 0 := by
    rw [← hj]
    exact honly a (by simp [hsplit]) hjson
  subst hzero
  exact absurd hroute.2 (by decide)

end HubAssist.Idempotency
