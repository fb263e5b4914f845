import Mathlib.Data.List.Basic
import Mathlib.Data.List.Induction
import Mathlib.Tactic.Common

/-! Hash chains over arbitrary entries and digests. `link` makes the next digest from the one
before it and an entry, and `prev` is the digest that an entry says it follows. -/
namespace HubAssist.HashChain

variable {E D V : Type*} (prev : E → D) (link : D → E → D)

/-- The digest at the end of a list of entries. -/
def digest (d : D) (es : List E) : D := es.foldl link d

/-- Every entry follows the digest of the entries before it, from `d` on. -/
def Linked : D → List E → Prop
  | _, [] => True
  | d, e :: es => prev e = d ∧ Linked (link d e) es

@[simp] theorem digest_nil (d : D) : digest link d [] = d := rfl

@[simp] theorem digest_cons (d : D) (e : E) (es : List E) :
    digest link d (e :: es) = digest link (link d e) es := rfl

theorem digest_concat (d : D) (es : List E) (e : E) :
    digest link d (es ++ [e]) = link (digest link d es) e := List.foldl_concat ..

theorem linked_append (d : D) (es fs : List E) : Linked prev link d (es ++ fs) ↔
    Linked prev link d es ∧ Linked prev link (digest link d es) fs := by
  induction es generalizing d with
  | nil => simp [Linked]
  | cons e es ih => simp only [List.cons_append, Linked, ih, digest_cons, and_assoc]

theorem linked_concat (d : D) (es : List E) (e : E) : Linked prev link d (es ++ [e]) ↔
    Linked prev link d es ∧ prev e = digest link d es := by
  rw [linked_append]
  simp [Linked]

variable {prev link}

/-- A check that starts in the middle of a chain goes through exactly when it starts with the
digest that the chain has there. -/
theorem Linked.restart {d d' : D} {pre post : List E} {e : E}
    (h : Linked prev link d (pre ++ e :: post)) :
    Linked prev link d' (e :: post) ↔ digest link d pre = d' := by
  obtain ⟨_, hprev, hpost⟩ := (linked_append prev link d pre (e :: post)).mp h
  constructor
  · intro hrestart
    exact hprev.symm.trans hrestart.1
  · rintro rfl
    exact ⟨hprev, hpost⟩

/-- A check that starts with what the entry before carries, and not with its digest, goes through
only where the two are the same. -/
theorem Linked.restart_early {d : D} {pre post : List E} {e e' : E}
    (h : Linked prev link d (pre ++ e :: e' :: post)) :
    Linked prev link (prev e) (e' :: post) ↔ link (prev e) e = prev e := by
  have hsplit : pre ++ e :: e' :: post = (pre ++ [e]) ++ e' :: post := by simp
  have hprev : prev e = digest link d pre := ((linked_append prev link d pre _).mp h).2.1
  rw [hsplit] at h
  rw [h.restart, digest_concat, ← hprev]

/-- Where two chains of one length end in one digest, all that goes into the digests is the same in
both, so far as `link` can be taken apart. -/
theorem seen_eq_of_digest_eq {Q : E → Prop} {seen : E → V}
    (hlink : ∀ d d' e e', Q e → Q e' → link d e = link d' e' → d = d' ∧ seen e = seen e') {d : D}
    {es fs : List E} (hes : Linked prev link d es) (hfs : Linked prev link d fs)
    (hq : ∀ e ∈ es, Q e) (hr : ∀ f ∈ fs, Q f) (hlength : es.length = fs.length)
    (hdigest : digest link d es = digest link d fs) :
    es.map (fun e => (prev e, seen e)) = fs.map (fun e => (prev e, seen e)) := by
  -- from the end, where the digests are known to be the same
  induction es using List.reverseRecOn generalizing fs with
  | nil =>
    have hnil : fs = [] := List.length_eq_zero_iff.mp hlength.symm
    rw [hnil]
  | append_singleton es e ih =>
    cases fs using List.reverseRecOn with
    | nil => simp at hlength
    | append_singleton fs f =>
      obtain ⟨hes, hprev⟩ := (linked_concat prev link d es e).mp hes
      obtain ⟨hfs, hprev'⟩ := (linked_concat prev link d fs f).mp hfs
      rw [digest_concat, digest_concat] at hdigest
      obtain ⟨hd, hseen⟩ := hlink _ _ e f (hq e (by simp)) (hr f (by simp)) hdigest
      have hlength' : es.length = fs.length := by simpa using hlength
      have hbefore := ih hes hfs (fun e he => hq e (by simp [he])) (fun f hf => hr f (by simp [hf]))
        hlength' hd
      have hlast : prev e = prev f := by rw [hprev, hprev', hd]
      rw [List.map_append, List.map_append, hbefore]
      simp [hlast, hseen]

end HubAssist.HashChain
