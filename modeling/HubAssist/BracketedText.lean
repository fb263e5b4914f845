import Mathlib.Data.List.Basic
import Mathlib.Data.List.Infix
import Mathlib.Tactic.Common

/-! Pieces of a text between an opening and a closing symbol, and what is left when they are removed
in one pass, the leftmost first. The symbols are arbitrary. -/
namespace HubAssist.BracketedText

variable {α : Type*} [DecidableEq α] (opening closing : α)

/-- An opening symbol, others than the closing one, and the closing one. -/
def IsPiece (piece : List α) : Prop :=
  ∃ body, closing ∉ body ∧ piece = opening :: (body ++ [closing])

def ArePieces (pieces : List (List α)) : Prop := ∀ piece ∈ pieces, IsPiece opening closing piece

/-- What is left from inside of a piece, or from outside. An opening symbol that is never closed is
left as well. -/
def stripFrom (inside : Bool) : List α → List α
  | [] => []
  | a :: rest =>
    if inside then stripFrom (a ≠ closing) rest
    else if a = opening ∧ closing ∈ rest then stripFrom true rest
    else a :: stripFrom false rest

/-- The text without its pieces. -/
def strip (text : List α) : List α := stripFrom opening closing false text

/-- After a text, a piece is open that has begun in it. -/
def openAfter (inside : Bool) (text : List α) : Bool :=
  text.foldl (fun inside a => if inside then a ≠ closing else a = opening) inside

/-- No piece stands anywhere in the text. -/
def NoPiece (text : List α) : Prop := ∀ piece, IsPiece opening closing piece → ¬piece <:+: text

/-- A symbol of some kind stands behind pieces at the front. -/
def ComesToFront (P : α → Prop) (text : List α) : Prop :=
  ∃ pieces a rest, pieces ≠ [] ∧ ArePieces opening closing pieces ∧ P a ∧
    text = pieces.flatten ++ a :: rest

/-- A symbol of some kind stands in front of pieces at the end, and not inside of one. -/
def ComesToEnd (P : α → Prop) (text : List α) : Prop :=
  ∃ pre a pieces, pieces ≠ [] ∧ ArePieces opening closing pieces ∧ P a ∧
    openAfter opening closing false pre = false ∧ text = pre ++ a :: pieces.flatten

variable {opening closing} {text rest pre : List α} {inside : Bool} {a : α}

@[simp] theorem strip_nil : strip opening closing [] = [] := rfl

theorem strip_cons (h : ¬(a = opening ∧ closing ∈ rest)) :
    strip opening closing (a :: rest) = a :: strip opening closing rest := by
  rw [strip, stripFrom, if_neg Bool.false_ne_true, if_neg h]
  rfl

theorem mem_of_mem_stripFrom (h : a ∈ stripFrom opening closing inside text) : a ∈ text := by
  induction text generalizing inside with
  | nil => exact h
  | cons b rest ih =>
    rw [stripFrom] at h
    split_ifs at h
    · exact List.mem_cons_of_mem _ (ih h)
    · exact List.mem_cons_of_mem _ (ih h)
    · rcases List.mem_cons.mp h with rfl | hrest
      · exact List.mem_cons_self
      · exact List.mem_cons_of_mem _ (ih hrest)

theorem stripFrom_body {body : List α} (h : closing ∉ body) (rest : List α) :
    stripFrom opening closing true (body ++ closing :: rest) = strip opening closing rest := by
  induction body with
  | nil => simp [stripFrom, strip]
  | cons a body ih =>
    rw [List.mem_cons, not_or] at h
    obtain ⟨hne, hbody⟩ := h
    rw [List.cons_append, stripFrom, if_pos rfl, decide_eq_true (Ne.symm hne), ih hbody]

/-- A piece in front is removed. -/
theorem strip_piece {piece : List α} (h : IsPiece opening closing piece) (rest : List α) :
    strip opening closing (piece ++ rest) = strip opening closing rest := by
  obtain ⟨body, hbody, rfl⟩ := h
  have hsplit : opening :: (body ++ [closing]) ++ rest = opening :: (body ++ closing :: rest) := by
    simp
  have hcloses : opening = opening ∧ closing ∈ body ++ closing :: rest := ⟨rfl, by simp⟩
  rw [hsplit, strip, stripFrom, if_neg Bool.false_ne_true, if_pos hcloses, stripFrom_body hbody]

theorem strip_pieces {pieces : List (List α)} (h : ArePieces opening closing pieces)
    (rest : List α) :
    strip opening closing (pieces.flatten ++ rest) = strip opening closing rest := by
  induction pieces with
  | nil => rfl
  | cons piece pieces ih =>
    obtain ⟨hpiece, hpieces⟩ := List.forall_mem_cons.mp h
    rw [List.flatten_cons, List.append_assoc, strip_piece hpiece, ih hpieces]

/-- Without a closing symbol nothing is removed. -/
theorem strip_of_notMem (h : closing ∉ text) : strip opening closing text = text := by
  induction text with
  | nil => rfl
  | cons a rest ih =>
    have hrest : closing ∉ rest := fun hmem => h (List.mem_cons_of_mem _ hmem)
    rw [strip_cons fun hpiece => hrest hpiece.2, ih hrest]

omit [DecidableEq α] in
/-- An opening symbol that is closed later begins a piece. -/
theorem exists_piece (h : closing ∈ rest) :
    ∃ piece tail, IsPiece opening closing piece ∧ opening :: rest = piece ++ tail := by
  obtain ⟨body, tail, rfl, hbody⟩ := List.eq_append_cons_of_mem h
  exact ⟨opening :: (body ++ [closing]), tail, ⟨body, hbody, rfl⟩, by simp⟩

/-- A text without a piece is left as it is. -/
theorem NoPiece.strip_eq (h : NoPiece opening closing text) :
    strip opening closing text = text := by
  induction text with
  | nil => rfl
  | cons a rest ih =>
    have hrest : NoPiece opening closing rest := fun piece hpiece hin =>
      h piece hpiece (hin.trans (List.suffix_cons a rest).isInfix)
    have hnone : ¬(a = opening ∧ closing ∈ rest) := by
      rintro ⟨rfl, hmem⟩
      obtain ⟨piece, tail, hpiece, htext⟩ := exists_piece hmem
      rw [htext] at h
      exact h piece hpiece (List.prefix_append piece tail).isInfix
    rw [strip_cons hnone, ih hrest]

/-- What is left has its closing symbols before its opening ones. -/
theorem exists_stripFrom_eq (hne : opening ≠ closing) (inside : Bool) (text : List α) :
    ∃ xs ys, stripFrom opening closing inside text = xs ++ ys ∧ opening ∉ xs ∧ closing ∉ ys := by
  induction text generalizing inside with
  | nil => exact ⟨[], [], rfl, by simp, by simp⟩
  | cons a rest ih =>
    cases inside with
    | true =>
      rw [stripFrom, if_pos rfl]
      exact ih _
    | false =>
      rw [stripFrom, if_neg Bool.false_ne_true]
      split_ifs with hpiece
      · exact ih true
      · by_cases ha : a = opening
        · -- it is never closed, so that all the rest is left
          have hrest : closing ∉ rest := fun hmem => hpiece ⟨ha, hmem⟩
          have hleft : stripFrom opening closing false rest = rest := strip_of_notMem hrest
          refine ⟨[], a :: rest, by rw [hleft, List.nil_append], by simp, ?_⟩
          rw [List.mem_cons, not_or]
          exact ⟨fun h => hne (ha.symm.trans h.symm), hrest⟩
        · obtain ⟨xs, ys, heq, hxs, hys⟩ := ih false
          refine ⟨a :: xs, ys, by rw [heq, List.cons_append], ?_, hys⟩
          rw [List.mem_cons, not_or]
          exact ⟨Ne.symm ha, hxs⟩

/-- No piece is left, nor is one made by what comes together. -/
theorem noPiece_strip (hne : opening ≠ closing) (text : List α) :
    NoPiece opening closing (strip opening closing text) := by
  rintro piece ⟨body, _, rfl⟩ ⟨before, after, htext⟩
  obtain ⟨xs, ys, heq, hxs, hys⟩ := exists_stripFrom_eq hne false text
  rw [strip, heq, List.append_assoc] at htext
  rcases List.append_eq_append_iff.mp htext with ⟨middle, hxs', htail⟩ | ⟨middle, _, hys'⟩
  · -- the opening symbol is among the first part
    cases middle with
    | nil =>
      apply hys
      rw [List.nil_append] at htail
      rw [← htail]
      simp
    | cons b middle =>
      obtain rfl : b = opening := by
        simp only [List.cons_append, List.cons.injEq] at htail
        exact htail.1.symm
      exact hxs (by rw [hxs']; simp)
  · apply hys
    rw [hys']
    simp

omit [DecidableEq α] in
theorem arePieces_nil : ArePieces opening closing [] := fun _ h => absurd h List.not_mem_nil

/-- A text begins with pieces, behind which something is left, or the end. -/
theorem exists_pieces (opening closing : α) (text : List α) : ∃ pieces rest,
    ArePieces opening closing pieces ∧ text = pieces.flatten ++ rest ∧
      (rest = [] ∨ ∃ a tail, rest = a :: tail ∧ ¬(a = opening ∧ closing ∈ tail)) := by
  induction hlength : text.length using Nat.strong_induction_on generalizing text with
  | _ n ih =>
    cases text with
    | nil => exact ⟨[], [], arePieces_nil, rfl, .inl rfl⟩
    | cons a tail =>
      by_cases hpiece : a = opening ∧ closing ∈ tail
      · obtain ⟨rfl, hmem⟩ := hpiece
        obtain ⟨piece, after, hpiece, htext⟩ := exists_piece hmem
        have hshorter : after.length < n := by
          obtain ⟨body, _, rfl⟩ := hpiece
          rw [← hlength, htext]
          simp only [List.cons_append, List.length_cons, List.length_append]
          omega
        obtain ⟨pieces, rest, hpieces, rfl, hrest⟩ := ih _ hshorter after rfl
        refine ⟨piece :: pieces, rest, ?_, ?_, hrest⟩
        · exact List.forall_mem_cons.mpr ⟨hpiece, hpieces⟩
        · rw [htext, List.flatten_cons, List.append_assoc]
      · exact ⟨[], a :: tail, arePieces_nil, rfl, .inr ⟨a, tail, rfl, hpiece⟩⟩

/-- The first symbol that is left is of a kind that no text began with. -/
theorem head_strip_iff {P : α → Prop} (hopening : ¬P opening) (hfirst : ∀ a ∈ text.head?, ¬P a) :
    (∃ a ∈ (strip opening closing text).head?, P a) ↔ ComesToFront opening closing P text := by
  constructor
  · rintro ⟨a, hhead, ha⟩
    obtain ⟨pieces, rest, hpieces, rfl, hrest⟩ := exists_pieces opening closing text
    rw [strip_pieces hpieces] at hhead
    rcases hrest with rfl | ⟨b, tail, rfl, hnone⟩
    · cases hhead
    · rw [strip_cons hnone] at hhead
      obtain rfl := Option.some.inj hhead
      refine ⟨pieces, b, tail, ?_, hpieces, ha, rfl⟩
      rintro rfl
      exact hfirst b rfl ha
  · rintro ⟨pieces, a, rest, _, hpieces, ha, rfl⟩
    have hnone : ¬(a = opening ∧ closing ∈ rest) := fun h => hopening (h.1 ▸ ha)
    rw [strip_pieces hpieces, strip_cons hnone]
    exact ⟨a, rfl, ha⟩

theorem openAfter_cons_opening (rest : List α) :
    openAfter opening closing false (opening :: rest) = openAfter opening closing true rest := by
  rw [openAfter, List.foldl_cons, if_neg Bool.false_ne_true, decide_eq_true rfl]
  rfl

theorem openAfter_cons_of_ne (h : a ≠ opening) (rest : List α) :
    openAfter opening closing false (a :: rest) = openAfter opening closing false rest := by
  rw [openAfter, List.foldl_cons, if_neg Bool.false_ne_true, decide_eq_false h]
  rfl

/-- What is open after a text is closed in the rest of it. -/
theorem mem_of_openAfter (h : openAfter opening closing true text = false) : closing ∈ text := by
  induction text with
  | nil => cases h
  | cons a rest ih =>
    by_cases ha : a = closing
    · rw [ha]
      exact List.mem_cons_self
    · apply List.mem_cons_of_mem
      apply ih
      rw [openAfter, List.foldl_cons, if_pos rfl, decide_eq_true ha] at h
      exact h

/-- A text after which nothing is open is stripped by itself. -/
theorem stripFrom_append (h : openAfter opening closing inside pre = false) (rest : List α) :
    stripFrom opening closing inside (pre ++ rest) =
      stripFrom opening closing inside pre ++ strip opening closing rest := by
  induction pre generalizing inside with
  | nil =>
    obtain rfl : inside = false := h
    rfl
  | cons a pre ih =>
    rw [List.cons_append, stripFrom, stripFrom]
    cases inside with
    | true =>
      rw [openAfter, List.foldl_cons, if_pos rfl] at h
      rw [if_pos rfl, if_pos rfl]
      exact ih h
    | false =>
      rw [if_neg Bool.false_ne_true, if_neg Bool.false_ne_true]
      by_cases ha : a = opening
      · rw [ha, openAfter_cons_opening] at h
        have hmem : closing ∈ pre := mem_of_openAfter h
        rw [if_pos ⟨ha, List.mem_append_left _ hmem⟩, if_pos ⟨ha, hmem⟩]
        exact ih h
      · rw [openAfter_cons_of_ne ha] at h
        rw [if_neg fun hpiece => ha hpiece.1, if_neg fun hpiece => ha hpiece.1, ih h,
          List.cons_append]

/-- A text of which nothing is left is made of pieces. -/
theorem exists_pieces_of_strip_nil (h : strip opening closing text = []) :
    ∃ pieces, ArePieces opening closing pieces ∧ text = pieces.flatten := by
  obtain ⟨pieces, rest, hpieces, rfl, hrest⟩ := exists_pieces opening closing text
  rw [strip_pieces hpieces] at h
  rcases hrest with rfl | ⟨a, tail, rfl, hnone⟩
  · exact ⟨pieces, hpieces, List.append_nil _⟩
  · rw [strip_cons hnone] at h
    cases h

omit [DecidableEq α] in
theorem closing_mem_flatten {pieces : List (List α)} (h : ArePieces opening closing pieces)
    (hsome : pieces ≠ []) : closing ∈ pieces.flatten := by
  obtain ⟨piece, hmem⟩ := List.exists_mem_of_ne_nil pieces hsome
  obtain ⟨body, _, rfl⟩ := h piece hmem
  exact List.mem_flatten.mpr ⟨_, hmem, by simp⟩

/-- The last symbol that is left stands in front of pieces, or is the last of all. -/
theorem stripFrom_eq_concat {r : List α} {w : α}
    (h : stripFrom opening closing inside text = r ++ [w]) :
    (∃ pre pieces, ArePieces opening closing pieces ∧
      openAfter opening closing inside pre = false ∧ text = pre ++ w :: pieces.flatten) ∨
      ∃ pre, text = pre ++ [w] := by
  induction text generalizing inside r with
  | nil =>
    rw [stripFrom] at h
    exact absurd h.symm (by simp)
  | cons a rest ih =>
    rw [stripFrom] at h
    cases inside with
    | true =>
      rw [if_pos rfl] at h
      rcases ih h with ⟨pre, pieces, hpieces, hclosed, rfl⟩ | ⟨pre, rfl⟩
      · exact .inl ⟨a :: pre, pieces, hpieces, hclosed, rfl⟩
      · exact .inr ⟨a :: pre, rfl⟩
    | false =>
      rw [if_neg Bool.false_ne_true] at h
      by_cases hpiece : a = opening ∧ closing ∈ rest
      · rw [if_pos hpiece] at h
        rcases ih h with ⟨pre, pieces, hpieces, hclosed, rfl⟩ | ⟨pre, rfl⟩
        · refine .inl ⟨a :: pre, pieces, hpieces, ?_, rfl⟩
          rw [hpiece.1, openAfter_cons_opening]
          exact hclosed
        · exact .inr ⟨a :: pre, rfl⟩
      · rw [if_neg hpiece] at h
        cases r with
        | nil =>
          -- nothing else is left, so that only pieces follow
          obtain ⟨rfl, hnone⟩ := List.cons.inj h
          obtain ⟨pieces, hpieces, rfl⟩ := exists_pieces_of_strip_nil hnone
          exact .inl ⟨[], pieces, hpieces, rfl, rfl⟩
        | cons b r =>
          rcases ih (List.cons.inj h).2 with ⟨pre, pieces, hpieces, hclosed, rfl⟩ | ⟨pre, rfl⟩
          · by_cases ha : a = opening
            · -- it is never closed, so that there are no pieces behind it
              have hrest : pieces = [] := by
                by_contra hsome
                have hmem : closing ∈ pieces.flatten := closing_mem_flatten hpieces hsome
                apply hpiece
                exact ⟨ha, List.mem_append_right _ (List.mem_cons_of_mem _ hmem)⟩
              rw [hrest]
              exact .inr ⟨a :: pre, rfl⟩
            · refine .inl ⟨a :: pre, pieces, hpieces, ?_, rfl⟩
              rw [openAfter_cons_of_ne ha]
              exact hclosed
          · exact .inr ⟨a :: pre, rfl⟩

/-- The last symbol that is left is of a kind that no text ended with. -/
theorem last_strip_iff {P : α → Prop} (hopening : ¬P opening)
    (hlast : ∀ a ∈ text.getLast?, ¬P a) :
    (∃ a ∈ (strip opening closing text).getLast?, P a) ↔ ComesToEnd opening closing P text := by
  constructor
  · rintro ⟨a, hmem, ha⟩
    obtain ⟨r, hr⟩ := List.getLast?_eq_some_iff.mp hmem
    rcases stripFrom_eq_concat hr with ⟨pre, pieces, hpieces, hclosed, rfl⟩ | ⟨pre, rfl⟩
    · refine ⟨pre, a, pieces, ?_, hpieces, ha, hclosed, rfl⟩
      rintro rfl
      exact hlast a (by simp) ha
    · exact absurd ha (hlast a (by simp))
  · rintro ⟨pre, a, pieces, _, hpieces, ha, hclosed, rfl⟩
    have hnone : ¬(a = opening ∧ closing ∈ pieces.flatten) := fun h => hopening (h.1 ▸ ha)
    have hpieces' := strip_pieces hpieces []
    rw [List.append_nil, strip_nil] at hpieces'
    refine ⟨a, ?_, ha⟩
    rw [strip, stripFrom_append hclosed, strip_cons hnone, hpieces']
    simp

end HubAssist.BracketedText
