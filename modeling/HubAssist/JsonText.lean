import HubAssist.FixedDigits
import HubAssist.JsText

/-! JSON as `JSON.stringify` writes it for objects of strings and as `JSON.parse` reads it. The
texts are characters; the strings in them are those of JavaScript. -/
namespace HubAssist.JsonText
open JsText FixedDigits

/-- `String` values are code units, a number is kept as its literal, and the members of an object
stand in the order of the text. -/
inductive JsonTree where
  | null
  | bool (value : Bool)
  | number (literal : List Char)
  | string (value : JsString)
  | array (items : List JsonTree)
  | object (members : List (JsString × JsonTree))

/-- A property of an object, the last one of the name; other values have none of these names. -/
def JsonTree.get (tree : JsonTree) (name : JsString) : Option JsonTree :=
  match tree with
  | .object members => members.reverse.lookup name
  | _ => none

def quotePiece : Piece → List Char
  | .char c =>
    if c = '"' then ['\\', '"']
    else if c = '\\' then ['\\', '\\']
    else if c = '\x08' then ['\\', 'b']
    else if c = '\x0c' then ['\\', 'f']
    else if c = '\n' then ['\\', 'n']
    else if c = '\r' then ['\\', 'r']
    else if c = '\t' then ['\\', 't']
    else if c.toNat < 0x20 then '\\' :: 'u' :: writeDigits 16 4 c.toNat
    else [c]
  | .lone u => '\\' :: 'u' :: writeDigits 16 4 u.toNat

/-- A string between quotes, a lone surrogate as an escape. -/
def quote (s : JsString) : List Char := '"' :: (pieces s).flatMap quotePiece ++ ['"']

def stringifyMember (member : JsString × JsString) : List Char :=
  quote member.1 ++ ':' :: quote member.2

def stringifyMembers : List (JsString × JsString) → List Char
  | [] => []
  | [member] => stringifyMember member
  | member :: next :: rest => stringifyMember member ++ ',' :: stringifyMembers (next :: rest)

/-- `JSON.stringify` of an object whose members are strings. -/
def stringify (members : List (JsString × JsString)) : List Char :=
  '{' :: stringifyMembers members ++ ['}']

def skipSpace (cs : List Char) : List Char :=
  cs.dropWhile fun c => c = ' ' ∨ c = '\t' ∨ c = '\n' ∨ c = '\r'

def expect (c : Char) : List Char → Option (List Char)
  | d :: cs => if d = c then some cs else none
  | [] => none

def unescape (c : Char) : Option UInt16 :=
  if c = '"' then some 0x22
  else if c = '\\' then some 0x5c
  else if c = '/' then some 0x2f
  else if c = 'b' then some 8
  else if c = 'f' then some 0xc
  else if c = 'n' then some 0xa
  else if c = 'r' then some 0xd
  else if c = 't' then some 9
  else none

/-- What stands behind a backslash. -/
def readEscape : List Char → Option (UInt16 × List Char)
  | 'u' :: cs => (readDigits 16 4 0 cs).map fun (n, cs) => (.ofNat n, cs)
  | c :: cs => (unescape c).map fun u => (u, cs)
  | [] => none

/-- The characters of a string and the text behind its closing quote. -/
def readChars : ℕ → List Char → Option (JsString × List Char)
  | 0, _ => none
  | _+1, [] => none
  | n+1, c :: cs =>
    if c = '"' then some ([], cs)
    else if c = '\\' then
      match readEscape cs with
      | some (u, cs) => (readChars n cs).map fun (s, cs) => (u :: s, cs)
      | none => none
    else if c.toNat < 0x20 then none
    else (readChars n cs).map fun (s, cs) => (charUnits c ++ s, cs)

/-- A string with its quotes; each of its steps takes a character. -/
def readString (cs : List Char) : Option (JsString × List Char) :=
  match expect '"' cs with
  | some cs => readChars (cs.length+1) cs
  | none => none

def skipDigits : List Char → Option (List Char)
  | c :: cs => if c.isDigit then some (cs.dropWhile Char.isDigit) else none
  | [] => none

def skipInteger : List Char → Option (List Char)
  | '0' :: cs => some cs
  | cs => skipDigits cs

def skipFraction : List Char → Option (List Char)
  | '.' :: cs => skipDigits cs
  | cs => some cs

def skipSign : List Char → List Char
  | '+' :: cs => cs
  | '-' :: cs => cs
  | cs => cs

def skipExponent : List Char → Option (List Char)
  | 'e' :: cs => skipDigits (skipSign cs)
  | 'E' :: cs => skipDigits (skipSign cs)
  | cs => some cs

def readNumber (cs : List Char) : Option (JsonTree × List Char) := do
  let rest ← skipInteger (match cs with
    | '-' :: cs => cs
    | cs => cs)
  let rest ← skipFraction rest
  let rest ← skipExponent rest
  return (.number (cs.take (cs.length-rest.length)), rest)

def readWord (word : String) (tree : JsonTree) (cs : List Char) : Option (JsonTree × List Char) :=
  (cs.dropPrefix? word.toList).map fun cs => (tree, cs)

/- Every call takes a character before the next one, so the length of the text is fuel enough. -/
mutual

def readValue : ℕ → List Char → Option (JsonTree × List Char)
  | 0, _ => none
  | n+1, cs =>
    match skipSpace cs with
    | '{' :: cs =>
      match skipSpace cs with
      | '}' :: cs => some (.object [], cs)
      | cs => (readMembers n cs).map fun (members, cs) => (.object members, cs)
    | '[' :: cs =>
      match skipSpace cs with
      | ']' :: cs => some (.array [], cs)
      | cs => (readItems n cs).map fun (items, cs) => (.array items, cs)
    | '"' :: cs => (readString ('"' :: cs)).map fun (s, cs) => (.string s, cs)
    | 'n' :: cs => readWord "null" .null ('n' :: cs)
    | 't' :: cs => readWord "true" (.bool true) ('t' :: cs)
    | 'f' :: cs => readWord "false" (.bool false) ('f' :: cs)
    | cs => readNumber cs

def readItems : ℕ → List Char → Option (List JsonTree × List Char)
  | 0, _ => none
  | n+1, cs =>
    match readValue n cs with
    | some (item, cs) =>
      match skipSpace cs with
      | ',' :: cs => (readItems n cs).map fun (items, cs) => (item :: items, cs)
      | ']' :: cs => some ([item], cs)
      | _ => none
    | none => none

def readMembers : ℕ → List Char → Option (List (JsString × JsonTree) × List Char)
  | 0, _ => none
  | n+1, cs =>
    match readString (skipSpace cs) with
    | some (name, cs) =>
      match expect ':' (skipSpace cs) with
      | some cs =>
        match readValue n cs with
        | some (value, cs) =>
          match skipSpace cs with
          | ',' :: cs => (readMembers n cs).map fun (members, cs) => ((name, value) :: members, cs)
          | '}' :: cs => some ([(name, value)], cs)
          | _ => none
        | none => none
      | none => none
    | none => none

end

/-- `JSON.parse`. -/
def parse (cs : List Char) : Option JsonTree :=
  match readValue (cs.length+1) cs with
  | some (tree, cs) => if skipSpace cs = [] then some tree else none
  | none => none

theorem readEscape_unit {k : ℕ} (hk : k < 0x10000) (cs : List Char) :
    readEscape ('u' :: writeDigits 16 4 k ++ cs) = some (.ofNat k, cs) := by
  rw [List.cons_append, readEscape, readDigits_of_lt (by decide) (by decide) (by omega)]
  rfl

/-- A piece is read in one step. -/
theorem readChars_quotePiece (n : ℕ) (p : Piece) (cs : List Char) :
    readChars (n+1) (quotePiece p ++ cs) =
      (readChars n cs).map fun (s, cs) => (p.units ++ s, cs) := by
  -- all escapes are read alike: a backslash, and what it stands for
  have hescape {e : List Char} {u : UInt16} (h : readEscape (e ++ cs) = some (u, cs)) :
      readChars (n+1) ('\\' :: e ++ cs) =
        (readChars n cs).map fun (s, cs) => (u :: s, cs) := by
    rw [List.cons_append, readChars, if_neg (by decide), if_pos rfl, h]
  cases p with
  | lone u =>
    have hread := readEscape_unit u.toNat_lt cs
    rw [UInt16.ofNat_toNat] at hread
    exact hescape hread
  | char c =>
    simp only [quotePiece]
    split_ifs with hquote hslash hb hf hn hr ht hcontrol
    · subst hquote; exact hescape rfl
    · subst hslash; exact hescape rfl
    · subst hb; exact hescape rfl
    · subst hf; exact hescape rfl
    · subst hn; exact hescape rfl
    · subst hr; exact hescape rfl
    · subst ht; exact hescape rfl
    · have hunits : (Piece.char c).units = [.ofNat c.toNat] := by
        rw [Piece.units, charUnits, if_pos (by omega)]
      rw [hunits]
      exact hescape (readEscape_unit (by omega) cs)
    · rw [List.singleton_append, readChars, if_neg hquote, if_neg hslash, if_neg hcontrol]
      rfl

/-- What is written between the quotes is read up to the closing one. -/
theorem readChars_pieces {n : ℕ} {ps : List Piece} (h : ps.length < n) (rest : List Char) :
    readChars n (ps.flatMap quotePiece ++ '"' :: rest) = some (ps.flatMap Piece.units, rest) := by
  -- on the pieces; a step takes one of them and one of the fuel
  induction ps generalizing n with
  | nil =>
    obtain ⟨n, rfl⟩ := Nat.exists_eq_succ_of_ne_zero h.ne_bot
    rfl
  | cons p ps ih =>
    rw [List.length_cons] at h
    obtain ⟨n, rfl⟩ := Nat.exists_eq_succ_of_ne_zero (by omega : n ≠ 0)
    rw [List.flatMap_cons, List.append_assoc, readChars_quotePiece, ih (by omega)]
    rfl

theorem quotePiece_ne_nil (p : Piece) : 1 ≤ (quotePiece p).length := by
  unfold quotePiece
  split
  · split_ifs <;> simp
  · simp

/-- A string is read back from its quotes, whatever stands behind them. -/
theorem readString_quote (s : JsString) (rest : List Char) :
    readString (quote s ++ rest) = some (s, rest) := by
  have hlength : (pieces s).length ≤ ((pieces s).flatMap quotePiece).length := by
    induction pieces s with
    | nil => exact le_rfl
    | cons p ps ih =>
      have hp := quotePiece_ne_nil p
      rw [List.flatMap_cons, List.length_append, List.length_cons]
      omega
  have htext : quote s ++ rest = '"' :: ((pieces s).flatMap quotePiece ++ '"' :: rest) := by
    simp [quote]
  rw [htext, readString, expect, if_pos rfl]
  simp only []
  rw [readChars_pieces, units_pieces]
  rw [List.length_append]
  omega

/-- The members as they are read. -/
def asTrees (members : List (JsString × JsString)) : List (JsString × JsonTree) :=
  members.map fun (name, value) => (name, .string value)

theorem skipSpace_quote (s : JsString) (cs : List Char) :
    skipSpace (quote s ++ cs) = quote s ++ cs := rfl

theorem readValue_quote (n : ℕ) (s : JsString) (cs : List Char) :
    readValue (n+1) (quote s ++ cs) = some (.string s, cs) := by
  have hread := readString_quote s cs
  rw [quote, List.cons_append, List.cons_append] at hread ⊢
  have hspace (text : List Char) : skipSpace ('"' :: text) = '"' :: text := rfl
  rw [readValue, hspace]
  simp only [hread, Option.map_some]

/-- One member and its follower. -/
theorem readMembers_stringifyMember (n : ℕ) (member : JsString × JsString) (cs : List Char) :
    readMembers (n+2) (stringifyMember member ++ cs) =
      match skipSpace cs with
      | ',' :: cs => (readMembers (n+1) cs).map fun (members, cs) =>
          ((member.1, .string member.2) :: members, cs)
      | '}' :: cs => some ([(member.1, .string member.2)], cs)
      | _ => none := by
  have hcolon : skipSpace (':' :: (quote member.2 ++ cs)) = ':' :: (quote member.2 ++ cs) := rfl
  rw [stringifyMember, List.append_assoc, readMembers, skipSpace_quote, readString_quote]
  simp only [List.cons_append, hcolon, expect, if_true, readValue_quote]

/-- The members of an object of strings are read back, up to its closing brace. -/
theorem readMembers_stringify {n : ℕ} {members : List (JsString × JsString)} (hne : members ≠ [])
    (h : members.length ≤ n) (cs : List Char) :
    readMembers (n+1) (stringifyMembers members ++ '}' :: cs) = some (asTrees members, cs) := by
  -- along the writer, which puts a comma in front of every member but the first
  induction members using stringifyMembers.induct generalizing n with
  | case1 => exact absurd rfl hne
  | case2 member =>
    obtain ⟨n, rfl⟩ := Nat.exists_eq_succ_of_ne_zero (by simp at h; omega : n ≠ 0)
    rw [stringifyMembers, readMembers_stringifyMember]
    rfl
  | case3 member next rest ih =>
    simp only [List.length_cons] at h
    obtain ⟨n, rfl⟩ := Nat.exists_eq_succ_of_ne_zero (by omega : n ≠ 0)
    rw [stringifyMembers, List.append_assoc, readMembers_stringifyMember]
    have hspace (cs : List Char) : skipSpace (',' :: cs) = ',' :: cs := rfl
    simp only [List.cons_append, hspace]
    rw [ih (by simp) (by simp; omega)]
    rfl

theorem length_stringifyMembers (members : List (JsString × JsString)) :
    members.length ≤ (stringifyMembers members).length := by
  induction members using stringifyMembers.induct with
  | case1 => exact le_rfl
  | case2 member => simp [stringifyMembers, stringifyMember, quote]
  | case3 member next rest ih =>
    simp only [stringifyMembers, stringifyMember, List.length_append, List.length_cons] at ih ⊢
    omega

/-- The text of the members starts with a quote. -/
theorem stringifyMembers_eq_cons {members : List (JsString × JsString)} (hne : members ≠ []) :
    ∃ text, stringifyMembers members = '"' :: text := by
  cases members with
  | nil => exact absurd rfl hne
  | cons member rest =>
    cases rest with
    | nil => exact ⟨_, rfl⟩
    | cons next rest => exact ⟨_, rfl⟩

/-- `JSON.parse` undoes `JSON.stringify` on every object of strings. -/
theorem parse_stringify {members : List (JsString × JsString)} (hne : members ≠ []) :
    parse (stringify members) = some (.object (asTrees members)) := by
  have hlength := length_stringifyMembers members
  obtain ⟨text, htext⟩ := stringifyMembers_eq_cons hne
  have hwhole : stringify members = '{' :: '"' :: (text ++ ['}']) := by
    rw [stringify, htext]
    rfl
  -- the brace takes the first step, the members the rest
  have hread : readMembers (stringify members).length ('"' :: (text ++ ['}'])) =
      some (asTrees members, []) := by
    rw [← List.cons_append, ← htext, stringify, List.cons_append, List.length_cons]
    exact readMembers_stringify hne (by rw [List.length_append]; omega) []
  have hbrace (text : List Char) : skipSpace ('{' :: text) = '{' :: text := rfl
  have hvalue : readValue ((stringify members).length+1) ('{' :: '"' :: (text ++ ['}'])) =
      some (.object (asTrees members), []) := by
    rw [readValue, hbrace]
    change (readMembers (stringify members).length ('"' :: (text ++ ['}']))).map
      (fun (members, cs) => (JsonTree.object members, cs)) = _
    rw [hread]
    rfl
  rw [parse]
  nth_rewrite 2 [hwhole]
  rw [hvalue]
  rfl

end HubAssist.JsonText
