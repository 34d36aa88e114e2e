import Flowscript.Json.Value
import Flowscript.Text

/-!
# JSON tokens

The words of a JSON text: brackets, separators, texts, numbers and the three names. `Token.scan`
takes a whole text apart and fails on anything that is no word. Numbers have no leading zeros, and
texts no raw control characters.

The words are those of the JSON grammar, without any of the extensions that readers may offer: blanks
are the four of the grammar, and there are no comments, no single quotes, no plus before a number, no
point without digits on both sides and no names for infinities. In a text, eight letters may follow a
backslash, or `u` and four digits; two such units that are a surrogate pair are one character.
-/

namespace Flowscript.Json

/-- One word of a JSON text. A text is `none` if its escapes leave half of a surrogate pair. -/
inductive Token where
  | openObject
  | closeObject
  | openArray
  | closeArray
  | colon
  | comma
  | null
  | bool (b : Bool)
  | num (n : Numeral)
  | str (text : Option String)
deriving DecidableEq, Repr

/-! ## Texts -/

/-- A part of a text in quotes: a character, or a 16-bit unit that was written in hexadecimal. -/
inductive Piece where
  | char (c : Char)
  | unit (n : Nat)
deriving DecidableEq, Repr

/-- The value of four hexadecimal digits. -/
def hexUnit? (a b c d : Char) : Option Nat := do
  let a ← Text.digitValue? 16 a
  let b ← Text.digitValue? 16 b
  let c ← Text.digitValue? 16 c
  let d ← Text.digitValue? 16 d
  return ((a * 16 + b) * 16 + c) * 16 + d

/-- What a letter after a backslash stands for. -/
def escaped? (c : Char) : Option Char :=
  match c with
  | '"' => some '"'
  | '\\' => some '\\'
  | '/' => some '/'
  | 'b' => some '\x08'
  | 'f' => some '\x0c'
  | 'n' => some '\n'
  | 'r' => some '\r'
  | 't' => some '\t'
  | _ => none

/-- The pieces up to the closing quote, and what follows it. -/
def pieces? : List Char → Option (List Piece × List Char)
  | [] => none
  | '"' :: cs => some ([], cs)
  | '\\' :: 'u' :: a :: b :: c :: d :: cs => do
    let n ← hexUnit? a b c d
    let (ps, rest) ← pieces? cs
    return (.unit n :: ps, rest)
  | '\\' :: c :: cs => do
    let e ← escaped? c
    let (ps, rest) ← pieces? cs
    return (.char e :: ps, rest)
  | c :: cs =>
    if c = '\\' ∨ c.toNat < 0x20 then
      none
    else do
      let (ps, rest) ← pieces? cs
      return (.char c :: ps, rest)

/-- The first half of a surrogate pair. -/
def isHighUnit (n : Nat) : Bool :=
  0xd800 ≤ n && n < 0xdc00

/-- The second half of a surrogate pair. -/
def isLowUnit (n : Nat) : Bool :=
  0xdc00 ≤ n && n < 0xe000

/-- The characters that the pieces denote: a high unit directly before a low one is one character,
and neither may stand alone. -/
def characters? : List Piece → Option (List Char)
  | [] => some []
  | .char c :: ps => (characters? ps).map (c :: ·)
  | .unit n :: .unit m :: ps =>
    if isHighUnit n && isLowUnit m then
      (characters? ps).map (Char.ofNat (0x10000 + (n - 0xd800) * 0x400 + (m - 0xdc00)) :: ·)
    else if isHighUnit n || isLowUnit n then
      none
    else
      (characters? (.unit m :: ps)).map (Char.ofNat n :: ·)
  | .unit n :: ps =>
    if isHighUnit n || isLowUnit n then none else (characters? ps).map (Char.ofNat n :: ·)

/-! ## Numbers -/

/-- A run of at least one digit, and what follows it. -/
def digits? (cs : List Char) : Option (List Char × List Char) :=
  match cs.takeWhile Char.isDigit with
  | [] => none
  | d :: ds => some (d :: ds, cs.dropWhile Char.isDigit)

/-- The digits before the point: a zero starts no longer number. -/
def whole? (cs : List Char) : Option (List Char × List Char) :=
  match digits? cs with
  | some ('0' :: _ :: _, _) => none
  | found => found

/-- The digits after a point, if there is one. -/
def fraction? (cs : List Char) : Option (Option (List Char) × List Char) :=
  match cs with
  | '.' :: cs => (digits? cs).map fun (ds, rest) => (some ds, rest)
  | _ => some (none, cs)

/-- Whether a minus stands in front, and what follows the sign if there is one. -/
def sign (cs : List Char) : Bool × List Char :=
  match cs with
  | '-' :: cs => (true, cs)
  | '+' :: cs => (false, cs)
  | _ => (false, cs)

/-- The sign and digits of an exponent, if there is one. -/
def exponent? (cs : List Char) : Option (Option (Bool × List Char) × List Char) :=
  match cs with
  | [] => some (none, [])
  | c :: cs =>
    if c = 'e' ∨ c = 'E' then
      (digits? (sign cs).2).map fun (ds, rest) => (some ((sign cs).1, ds), rest)
    else
      some (none, c :: cs)

/-- A number without its sign, and what follows it. -/
def magnitude? (negative : Bool) (cs : List Char) : Option (Numeral × List Char) := do
  let (whole, cs) ← whole? cs
  let (fraction, cs) ← fraction? cs
  let (exponent, cs) ← exponent? cs
  return ({ negative, whole, fraction, exponent }, cs)

/-! ## Lengths

Each reader leaves less than it was given, so that scanning ends. -/

/-- The closing quote is taken away at least. -/
theorem pieces?_length {cs : List Char} {ps : List Piece} {rest : List Char}
    (h : pieces? cs = some (ps, rest)) : rest.length < cs.length := by
  fun_induction pieces? cs generalizing ps with
  | case1 => simp at h
  | case2 => simp at h; simp [h]
  | case3 a b c d cs ih =>
    simp only [Option.bind_eq_bind, Option.bind_eq_some_iff, Option.pure_def] at h
    obtain ⟨n, _, ⟨qs, r⟩, hq, h⟩ := h
    simp only [Option.some.injEq, Prod.mk.injEq] at h
    have := ih (h.2 ▸ hq)
    simp only [List.length_cons]
    omega
  | case4 c cs _ ih =>
    simp only [Option.bind_eq_bind, Option.bind_eq_some_iff, Option.pure_def] at h
    obtain ⟨n, _, ⟨qs, r⟩, hq, h⟩ := h
    simp only [Option.some.injEq, Prod.mk.injEq] at h
    have := ih (h.2 ▸ hq)
    simp only [List.length_cons]
    omega
  | case5 => simp at h
  | case6 c cs _ _ _ _ ih =>
    simp only [Option.bind_eq_bind, Option.bind_eq_some_iff, Option.pure_def] at h
    obtain ⟨⟨qs, r⟩, hq, h⟩ := h
    simp only [Option.some.injEq, Prod.mk.injEq] at h
    have := ih (h.2 ▸ hq)
    simp only [List.length_cons]
    omega

/-- At least one digit is taken away. -/
theorem digits?_length {cs ds rest : List Char} (h : digits? cs = some (ds, rest)) :
    rest.length < cs.length := by
  unfold digits? at h
  have e := congrArg List.length (List.takeWhile_append_dropWhile (p := Char.isDigit) (l := cs))
  rw [List.length_append] at e
  split at h
  · simp at h
  · next d ds' hd =>
    simp only [Option.some.injEq, Prod.mk.injEq] at h
    rw [hd, h.2, List.length_cons] at e
    omega

/-- At least one digit is taken away. -/
theorem whole?_length {cs ds rest : List Char} (h : whole? cs = some (ds, rest)) :
    rest.length < cs.length := by
  unfold whole? at h
  split at h
  · simp at h
  · exact digits?_length h

/-- Nothing is put back, whether there is a point or not. -/
theorem fraction?_length {cs rest : List Char} {f : Option (List Char)}
    (h : fraction? cs = some (f, rest)) : rest.length ≤ cs.length := by
  unfold fraction? at h
  split at h
  · obtain ⟨⟨ds, r⟩, hd, e⟩ := Option.map_eq_some_iff.1 h
    have := digits?_length hd
    simp only [Prod.mk.injEq] at e
    simp only [List.length_cons]
    grind
  · simp only [Option.some.injEq, Prod.mk.injEq] at h
    simp [h.2]

/-- Nothing is put back, whether there is a sign or not. -/
theorem sign_length (cs : List Char) : (sign cs).2.length ≤ cs.length := by
  unfold sign
  split <;> simp

/-- Nothing is put back, whether there is an exponent or not. -/
theorem exponent?_length {cs rest : List Char} {e : Option (Bool × List Char)}
    (h : exponent? cs = some (e, rest)) : rest.length ≤ cs.length := by
  unfold exponent? at h
  split at h
  · simp_all
  · next c cs =>
    split at h
    · obtain ⟨⟨ds, r⟩, hd, e⟩ := Option.map_eq_some_iff.1 h
      have := digits?_length hd
      have := sign_length cs
      simp only [Prod.mk.injEq] at e
      simp only [List.length_cons]
      grind
    · simp only [Option.some.injEq, Prod.mk.injEq] at h
      simp [← h.2]

/-- A number takes away at least the digits before its point. -/
theorem magnitude?_length {negative : Bool} {cs rest : List Char} {n : Numeral}
    (h : magnitude? negative cs = some (n, rest)) : rest.length < cs.length := by
  unfold magnitude? at h
  simp only [Option.bind_eq_bind, Option.bind_eq_some_iff, Option.pure_def] at h
  obtain ⟨⟨w, r⟩, hw, ⟨f, r'⟩, hf, ⟨e, r''⟩, he, h⟩ := h
  have := whole?_length hw
  have := fraction?_length hf
  have := exponent?_length he
  simp only [Option.some.injEq, Prod.mk.injEq] at h
  grind

/-- The words of a text, if all of it is words and blanks. -/
def Token.scan : List Char → Option (List Token)
  | [] => some []
  | '\x7b' :: cs => (scan cs).map (.openObject :: ·)
  | '\x7d' :: cs => (scan cs).map (.closeObject :: ·)
  | '[' :: cs => (scan cs).map (.openArray :: ·)
  | ']' :: cs => (scan cs).map (.closeArray :: ·)
  | ':' :: cs => (scan cs).map (.colon :: ·)
  | ',' :: cs => (scan cs).map (.comma :: ·)
  | 'n' :: 'u' :: 'l' :: 'l' :: cs => (scan cs).map (.null :: ·)
  | 't' :: 'r' :: 'u' :: 'e' :: cs => (scan cs).map (.bool true :: ·)
  | 'f' :: 'a' :: 'l' :: 's' :: 'e' :: cs => (scan cs).map (.bool false :: ·)
  | '"' :: cs =>
    match _h : pieces? cs with
    | none => none
    | some (ps, rest) => (scan rest).map (.str ((characters? ps).map String.ofList) :: ·)
  | '-' :: cs =>
    match _h : magnitude? true cs with
    | none => none
    | some (n, rest) => (scan rest).map (.num n :: ·)
  | c :: cs =>
    if Text.isSpace c then
      scan cs
    else
      match _h : magnitude? false (c :: cs) with
      | none => none
      | some (n, rest) => (scan rest).map (.num n :: ·)
termination_by cs => cs.length
decreasing_by
  all_goals simp only [List.length_cons]
  all_goals try omega
  · have := pieces?_length _h; omega
  · have := magnitude?_length _h; omega
  · have := magnitude?_length _h; simp only [List.length_cons] at this; omega

end Flowscript.Json
