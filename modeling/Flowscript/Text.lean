/-!
# Text

Blank characters, trimming, lines and cuts, on lists of characters. `segments` and `lines` take a
text apart; `cutFirst` splits at the first separator.
-/

namespace Flowscript.Text

/-- A blank is one of the 25 characters of the Unicode property `White_Space`. -/
def isBlank (c : Char) : Bool :=
  let n := c.toNat
  (0x9 ≤ n && n ≤ 0xd) || n == 0x20 || n == 0x85 || n == 0xa0 || n == 0x1680 ||
    (0x2000 ≤ n && n ≤ 0x200a) || n == 0x2028 || n == 0x2029 || n == 0x202f || n == 0x205f ||
    n == 0x3000

/-- The four blanks that may stand between words of markup and of JSON. -/
def isSpace (c : Char) : Bool :=
  c == ' ' || c == '\t' || c == '\n' || c == '\r'

/-- The text without the longest tail of characters that satisfy `p`. -/
def trimEnd (p : Char → Bool) (cs : List Char) : List Char :=
  (cs.reverse.dropWhile p).reverse

/-- The text without blanks at either end. -/
def trim (cs : List Char) : List Char :=
  trimEnd isBlank (cs.dropWhile isBlank)

/-- The pieces between separators. A text without separators is one piece, so there is always at
least one. -/
def segments (p : Char → Bool) : List Char → List (List Char)
  | [] => [[]]
  | c :: cs =>
    if p c then
      [] :: segments p cs
    else
      match segments p cs with
      | s :: ss => (c :: s) :: ss
      | [] => [[c]]

/-- The last piece between separators. -/
def lastSegment (p : Char → Bool) (cs : List Char) : List Char :=
  (segments p cs).getLastD []

/-- What stands before and after the first occurrence of `c`. -/
def cutFirst (c : Char) (cs : List Char) : Option (List Char × List Char) :=
  match cs.dropWhile (· != c) with
  | [] => none
  | _ :: rest => some (cs.takeWhile (· != c), rest)

/-- What stands before and after the first occurrence of a text. -/
def cutAt (mark : List Char) : List Char → Option (List Char × List Char)
  | [] => none
  | c :: cs =>
    if mark.isPrefixOf (c :: cs) then
      some ([], (c :: cs).drop mark.length)
    else
      (cutAt mark cs).map fun (before, after) => (c :: before, after)

/-- What is behind a mark is shorter by the mark at least. -/
theorem cutAt_length {mark cs before after : List Char} (hm : 0 < mark.length)
    (h : cutAt mark cs = some (before, after)) : after.length < cs.length := by
  induction cs generalizing before with
  | nil => simp [cutAt] at h
  | cons c cs ih =>
    unfold cutAt at h
    split at h
    · simp only [Option.some.injEq, Prod.mk.injEq] at h
      rw [← h.2, List.length_drop, List.length_cons]
      omega
    · obtain ⟨⟨b, r⟩, hr, e⟩ := Option.map_eq_some_iff.1 h
      simp only [Prod.mk.injEq] at e
      have := ih (e.2 ▸ hr)
      simp only [List.length_cons]
      omega

/-- A carriage return that ends a line belongs to the line end. -/
def dropReturn (line : List Char) : List Char :=
  if line.getLast? = some '\r' then line.dropLast else line

/-- The lines of a text. A line feed ends a line, together with one carriage return before it; a
last line without a line feed counts if it is not empty, and keeps its carriage return. -/
def lines : List Char → List (List Char)
  | [] => []
  | c :: cs =>
    match _h : (c :: cs).dropWhile (· != '\n') with
    | [] => [c :: cs]
    | _ :: rest => dropReturn ((c :: cs).takeWhile (· != '\n')) :: lines rest
termination_by cs => cs.length
decreasing_by
  have := (List.dropWhile_suffix (l := c :: cs) (· != '\n')).length_le
  simp only [_h] at this
  simp only [List.length_cons] at this ⊢
  omega

/-- The value of a digit in a base of at most sixteen, letters in either case. -/
def digitValue? (base : Nat) (c : Char) : Option Nat :=
  let value :=
    if '0' ≤ c ∧ c ≤ '9' then some (c.toNat - '0'.toNat)
    else if 'a' ≤ c ∧ c ≤ 'f' then some (c.toNat - 'a'.toNat + 10)
    else if 'A' ≤ c ∧ c ≤ 'F' then some (c.toNat - 'A'.toNat + 10)
    else none
  value.filter (· < base)

/-- The number of bytes of a text in UTF-8. -/
def width : List Char → Nat
  | [] => 0
  | c :: cs => c.utf8Size + width cs

end Flowscript.Text
