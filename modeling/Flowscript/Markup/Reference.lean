import Flowscript.Markup.Fault
import Flowscript.Text

/-!
# References

`unescape` replaces the references in a text or an attribute value. A reference runs from `&` to
the next `;` and names one of five characters or gives a code point in decimal or, after `x`, in
hexadecimal. The first fault from the left is reported.

The five names are the predefined entities of XML; no document declares others here, so any other
name is a fault. As documented for character references, a number has no sign, fits into 32 bits and
is the code point of a character other than zero. Blanks in attribute values are left as they are.
-/

namespace Flowscript.Markup

/-- The numbers in references stay below this bound, two to the power of 32. -/
def numberBound : Nat :=
  4294967296

/-- Reads on a number whose digits so far give `n`. A digit at which the number passes 32 bits ends
the reading, as does a character that is no digit. -/
def readDigits (base n : Nat) : List Char → Except NumberFault Nat
  | [] => .ok n
  | c :: cs =>
    match Text.digitValue? base c with
    | none => .error .digit
    | some d =>
      if base * n + d < numberBound then readDigits base (base * n + d) cs else .error .tooLarge

/-- A number without sign that is not empty. -/
def readNumber (base : Nat) : List Char → Except NumberFault Nat
  | [] => .error .empty
  | c :: cs => if c = '+' ∨ c = '-' then .error .sign else readDigits base 0 (c :: cs)

/-- The character with a given code point, other than zero. -/
def scalar (code : Nat) : Except NumberFault Char :=
  if code = 0 then .error .zero
  else if code.isValidChar then .ok (Char.ofNat code)
  else .error (.notScalar code)

/-- The character that a number stands for: what follows `#` in a reference. -/
def characterOf : List Char → Except NumberFault Char
  | 'x' :: digits => readNumber 16 digits >>= scalar
  | digits => readNumber 10 digits >>= scalar

/-- The character that a name between `&` and `;` stands for. The name starts at byte `start`. -/
def resolve (start : Nat) (name : List Char) : Except Fault Char :=
  match name with
  | ['l', 't'] => .ok '<'
  | ['g', 't'] => .ok '>'
  | ['a', 'm', 'p'] => .ok '&'
  | ['a', 'p', 'o', 's'] => .ok '\''
  | ['q', 'u', 'o', 't'] => .ok '"'
  | '#' :: digits => (characterOf digits).mapError .characterReference
  | _ => .error (.unknownEntity start (start + Text.width name) (String.ofList name))

/-- Where the name in a reference ends. -/
def endsName (c : Char) : Bool :=
  c == '&' || c == ';'

/-- Replaces the references in the rest of a value of `total` bytes, `offset` bytes into it. -/
def unescapeFrom (total offset : Nat) : List Char → Except Fault (List Char)
  | [] => .ok []
  | c :: cs =>
    if c = '&' then
      let name := cs.takeWhile (!endsName ·)
      match _h : cs.dropWhile (!endsName ·) with
      | ';' :: rest => do
        let r ← resolve (offset + 1) name
        let tail ← unescapeFrom total (offset + Text.width name + 2) rest
        return r :: tail
      | _ => .error (.unterminatedEntity offset total)
    else do
      let tail ← unescapeFrom total (offset + c.utf8Size) cs
      return c :: tail
termination_by cs => cs.length
decreasing_by
  · have := (List.dropWhile_suffix (l := cs) (!endsName ·)).length_le
    simp only [_h, List.length_cons] at this ⊢
    omega
  · simp

/-- The value with all references replaced. -/
def unescape (cs : List Char) : Except Fault (List Char) :=
  unescapeFrom (Text.width cs) 0 cs

end Flowscript.Markup
