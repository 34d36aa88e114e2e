/-!
# JSON values

The tree of a JSON text. Members of an object keep their order and may repeat a key. The type of
texts is a parameter: a value to be written holds `String`s, a value that was read holds
`Option String`s, since an escape can name half of a surrogate pair and then denotes no text.

The JSON grammar gives numbers no bounds, so a number is kept as it is written; what type it fits is
asked by whoever reads it.
-/

namespace Flowscript

/-- A number as it is written: its sign, the digits before the point, the digits after it and the
digits of the exponent (with `true` for a negative exponent). -/
structure Numeral where
  negative : Bool := false
  whole : List Char
  fraction : Option (List Char) := none
  exponent : Option (Bool × List Char) := none
deriving DecidableEq, Repr

namespace Numeral

/-- The value of a run of decimal digits. -/
def valueOf (digits : List Char) : Nat :=
  digits.foldl (fun n c => 10 * n + (c.toNat - '0'.toNat)) 0

/-- The decimal digits of a natural number. -/
def ofNat (n : Nat) : Numeral :=
  { whole := Nat.toDigits 10 n }

/-- The natural number that is written, if there is neither sign nor point nor exponent. -/
def toNat? (n : Numeral) : Option Nat :=
  match n with
  | ⟨false, whole, none, none⟩ => some (valueOf whole)
  | _ => none

/-- The number as text. -/
def text (n : Numeral) : List Char :=
  (if n.negative then ['-'] else []) ++ n.whole ++
    (n.fraction.map ('.' :: ·)).getD [] ++
    (n.exponent.map fun e => 'e' :: ((if e.1 then ['-'] else []) ++ e.2)).getD []

end Numeral

/-- A JSON value with texts of type `τ`. -/
inductive Json (τ : Type) where
  | null
  | bool (b : Bool)
  | num (n : Numeral)
  | str (text : τ)
  | arr (items : List (Json τ))
  | obj (members : List (τ × Json τ))
deriving Repr

end Flowscript
