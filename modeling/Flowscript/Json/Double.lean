import Flowscript.Json.Value

/-!
# Numbers in double precision

A number is read as a product. Its digits are taken in from the left as long as they make a number
of 64 bits; the rest of them only tell the scale. That number and the power of ten that scales it
are each rounded to 53 bits, and it is their product that must stay below the largest double. So
near that bound it is the two factors that count, and not the number as it is written.

This is the quick way to read a double that JSON readers document beside the exact one: it may miss
the nearest double by the last bits. Only whether the double is finite is asked here.
-/

namespace Flowscript.Numeral

/-- Digits are taken in as long as the number stays below this bound, two to the power of 64. -/
def significandBound : Nat :=
  18446744073709551616

/-- Takes digits in behind the number `n`, and leaves those from the first that does not fit. -/
def gather (n : Nat) : List Char → Nat × List Char
  | [] => (n, [])
  | c :: cs =>
    if 10 * n + (c.toNat - '0'.toNat) < significandBound then
      gather (10 * n + (c.toNat - '0'.toNat)) cs
    else
      (n, c :: cs)

/-- A number with a power of ten to multiply it by. -/
structure Scaled where
  significand : Nat
  power : Int
deriving DecidableEq, Repr

/-- The power of ten that is written as an exponent. -/
def writtenPower (n : Numeral) : Int :=
  match n.exponent with
  | none => 0
  | some (true, digits) => -(valueOf digits : Int)
  | some (false, digits) => valueOf digits

/-- The number as a product, without its sign. Each digit before the point that is left over raises
the power by one, and each digit after it that is taken in lowers it by one. -/
def scaled (n : Numeral) : Scaled :=
  let fraction := n.fraction.getD []
  let (whole, unused) := gather 0 n.whole
  let (significand, dropped) := gather whole fraction
  { significand
    power := n.writtenPower + unused.length - (fraction.length - dropped.length : Nat) }

/-- The nearest number with at most 53 significant bits. Of two that are equally near, it is the one
with the even last bit. -/
def roundBits (n : Nat) : Nat :=
  let unit := Nat.pow 2 (n.log2 + 1 - 53)
  let below := n / unit
  let rest := n % unit
  if 2 * rest < unit ∨ (2 * rest = unit ∧ below % 2 = 0) then
    below * unit
  else
    (below + 1) * unit

/-- What lies at or beyond this bound rounds to infinity: two to the power of 1024, less half of the
last step below it. -/
def doubleLimit : Nat :=
  Nat.pow 2 1024 - Nat.pow 2 970

/-- The largest power of ten that is a double. -/
def maxPower : Nat :=
  308

/-- Whether the number is a finite double. A product with a power below one always is. -/
def isFiniteDouble (n : Numeral) : Bool :=
  match n.scaled with
  | ⟨_, .negSucc _⟩ => true
  | ⟨significand, .ofNat power⟩ =>
    significand = 0 ||
      (power ≤ maxPower && roundBits significand * roundBits (Nat.pow 10 power) < doubleLimit)

end Flowscript.Numeral
