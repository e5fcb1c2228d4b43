/-
Numbers as they are written, and whether one lies in the range of double precision. The digits of
a number go into a significand of 64 bits as far as they fit. Of the digits that are left, those
before the point raise the power of ten and those behind it are dropped. The number is the
significand times the power of ten, both rounded to double precision before they are multiplied,
so that a spelling close to the end of the range may fall on the other side of it.
-/

namespace JobAdmission

/-- A number as it is written. -/
structure Numeral where
  negative : Bool
  /-- The digits before the point. -/
  whole : List Nat
  /-- The digits behind the point. -/
  places : List Nat
  /-- The power of ten, if one is written. -/
  exponent : Option Int
deriving DecidableEq, Repr

namespace Numeral

/-- The value of a number that is written with digits only. -/
def natural? (n : Numeral) : Option Nat :=
  if n.negative || !n.places.isEmpty || n.exponent.isSome then none
  else some (n.whole.foldl (fun value d => value * 10 + d) 0)

/-- Take digits into a significand of 64 bits until one does not fit. The second part is the digits
that are left. -/
def absorb : Nat → List Nat → Nat × List Nat
  | n, [] => (n, [])
  | n, d :: rest => if n * 10 + d < .pow 2 64 then absorb (n * 10 + d) rest else (n, d :: rest)

/-- The significand, and the power of ten it is multiplied by. A digit before the point that does
not fit does not keep those behind the point from being tried. -/
def scaled (n : Numeral) : Nat × Int :=
  let (s, surplus) := absorb 0 n.whole
  let (s, left) := absorb s n.places
  (s, n.exponent.getD 0 + surplus.length + left.length - n.places.length)

/-- The nearest number of 53 bits, and of two nearest ones the even one. -/
def roundToDouble (n : Nat) : Nat :=
  let unit := Nat.pow 2 (n.log2 - 52)
  let q := n / unit
  let r := n % unit
  if unit < 2 * r ∨ (2 * r = unit ∧ q % 2 = 1) then (q + 1) * unit else q * unit

/-- The largest power of ten in the range of double precision. -/
def maxPower : Int := 308

/-- From here on a number is rounded beyond the largest double. -/
def doubleLimit : Nat := .pow 2 1024 - .pow 2 970

/-- Whether a number lies in the range of double precision. Zero does, whatever its exponent, and
so does a number that is divided by a power of ten. -/
def inDoubleRange (n : Numeral) : Bool :=
  let (s, e) := n.scaled
  s == 0 || e < 0 ||
    (e ≤ maxPower && roundToDouble s * roundToDouble (.pow 10 e.toNat) < doubleLimit)

end Numeral

end JobAdmission
