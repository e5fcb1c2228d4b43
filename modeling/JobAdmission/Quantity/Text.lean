/-
The written form of quantities. A text is an optional sign, a decimal number and a suffix: `m` for
thousandths, `k` to `E` for powers of a thousand, `Ki` to `Ei` for powers of 1024. It may stand
between white space. What is finer than a thousandth is rounded away from zero. A quantity is
written in whole units where it is whole, and in thousandths otherwise.
-/
import JobAdmission.Error
import JobAdmission.Quantity.Basic
import JobAdmission.Text.Blank
import JobAdmission.Text.Integer

namespace JobAdmission.Quantity

open Text

/-- The parts of a written quantity. -/
structure Literal where
  negative : Bool
  /-- The digits before the point. -/
  whole : List Char
  /-- What stands after the first point. -/
  fraction : List Char
  /-- What follows the number. -/
  suffix : List Char
deriving DecidableEq, Repr

/-- The suffixes, each with the fraction of a unit it stands for. -/
def scales : List (List Char × Nat × Nat) :=
  [([], 1, 1), (['m'], 1, 1000),
    (['k'], .pow 10 3, 1), (['M'], .pow 10 6, 1), (['G'], .pow 10 9, 1),
    (['T'], .pow 10 12, 1), (['P'], .pow 10 15, 1), (['E'], .pow 10 18, 1),
    (['K', 'i'], .pow 2 10, 1), (['M', 'i'], .pow 2 20, 1), (['G', 'i'], .pow 2 30, 1),
    (['T', 'i'], .pow 2 40, 1), (['P', 'i'], .pow 2 50, 1), (['E', 'i'], .pow 2 60, 1)]

/-- The largest number of digits after the point. -/
def maxPlaces : Nat := 18

/-- Whether a character belongs to the number part. -/
def isNumberChar (c : Char) : Bool := (digit? c).isSome || c == '.'

/-- Split an unsigned text into number and suffix, and the number at its first point. -/
def Literal.ofUnsigned (negative : Bool) (body : List Char) : Literal :=
  let number := body.takeWhile isNumberChar
  { negative
    whole := number.takeWhile (· != '.')
    fraction := (number.dropWhile (· != '.')).drop 1
    suffix := body.dropWhile isNumberChar }

/-- The parts of a text, unless it is blank. -/
def Literal.of? (text : String) : Option Literal :=
  match trim text.toList with
  | [] => none
  | '-' :: body => some (.ofUnsigned true body)
  | '+' :: body => some (.ofUnsigned false body)
  | body => some (.ofUnsigned false body)

/-- The number written by digits, zero if there are none. -/
def placesValue? : List Char → Option Nat
  | [] => some 0
  | cs => digitsValue? cs

/-- The quotient rounded up. -/
def ceilDiv (n d : Nat) : Nat := (n + d - 1) / d

/-- The quantity that the parts stand for: there is a digit, at most `maxPlaces` of them follow
the point, the suffix is known, and the number scaled to the finest unit in play fits. -/
def Literal.value? (l : Literal) : Option Quantity := do
  let (num, den) ← scales.lookup l.suffix
  if l.whole.isEmpty && l.fraction.isEmpty then none
  if l.fraction.length > maxPlaces then none
  let whole ← placesValue? l.whole
  let fraction ← placesValue? l.fraction
  let scale := Nat.pow 10 l.fraction.length
  let finest := (whole * scale + fraction) * num * 1000
  if (finest : Int) > maxMilli then none
  let milli : Int := ceilDiv finest (scale * den)
  some ⟨if l.negative then -milli else milli⟩

/-- The quantity that a text stands for. -/
def parse? (text : String) : Option Quantity :=
  (Literal.of? text).bind Literal.value?

/-- The quantity that a text stands for; the error shows the text as it was given. -/
def parse (text : String) : Except AdmissionError Quantity :=
  match parse? text with
  | some q => .ok q
  | none => .error (.invalidQuantity text)

/-- The written form of a quantity. -/
def render (q : Quantity) : String :=
  if q.milli % 1000 = 0 then String.ofList (intText (q.milli / 1000))
  else String.ofList (intText q.milli ++ ['m'])

instance : ToString Quantity := ⟨render⟩

end JobAdmission.Quantity
