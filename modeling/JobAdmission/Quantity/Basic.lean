/-
Exact resource quantities. A quantity is a whole number of thousandths of a unit, so half a
processor, three processors and two gibibytes compare and add without rounding. Sums and
differences stop at the ends of the signed 128-bit range; `checkedAdd?` says when they would.
-/

namespace JobAdmission

/-- An exact signed quantity of a resource. -/
structure Quantity where
  /-- Thousandths of a unit. -/
  milli : Int
deriving DecidableEq, Repr

namespace Quantity

/-- The largest number of thousandths. -/
def maxMilli : Int := 0x7FFFFFFFFFFFFFFFFFFFFFFFFFFFFFFF

/-- The smallest number of thousandths. -/
def minMilli : Int := -0x80000000000000000000000000000000

/-- Whether a number of thousandths is representable. -/
def Fits (n : Int) : Prop := minMilli ≤ n ∧ n ≤ maxMilli

instance (n : Int) : Decidable (Fits n) := inferInstanceAs (Decidable (_ ∧ _))

/-- The representable number nearest to `n`. -/
def clamp (n : Int) : Int := max minMilli (min n maxMilli)

/-- Nothing. -/
def zero : Quantity := ⟨0⟩

instance : Inhabited Quantity := ⟨zero⟩

/-- A quantity of whole units. -/
def ofUnits (n : Int) : Quantity := ⟨n * 1000⟩

/-- The quantity in whole units, rounded up. -/
def value (q : Quantity) : Int :=
  let whole := q.milli.tdiv 1000
  if q.milli.tmod 1000 > 0 then whole + 1 else whole

/-- -1, 0 or 1, as the quantity is negative, zero or positive. -/
def sign (q : Quantity) : Int := q.milli.sign

/-- Whether the quantity is zero. -/
def isZero (q : Quantity) : Bool := q.milli == 0

instance : Add Quantity := ⟨fun a b => ⟨clamp (a.milli + b.milli)⟩⟩

instance : Sub Quantity := ⟨fun a b => ⟨clamp (a.milli - b.milli)⟩⟩

/-- The sum, if it is representable. -/
def checkedAdd? (a b : Quantity) : Option Quantity :=
  if Fits (a.milli + b.milli) then some ⟨a.milli + b.milli⟩ else none

/-- The opposite quantity, which the smallest one does not have. -/
def neg? (q : Quantity) : Option Quantity :=
  if Fits (-q.milli) then some ⟨-q.milli⟩ else none

instance : LE Quantity := ⟨fun a b => a.milli ≤ b.milli⟩

instance : LT Quantity := ⟨fun a b => a.milli < b.milli⟩

instance (a b : Quantity) : Decidable (a ≤ b) := inferInstanceAs (Decidable (a.milli ≤ b.milli))

instance (a b : Quantity) : Decidable (a < b) := inferInstanceAs (Decidable (a.milli < b.milli))

/-- -1, 0 or 1, as the first quantity is below, equal to or above the second. -/
def comparison (a b : Quantity) : Int := (a.milli - b.milli).sign

theorem clamp_of_fits {n : Int} (h : Fits n) : clamp n = n := by
  unfold clamp
  have := h.1
  have := h.2
  omega

theorem fits_clamp (n : Int) : Fits (clamp n) := by
  unfold Fits clamp minMilli maxMilli
  omega

theorem add_milli (a b : Quantity) : (a + b).milli = clamp (a.milli + b.milli) := rfl

theorem sub_milli (a b : Quantity) : (a - b).milli = clamp (a.milli - b.milli) := rfl

end Quantity

end JobAdmission
