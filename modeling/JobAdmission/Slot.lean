/-
Parts of an environment. What acts on one part only, such as a ledger, is written for that part and
lifted to any environment that has a slot for it.
-/

namespace JobAdmission

/-- A part of an environment that can be read and replaced. -/
structure Slot (E S : Type) where
  get : E → S
  set : S → E → E

namespace Slot

variable {E S α : Type}

/-- Act on the part and leave the rest of the environment alone. -/
def act (slot : Slot E S) (f : S → α × S) : StateM E α := fun env =>
  let (a, s) := f (slot.get env)
  (a, slot.set s env)

end Slot

end JobAdmission
