/-
The answer to the question whether a scheduler is alive.
-/
import JobAdmission.Json.Basic

namespace JobAdmission

/-- A sign of life. -/
structure Health where
  ok : Bool
deriving DecidableEq, Repr

namespace Health

/-- Whoever can answer is alive. -/
def alive : Health := ⟨true⟩

/-- A sign of life as an object. -/
def toJson (h : Health) : Json := .obj [("ok", .bool h.ok)]

end Health

end JobAdmission
