/-
The setup of a gate as JSON. Each capability and each answer is a member of its own, and a gate has
the capabilities whose members are there.
-/
import JobAdmission.Json.Decode
import JobAdmission.Plugin.Gate.Basic
import JobAdmission.Plugin.Orders

namespace JobAdmission

open Json

/-- Read an answer; one that states no class is acceptance. -/
def Verdict.ofJson (j : Json) : Verdict :=
  match (j.member? "code").bind str? with
  | none => .success
  | some code => ⟨.ofName code, ((j.member? "message").bind str?).getD ""⟩

/-- Read the answers of a gate; one that is missing is acceptance. -/
def GateAnswers.ofJson (j : Json) : GateAnswers :=
  let answer (call : GateCall) : Verdict := ((j.member? call.name).map Verdict.ofJson).getD .success
  { filter := answer .filter, reserve := answer .reserve, unreserve := answer .unreserve }

/-- Read the setup of a gate. The name is required. -/
def GateSetup.ofJson? (j : Json) : Option GateSetup := do
  let order (name : String) : Option String := (j.member? name).map fun v => v.str?.getD ""
  return {
    name := ← (j.member? "name").bind str?
    queueOrder := (order "multi").map .named
    jobOrder := (order "sort").map .named
    filters := (j.member? "filter").isSome
    reserves := (j.member? "reserve").isSome
    failure := (j.member? "fail").bind str? }

end JobAdmission
