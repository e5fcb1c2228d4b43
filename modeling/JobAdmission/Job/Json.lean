/-
Jobs, quantities and resource lists as JSON.
-/
import JobAdmission.Job.Basic
import JobAdmission.Json.Decode

namespace JobAdmission

open Json

namespace Quantity

/-- A quantity as its written form. -/
def toJson (q : Quantity) : Json := .str q.render

/-- Read a quantity, which must be a string. -/
def ofJson? (j : Json) : Option Quantity := j.str?.bind parse?

end Quantity

namespace Resources

/-- A resource list as an object. -/
def toJson (r : Resources) : Json := ofMap Quantity.toJson r

/-- Read a resource list. -/
def ofJson? (j : Json) : Option Resources := j.map? Quantity.ofJson?

end Resources

namespace Phase

/-- The name of a phase. -/
def name : Phase → String
  | enqueued => "Enqueued"
  | dequeued => "Dequeued"

/-- The phase of a name. -/
def ofName? : String → Option Phase
  | "Enqueued" => some enqueued
  | "Dequeued" => some dequeued
  | _ => none

/-- A phase as its name. -/
def toJson (p : Phase) : Json := .str p.name

/-- Read a phase. -/
def ofJson? (j : Json) : Option Phase := j.choice?.bind ofName?

/-- Read a phase in a value held for a tagged choice. -/
def ofHeldJson? (j : Json) : Option Phase := j.heldChoice?.bind ofName?

end Phase

namespace Job

/-- The members of a job. -/
def fieldNames : List String :=
  ["namespace", "name", "uid", "job_type", "priority", "queue", "resource", "phase", "message"]

/-- A job as an object, without the members that have no value. -/
def toJson (j : Job) : Json :=
  .obj ([("namespace", .str j.ns), ("name", .str j.name)]
    ++ optional "uid" .str j.uid
    ++ [("job_type", .str j.kind)]
    ++ optional "priority" (fun p => .int p.toInt) j.priority
    ++ [("queue", .str j.queue), ("resource", j.resources.toJson), ("phase", j.phase.toJson)]
    ++ optional "message" .str j.note)

/-- Read a job, its phase by `phase`. Namespace, name and kind are required. -/
def readWith (phase : Json → Option Phase) (j : Json) : Option Job := do
  let r ← j.record? fieldNames
  return {
    ns := ← need? r "namespace" str?
    name := ← need? r "name" str?
    uid := ← maybe? r "uid" str?
    kind := ← need? r "job_type" str?
    priority := ← maybe? r "priority" int32?
    queue := ← orElse? r "queue" defaultQueue str?
    resources := ← orElse? r "resource" .empty Resources.ofJson?
    phase := ← orElse? r "phase" .enqueued phase
    note := ← maybe? r "message" str? }

/-- Read a job. -/
def ofJson? (j : Json) : Option Job := readWith Phase.ofJson? j

/-- Read a job in a value held for a tagged choice. -/
def ofHeldJson? (j : Json) : Option Job := readWith Phase.ofHeldJson? j

end Job

end JobAdmission
