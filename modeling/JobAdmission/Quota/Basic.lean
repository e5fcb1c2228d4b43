/-
Quotas of namespaces: what they limit, and which of several governs a namespace.
-/
import JobAdmission.Job.Json

namespace JobAdmission

/-- A limit on the resources of a namespace. -/
structure Quota where
  name : String
  ns : String
  /-- The limits, or nothing if the quota states none yet. -/
  hard : Option Resources
deriving DecidableEq

namespace Quota

open Json

/-- A quota as an object. -/
def toJson (q : Quota) : Json :=
  .obj [("name", .str q.name), ("namespace", .str q.ns),
    ("hard", q.hard.elim .null Resources.toJson)]

/-- Read a quota. Name and namespace are required. -/
def ofJson? (j : Json) : Option Quota := do
  let r ← j.record? ["name", "namespace", "hard"]
  return {
    name := ← need? r "name" str?
    ns := ← need? r "namespace" str?
    hard := ← maybe? r "hard" Resources.ofJson? }

/-- The quota that governs a namespace: the only one, or among several the first that bears the
name of the namespace. -/
def governing (quotas : List Quota) (ns : String) : Except AdmissionError Quota :=
  match quotas with
  | [] => .error (.notFound ("found 0 resource quota in ns: " ++ ns ++ ", expecting more than 0"))
  | [only] => .ok only
  | many =>
    match many.find? (·.name == ns) with
    | some q => .ok q
    | none => .error (.notFound ("cannot find proper resource quota in namespace " ++ ns))

end Quota

end JobAdmission
