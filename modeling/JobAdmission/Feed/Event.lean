/-
The events of the job feed and of the queue feed, the answer to an event, and the listing of the
queues, with their JSON form. An event names its kind in the member `type`.
-/
import JobAdmission.Job.Json
import JobAdmission.Queue.Definition

namespace JobAdmission

open Json

/-- A change to a job. -/
inductive JobEvent where
  | added (job : Job)
  | updated (old new : Job)
  | deleted (job : Job)
deriving DecidableEq

/-- A change to the definition of a queue. -/
inductive QueueEvent where
  | added (queue : QueueDef)
  | updated (old new : QueueDef)
  | deleted (name : String)
deriving DecidableEq

/-- The answer to an event. -/
structure Ack where
  ok : Bool
  reason : Option String
deriving DecidableEq, Repr

/-- One queue in a listing. -/
structure QueueSnapshot where
  name : String
  priority : Int32
  policy : String
  ready : UInt64
  delayed : UInt64
deriving DecidableEq, Repr

namespace JobEvent

/-- An event as an object. -/
def toJson : JobEvent → Json
  | added job => .obj [("type", .str "added"), ("unit", job.toJson)]
  | updated old new => .obj [("type", .str "updated"), ("old", old.toJson), ("new", new.toJson)]
  | deleted job => .obj [("type", .str "deleted"), ("unit", job.toJson)]

/-- Read an event. -/
def ofJson? (j : Json) : Option JobEvent := do
  let (kind, rest) ← j.tagged? "type"
  match kind with
  | "added" =>
    let r ← rest.record? ["unit"]
    return added (← need? r "unit" Job.ofHeldJson?)
  | "updated" =>
    let r ← rest.record? ["old", "new"]
    return updated (← need? r "old" Job.ofHeldJson?) (← need? r "new" Job.ofHeldJson?)
  | "deleted" =>
    let r ← rest.record? ["unit"]
    return deleted (← need? r "unit" Job.ofHeldJson?)
  | _ => none

end JobEvent

namespace QueueEvent

/-- An event as an object. -/
def toJson : QueueEvent → Json
  | added queue => .obj [("type", .str "added"), ("queue", queue.toJson)]
  | updated old new => .obj [("type", .str "updated"), ("old", old.toJson), ("new", new.toJson)]
  | deleted name => .obj [("type", .str "deleted"), ("name", .str name)]

/-- Read an event. -/
def ofJson? (j : Json) : Option QueueEvent := do
  let (kind, rest) ← j.tagged? "type"
  match kind with
  | "added" =>
    let r ← rest.record? ["queue"]
    return added (← need? r "queue" QueueDef.ofJson?)
  | "updated" =>
    let r ← rest.record? ["old", "new"]
    return updated (← need? r "old" QueueDef.ofJson?) (← need? r "new" QueueDef.ofJson?)
  | "deleted" =>
    let r ← rest.record? ["name"]
    return deleted (← need? r "name" str?)
  | _ => none

end QueueEvent

namespace Ack

/-- The event was applied. -/
def accepted : Ack := ⟨true, none⟩

/-- The event was not applied, for a reason. -/
def rejected (reason : String) : Ack := ⟨false, some reason⟩

/-- The answer to an event whose effect may have failed. -/
def ofResult : Except AdmissionError Unit → Ack
  | .ok () => accepted
  | .error e => rejected e.message

/-- An answer as an object. -/
def toJson (a : Ack) : Json := .obj ([("ok", .bool a.ok)] ++ optional "reason" .str a.reason)

/-- Read an answer. -/
def ofJson? (j : Json) : Option Ack := do
  let r ← j.record? ["ok", "reason"]
  return { ok := ← need? r "ok" bool?, reason := ← maybe? r "reason" str? }

end Ack

namespace QueueSnapshot

/-- A snapshot as an object. -/
def toJson (s : QueueSnapshot) : Json :=
  .obj [("name", .str s.name), ("priority", .int s.priority.toInt), ("queue_policy", .str s.policy),
    ("ready", .int s.ready.toNat), ("backing_off", .int s.delayed.toNat)]

/-- Read a snapshot. Every member is required. -/
def ofJson? (j : Json) : Option QueueSnapshot := do
  let r ← j.record? ["name", "priority", "queue_policy", "ready", "backing_off"]
  return {
    name := ← need? r "name" str?
    priority := ← need? r "priority" int32?
    policy := ← need? r "queue_policy" str?
    ready := ← need? r "ready" uint64?
    delayed := ← need? r "backing_off" uint64? }

end QueueSnapshot

end JobAdmission
