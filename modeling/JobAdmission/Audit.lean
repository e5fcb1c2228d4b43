/-
The trail of scheduling decisions. Each decision about a job is recorded once. A trail in memory
keeps a bounded number of decisions and drops the oldest first.
-/
import JobAdmission.Json.Decode

namespace JobAdmission

/-- What was decided about a job. -/
inductive Action where
  | enqueue
  /-- It was admitted. -/
  | dequeue
  /-- It waits for another attempt. -/
  | backoff
  /-- It was given up. -/
  | discard
  /-- Whoever runs it was told that it may start. -/
  | release
deriving DecidableEq, Repr, Inhabited

namespace Action

/-- The name of an action. -/
def name : Action → String
  | enqueue => "enqueue"
  | dequeue => "dequeue"
  | backoff => "backoff"
  | discard => "discard"
  | release => "release"

/-- The action of a name. -/
def ofName? : String → Option Action
  | "enqueue" => some enqueue
  | "dequeue" => some dequeue
  | "backoff" => some backoff
  | "discard" => some discard
  | "release" => some release
  | _ => none

end Action

/-- A decision about the job of a key. -/
structure Decision where
  key : String
  queue : String
  action : Action
  message : Option String
deriving DecidableEq, Repr

/-- A decision with the identity and the time that it was sent out with. -/
structure AuditEvent where
  id : String
  decision : Decision
  /-- Milliseconds since the start of 1970. -/
  createdAt : Nat
deriving DecidableEq, Repr

namespace AuditEvent

open Json

/-- The members of an event. -/
def fieldNames : List String :=
  ["event_id", "unit", "queue", "action", "created_at_ms", "message"]

/-- An event as an object. A time beyond 64 bits can be read but not written. -/
def toJson? (e : AuditEvent) : Option Json :=
  if e.createdAt < .pow 2 64 then
    some (.obj [("event_id", .str e.id), ("unit", .str e.decision.key),
      ("queue", .str e.decision.queue), ("action", .str e.decision.action.name),
      ("created_at_ms", .int e.createdAt), ("message", e.decision.message.elim .null .str)])
  else none

/-- Read an event. All but the message are required, and in a list of fields that one too. -/
def ofJson? (j : Json) : Option AuditEvent := do
  if let .arr items := j then
    if items.length ≠ fieldNames.length then none
  let r ← j.record? fieldNames
  return {
    id := ← need? r "event_id" str?
    decision := {
      key := ← need? r "unit" str?
      queue := ← need? r "queue" str?
      action := ← need? r "action" fun a => a.choice?.bind Action.ofName?
      message := ← maybe? r "message" str? }
    createdAt := ← need? r "created_at_ms" (natBelow? (.pow 2 128)) }

end AuditEvent

/-- The latest decisions, oldest first, up to a number. They are kept in the form in which they are
recorded: bare, or as the events that were sent out. -/
structure AuditTrail (α : Type := Decision) where
  capacity : Nat
  decisions : List α
deriving DecidableEq, Repr

namespace AuditTrail

variable {α : Type}

/-- A trail without decisions. -/
def new (capacity : Nat) : AuditTrail α := ⟨capacity, []⟩

/-- Record a decision, dropping the oldest one of a full trail. -/
def record (t : AuditTrail α) (d : α) : AuditTrail α :=
  if t.capacity = 0 then t
  else if t.capacity ≤ t.decisions.length then { t with decisions := t.decisions.drop 1 ++ [d] }
  else { t with decisions := t.decisions ++ [d] }

/-- The recorded decisions about the job of a key, where `keyOf` tells the key that each is about. -/
def about (t : AuditTrail α) (keyOf : α → String) (key : String) : List α :=
  t.decisions.filter (keyOf · == key)

end AuditTrail

end JobAdmission
