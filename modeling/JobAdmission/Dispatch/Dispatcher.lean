/-
Dispatching tasks, at most a fixed number of them at a time. A dispatch for which no slot is free
waits until one is, in the order in which the dispatches came.
-/
import JobAdmission.Dispatch.Semaphore
import JobAdmission.Error
import JobAdmission.Text.Shown

namespace JobAdmission

/-- The slots, and the tasks that occupy them. -/
structure Dispatcher (α : Type) where
  limit : Nat
  slots : Semaphore
  /-- The tasks under way, oldest first. -/
  tasks : List α

namespace Dispatcher

variable {α : Type}

/-- The largest number of slots. -/
def maxLimit : Nat := .pow 2 32 - 1

/-- A dispatcher with a number of slots, at least one. -/
def new (limit : Nat) : Dispatcher α :=
  let limit := min (max limit 1) maxLimit
  { limit, slots := .new limit, tasks := [] }

/-- The error of a dispatch after closing. -/
def closedError : AdmissionError := .backend "dispatcher closed"

/-- Take note of what became of a call for a slot: a task that got one is under way. -/
def settle (d : Dispatcher α) (task : α) : Acquisition × Semaphore → Acquisition × Dispatcher α
  | (.granted, slots) => (.granted, { d with slots, tasks := d.tasks ++ [task] })
  | (a, slots) => (a, { d with slots })

/-- Dispatch a task. -/
def dispatch (d : Dispatcher α) (task : α) : Acquisition × Dispatcher α :=
  d.settle task (d.slots.acquire 1)

/-- Look at a dispatch again that had to wait. -/
def poll (d : Dispatcher α) (ticket : Nat) (task : α) : Acquisition × Dispatcher α :=
  d.settle task (d.slots.poll ticket)

/-- Take a task out to be done. Its slot stays taken until it is given back. -/
def take? (d : Dispatcher α) (place : Nat) : Option (α × Dispatcher α) :=
  d.tasks[place]?.map fun task => (task, { d with tasks := d.tasks.eraseIdx place })

/-- Give back the slot of a task that is done. -/
def giveBack (d : Dispatcher α) : Dispatcher α := { d with slots := d.slots.release 1 }

/-- How many slots are taken, also by dispatches that have not picked theirs up. -/
def inFlight (d : Dispatcher α) : Nat := d.limit - d.slots.free

/-- Wait until every slot is free. A call that gets all slots gives them back at once, and a closed
dispatcher lets everybody go. -/
def awaitIdle (d : Dispatcher α) : Acquisition × Dispatcher α :=
  match d.slots.acquire d.limit with
  | (.granted, slots) => (.granted, { d with slots := slots.release d.limit })
  | (a, slots) => (a, { d with slots })

/-- Look at a call again that waits for every slot to be free. -/
def pollIdle (d : Dispatcher α) (ticket : Nat) : Acquisition × Dispatcher α :=
  match d.slots.poll ticket with
  | (.granted, slots) => (.granted, { d with slots := slots.release d.limit })
  | (a, slots) => (a, { d with slots })

/-- Whether a call that waits for every slot to be free would return now. -/
def isIdle (d : Dispatcher α) : Bool :=
  match d.awaitIdle.1 with
  | .waiting _ => false
  | _ => true

/-- Refuse dispatches from now on. Tasks under way go on. -/
def close (d : Dispatcher α) : Dispatcher α := { d with slots := d.slots.close }

/-- The inspection form of a dispatcher. -/
def shown (d : Dispatcher α) : String :=
  Text.openRecord "BoundedDispatcher"
    [("limit", toString d.limit), ("in_flight", toString d.inFlight)]

end Dispatcher

end JobAdmission
