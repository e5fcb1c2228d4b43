/-
Applying the events of the feeds. A job that waits goes to its queue; a job that is admitted only
concerns the reservations, which are taken when it is seen for the first time after a restart and
given back when it disappears.
-/
import JobAdmission.Feed.Event
import JobAdmission.Scheduler.Basic

namespace JobAdmission.Scheduling

variable {E : Type}

/-! ## Jobs -/

/-- The error that a queue does not exist. -/
def noSuchQueue (name : String) : AdmissionError := .notFound ("queue " ++ name)

/-- Put a waiting job into its queue. -/
def enqueue (job : Job) : Scheduling E (Except AdmissionError Unit) := do
  let s ← get
  match s.queues.lookup? job.queueName with
  | none => return .error (noSuchQueue job.queueName)
  | some (id, q) =>
    match q.submit s.now job with
    | .error e => return .error e
    | .ok q =>
      set { s with queues := s.queues.put id q }
      record { key := job.key, queue := q.name, action := .enqueue, message := none }
      return .ok ()

/-- Take a waiting job out of its queue, if it is there. -/
def withdraw (job : Job) : Scheduling E Unit :=
  modify fun s =>
    match s.queues.lookup? job.queueName with
    | none => s
    | some (id, q) => { s with queues := s.queues.put id (q.remove job.key).2 }

/-- Take the reservations of an admitted job; one that has them keeps them. -/
def reserveAdmitted (w : Wiring E) (job : Job) : Scheduling E Unit := do
  let _ ← consult (w.pipeline.reserve (.fresh job (← get).now))

/-- Give back the reservations of an admitted job. -/
def unreserveAdmitted (w : Wiring E) (job : Job) : Scheduling E Unit := do
  consult (w.pipeline.unreserve (.fresh job (← get).now))

/-- Replace a waiting job by another version of it in the same queue. A job that the queue does not
hold is passed over. -/
def updateQueued (old new : Job) : Scheduling E (Except AdmissionError Unit) := do
  let s ← get
  match s.queues.lookup? new.queueName with
  | none => return .error (noSuchQueue new.queueName)
  | some (id, q) =>
    set { s with queues := s.queues.put id (q.update old new).2 }
    return .ok ()

/-- A job appeared. -/
def addJob (w : Wiring E) (job : Job) : Scheduling E (Except AdmissionError Unit) :=
  match job.phase with
  | .enqueued => enqueue job
  | .dequeued => do
    reserveAdmitted w job
    return .ok ()

/-- A job changed. A change of phase is a removal on one side and an addition on the other. -/
def updateJob (w : Wiring E) (old new : Job) : Scheduling E (Except AdmissionError Unit) :=
  match old.phase, new.phase with
  | .enqueued, .enqueued =>
    if old.queueName = new.queueName then updateQueued old new
    else do
      withdraw old
      enqueue new
  | .enqueued, .dequeued => do
    withdraw old
    reserveAdmitted w new
    return .ok ()
  | .dequeued, .enqueued => do
    unreserveAdmitted w old
    enqueue new
  | .dequeued, .dequeued => return .ok ()

/-- A job disappeared. -/
def deleteJob (w : Wiring E) (job : Job) : Scheduling E Unit :=
  match job.phase with
  | .enqueued => withdraw job
  | .dequeued => unreserveAdmitted w job

/-- Apply an event of the job feed. -/
def applyJobEvent (w : Wiring E) : JobEvent → Scheduling E Ack
  | .added job => return .ofResult (← addJob w job)
  | .updated old new => return .ofResult (← updateJob w old new)
  | .deleted job => do
    deleteJob w job
    return .accepted

/-! ## Queues -/

/-- Change the queues if nothing fails. -/
def changeQueues (change : QueueSet → Except AdmissionError QueueSet) : Scheduling E Ack := do
  let s ← get
  match change s.queues with
  | .error e => return .rejected e.message
  | .ok queues =>
    set { s with queues }
    return .accepted

/-- Apply an event of the queue feed. -/
def applyQueueEvent : QueueEvent → Scheduling E Ack
  | .added queue => changeQueues (·.add queue)
  | .updated old new => changeQueues (·.update old new)
  | .deleted name => do
    let s ← get
    let (found, queues) := s.queues.delete name
    set { s with queues }
    return if found then .accepted else .rejected ("queue " ++ name ++ " not found")

/-- The queues in the order in which they are visited. -/
def listQueues (queues : QueueSet) : List QueueSnapshot :=
  queues.visited.map fun (_, q) =>
    { name := q.name, priority := q.definition.priority, policy := q.definition.policy
      ready := .ofNat q.readyCount, delayed := .ofNat q.delayedCount }

/-- The inspection form of the router of events. -/
def shownFeed (s : SchedulerState E) : String :=
  Text.openRecord "Controller" [("queues", Text.listing (s.queues.names.map Text.quoted))]

end JobAdmission.Scheduling
