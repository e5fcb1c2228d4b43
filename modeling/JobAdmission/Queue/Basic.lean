/-
A named queue of jobs. It holds candidates in two heaps: `ready` in the order of the queue, and
`delayed`, by the end of their retry windows. A flush moves the candidates whose window has ended
from the second to the first. While the background flush runs it flushes at once and then at every
interval of task time. A closed queue takes no more jobs but still gives out and updates what it
holds.
-/
import JobAdmission.Heap.Basic
import JobAdmission.Queue.Definition
import JobAdmission.Queue.Retry
import JobAdmission.Text.Shown

namespace JobAdmission

instance : Keyed Candidate := ⟨Candidate.key⟩

/-- Whether the first candidate is to be tried before the second. -/
abbrev JobOrder := Candidate → Candidate → Bool

/-- A named queue. -/
structure JobQueue where
  definition : QueueDef
  timing : QueueTiming
  order : JobOrder
  /-- The candidates for the next attempt. -/
  ready : KeyedHeap Candidate
  /-- The candidates that wait for the end of their window. -/
  delayed : KeyedHeap Candidate
  closed : Bool
  /-- Whether the background flush was told to stop. -/
  stopped : Bool
  /-- The task time until the next background flush, while that runs. -/
  nextFlush : Option Nat

namespace JobQueue

/-- An open queue that holds nothing and does not flush by itself. -/
def new (definition : QueueDef) (order : JobOrder) (timing : QueueTiming) (stopped : Bool) :
    JobQueue :=
  { definition, timing, order, ready := .empty, delayed := .empty, closed := false, stopped,
    nextFlush := none }

/-- The name of the queue. -/
def name (q : JobQueue) : String := q.definition.name

/-- The order of the delayed candidates. -/
def byDeadline (q : JobQueue) : JobOrder := fun a b =>
  q.timing.retry.deadline a < q.timing.retry.deadline b

/-- How many candidates are ready. -/
def readyCount (q : JobQueue) : Nat := q.ready.size

/-- How many candidates are delayed. -/
def delayedCount (q : JobQueue) : Nat := q.delayed.size

/-- The candidate that `pop` would take. -/
def top? (q : JobQueue) : Option Candidate := q.ready.peek?

/-- Whether either heap holds a key. -/
def holds (q : JobQueue) (key : String) : Bool := q.ready.contains key || q.delayed.contains key

/-! ## Putting in -/

/-- Put a candidate among the ready ones. -/
def requeue (q : JobQueue) (c : Candidate) : Except AdmissionError JobQueue :=
  if q.closed then .error (.queueClosed q.name)
  else if q.delayed.contains c.key then .error (.duplicateKey c.key)
  else return { q with ready := ← q.ready.push q.order c }

/-- Put in a job that is seen for the first time. -/
def submit (q : JobQueue) (now : Nat) (job : Job) : Except AdmissionError JobQueue :=
  q.requeue (.fresh job now)

/-- Put in a candidate whose attempt failed, unless its key is held already. -/
def delay (q : JobQueue) (c : Candidate) : Except AdmissionError JobQueue :=
  if q.closed then .error (.queueClosed q.name)
  else if q.holds c.key then .ok q
  else return { q with delayed := ← q.delayed.push q.byDeadline c }

/-! ## Changing and taking out -/

/-- Replace the job held under a key by another version of it, which may have another key. The
result is `none` if the key is not held; otherwise it says whether the new version is held. A new
key that the heap holds already is not taken twice: the old entry is then gone. -/
def replaceIn (less : JobOrder) (h : KeyedHeap Candidate) (key : String) (job : Job) :
    Option (Bool × KeyedHeap Candidate) :=
  (h.find? key).map fun current =>
    let next := current.replace job
    if next.key = key then
      match h.update less next with
      | .ok h' => (true, h')
      | .error _ => (false, h)
    else
      let rest := match h.remove less key with
        | .ok (_, rest) => rest
        | .error _ => h
      match rest.push less next with
      | .ok h' => (true, h')
      | .error _ => (false, rest)

/-- Replace a held job by another version of it in the heap that holds it, keeping the record of
its attempts. Says whether that was done. -/
def update (q : JobQueue) (old new : Job) : Bool × JobQueue :=
  match replaceIn q.order q.ready old.key new with
  | some (done, ready) => (done, { q with ready })
  | none =>
    match replaceIn q.byDeadline q.delayed old.key new with
    | some (done, delayed) => (done, { q with delayed })
    | none => (false, q)

/-- Take out the job held under a key. Says whether there was one. -/
def remove (q : JobQueue) (key : String) : Bool × JobQueue :=
  match q.ready.remove q.order key with
  | .ok (_, ready) => (true, { q with ready })
  | .error _ =>
    match q.delayed.remove q.byDeadline key with
    | .ok (_, delayed) => (true, { q with delayed })
    | .error _ => (false, q)

/-- Take the first ready candidate. -/
def pop (q : JobQueue) : Except AdmissionError (Candidate × JobQueue) := do
  let (c, ready) ← q.ready.pop q.order
  return (c, { q with ready })

/-! ## Flushing -/

/-- Move up to `fuel` candidates whose window has ended at `now`, counting them. A candidate whose
key is ready already is dropped. -/
def flushUpTo (now : Nat) : Nat → JobQueue → Nat × JobQueue
  | 0, q => (0, q)
  | fuel + 1, q =>
    match q.delayed.peek? with
    | none => (0, q)
    | some head =>
      if q.timing.retry.deadline head > now then (0, q)
      else match q.delayed.pop q.byDeadline with
        | .error _ => (0, q)
        | .ok (c, delayed) =>
          match q.ready.push q.order c with
          | .ok ready =>
            let (n, q) := flushUpTo now fuel { q with ready, delayed }
            (n + 1, q)
          | .error _ => flushUpTo now fuel { q with delayed }

/-- Move every candidate whose window has ended at `now` to the ready ones. Says how many. -/
def flush (q : JobQueue) (now : Nat) : Nat × JobQueue := flushUpTo now q.delayedCount q

/-- Start the background flush; its first flush is due at once. An interval of zero never
flushes. -/
def start (q : JobQueue) : JobQueue :=
  if q.nextFlush.isSome || q.timing.flushEvery == 0 then q else { q with nextFlush := some 0 }

/-- Let task time pass while the clock shows `now`. The background flush ends when it was told to
stop; otherwise its due flushes are done. -/
def elapse (q : JobQueue) (now span : Nat) : JobQueue :=
  if q.stopped then { q with nextFlush := none }
  else match q.nextFlush with
    | none => q
    | some wait =>
      if wait ≤ span then
        let every := q.timing.flushWait
        { (q.flush now).2 with nextFlush := some (every - (span - wait) % every) }
      else { q with nextFlush := some (wait - span) }

/-- Tell the background flush to stop. -/
def stop (q : JobQueue) : JobQueue := { q with stopped := true }

/-- Take no more jobs, and stop the background flush. -/
def close (q : JobQueue) : JobQueue := { q with closed := true, stopped := true }

/-! ## Moving to another queue -/

/-- Everything a queue holds, taken out of it: the ready and the delayed candidates. -/
def takeAll (q : JobQueue) : (List Candidate × List Candidate) × JobQueue :=
  ((q.ready.toList, q.delayed.toList), { q with ready := .empty, delayed := .empty })

/-- Put in candidates one after the other, dropping those that are refused. Says how many were
not. -/
def receive (put : JobQueue → Candidate → Except AdmissionError JobQueue) (q : JobQueue)
    (cs : List Candidate) : Nat × JobQueue :=
  cs.foldl (fun (n, q) c => match put q c with
    | .ok q' => (n + 1, q')
    | .error _ => (n, q)) (0, q)

/-- Put in what another queue held: its ready candidates among the ready ones, its delayed
candidates among the delayed ones. Says how many were not refused. -/
def receiveAll (q : JobQueue) (held : List Candidate × List Candidate) : Nat × JobQueue :=
  let (n, q) := receive requeue q held.1
  let (m, q) := receive delay q held.2
  (n + m, q)

/-! ## Inspection -/

/-- The inspection form of a queue. -/
def shown (q : JobQueue) : String :=
  Text.closedRecord "SchedulingQueue"
    [("name", Text.quoted q.name), ("active", toString q.readyCount),
      ("backoff", toString q.delayedCount), ("closed", toString q.closed)]

end JobQueue

end JobAdmission
