/-
Jobs that wait for admission, and the record that scheduling keeps of each.
-/
import JobAdmission.Resources

namespace JobAdmission

/-- Where a job stands: waiting for admission, or admitted with its resources reserved. -/
inductive Phase where
  | enqueued
  | dequeued
deriving DecidableEq, Repr, Inhabited

/-- A gated job that asks for resources. -/
structure Job where
  ns : String
  name : String
  /-- An identity given from outside, when known. -/
  uid : Option String
  kind : String
  /-- Jobs of higher priority go first. -/
  priority : Option Int32
  /-- The queue it belongs to; an empty name stands for the default queue. -/
  queue : String
  resources : Resources
  phase : Phase
  /-- A note for people, set when the phase changes. -/
  note : Option String
deriving DecidableEq

namespace Job

/-- The queue of jobs that name none. -/
def defaultQueue : String := "default"

/-- A waiting job in the default queue that asks for nothing. -/
def new (ns name kind : String) : Job :=
  { ns, name, uid := none, kind, priority := none, queue := defaultQueue,
    resources := .empty, phase := .enqueued, note := none }

instance : Inhabited Job := ⟨new "" "" ""⟩

/-- The key of a namespace and a name. -/
def keyOf (ns name : String) : String := ns ++ "/" ++ name

/-- The key under which queues and the ledger hold the job. -/
def key (j : Job) : String := keyOf j.ns j.name

/-- The name of its queue. -/
def queueName (j : Job) : String := if j.queue.isEmpty then defaultQueue else j.queue

/-- Its priority, zero if it has none. -/
def effectivePriority (j : Job) : Int32 := j.priority.getD 0

end Job

/-- A job with the record of its attempts. Times are nanoseconds of the clock. -/
structure Candidate where
  /-- The key it is held under. -/
  key : String
  job : Job
  /-- When it was last queued or retried. -/
  since : Nat
  attempts : Nat
  /-- When it was first queued. -/
  firstSeen : Nat
deriving DecidableEq, Inhabited

namespace Candidate

/-- A job seen for the first time. -/
def fresh (job : Job) (now : Nat) : Candidate :=
  { key := job.key, job, since := now, attempts := 0, firstSeen := now }

/-- The same record about another version of the job. -/
def replace (c : Candidate) (job : Job) : Candidate :=
  { c with key := job.key, job }

/-- The largest count of attempts. -/
def maxAttempts : Nat := .pow 2 32 - 1

/-- The record after one more failed attempt. The count stops at its largest value. -/
def failedAt (c : Candidate) (now : Nat) : Candidate :=
  { c with attempts := min (c.attempts + 1) maxAttempts, since := now }

end Candidate

end JobAdmission
