/-
What a scheduler is wired to, and what changes while it runs. Everything outside the scheduler
lives in an environment `E`: what the plugins remember, the system of record, the handlers of
admitted jobs. The scheduler itself changes its queues, the dispatched confirmations, the cycle and
the turn it is in, and the trail of decisions.
-/
import JobAdmission.Audit
import JobAdmission.Dispatch.Dispatcher
import JobAdmission.Plugin.Pipeline
import JobAdmission.Queue.Set
import JobAdmission.Release.Routes

namespace JobAdmission

/-- The system of record of jobs, reached through an environment. -/
structure JobClient (E : Type) where
  /-- The current version of a job, by namespace and name. -/
  get : String → String → StateM E (Except AdmissionError Job)
  /-- Put a new version of a job on record. -/
  update : Job → StateM E (Except AdmissionError Unit)

/-- What a scheduler is wired to. -/
structure Wiring (E : Type) where
  pipeline : Pipeline E
  client : JobClient E
  /-- The handlers told of admissions, if any. -/
  routes : Option (ReleaseRoutes E)
  /-- The pause of the loop when no queue has a ready job. -/
  idleEvery : Nat

/-- A cycle that stopped before its candidate got a slot. -/
structure Suspension where
  candidate : Candidate
  /-- The ticket of the call for a slot, if it was made already. -/
  ticket : Option Nat

/-- What changes while a scheduler runs. -/
structure SchedulerState (E : Type) where
  now : Nat
  queues : QueueSet
  /-- The confirmations under way. -/
  dispatcher : Dispatcher Candidate
  /-- The cycle to be resumed before another is started. -/
  suspended : Option Suspension
  /-- How many more slots the loop is granted before it gives way. Outside the loop there is no
  limit. -/
  turn : Option Nat
  stopped : Bool
  trail : Option AuditTrail
  env : E

/-- A step of a scheduler. -/
abbrev Scheduling (E : Type) := StateM (SchedulerState E)

/-- What a cycle comes to. -/
inductive Outcome where
  /-- No queue has a ready job. -/
  | idle
  /-- A job was reserved and its confirmation is under way. -/
  | confirming
  /-- A job could not be admitted and was handed to the retry path. -/
  | retrying
  /-- A job was reserved and has no slot yet. -/
  | blocked
deriving DecidableEq, Repr, Inhabited

/-- The name of an outcome. -/
def Outcome.name : Outcome → String
  | idle => "Idle"
  | confirming => "Confirming"
  | retrying => "Retrying"
  | blocked => "blocked"

namespace Scheduling

variable {E : Type}

/-- Act on the environment. -/
def consult {α : Type} (act : StateM E α) : Scheduling E α := fun s =>
  let (a, env) := act s.env
  (a, { s with env })

/-- Record a decision, if a trail is kept. -/
def record (d : Decision) : Scheduling E Unit :=
  modify fun s => { s with trail := s.trail.map (·.record d) }

/-- Record what was decided about a candidate. -/
def decide (c : Candidate) (action : Action) (message : Option String) : Scheduling E Unit :=
  record { key := c.key, queue := c.job.queueName, action, message }

/-- Let task time pass for the background flushes. -/
def elapse (span : Nat) : Scheduling E Unit :=
  modify fun s => { s with queues := s.queues.elapse s.now span }

end Scheduling

end JobAdmission
