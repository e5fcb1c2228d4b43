/-
A release handler that only records the keys it is told about, and can be switched to refusing.
-/
import JobAdmission.Job.Basic

namespace JobAdmission

/-- What a handler was told. -/
structure Recorder where
  /-- The keys of the jobs that left their queue, in order. -/
  dequeued : List String
  /-- The keys of the jobs that were let start, in order. -/
  released : List String
  failing : Bool
deriving DecidableEq, Repr

namespace Recorder

/-- A handler that was told nothing. -/
def empty : Recorder := ⟨[], [], false⟩

instance : Inhabited Recorder := ⟨empty⟩

/-- The refusal of a call about a job. -/
def refusal (j : Job) : AdmissionError := .client ("release handler refused " ++ j.key)

/-- A job has left its queue. -/
def noteDequeued (r : Recorder) (j : Job) : Except AdmissionError Unit × Recorder :=
  if r.failing then (.error (refusal j), r)
  else (.ok (), { r with dequeued := r.dequeued ++ [j.key] })

/-- A job is let start. -/
def noteReleased (r : Recorder) (j : Job) : Except AdmissionError Unit × Recorder :=
  if r.failing then (.error (refusal j), r)
  else (.ok (), { r with released := r.released ++ [j.key] })

end Recorder

end JobAdmission
