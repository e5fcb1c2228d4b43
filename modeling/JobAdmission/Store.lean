/-
The system of record of jobs, kept in memory. It can be told to refuse a number of updates.
-/
import JobAdmission.Job.Basic

namespace JobAdmission

/-- The jobs on record, by key. -/
structure JobStore where
  jobs : NameMap Job
  /-- How many of the next updates are refused. -/
  refusals : Nat
  updateCalls : Nat
deriving DecidableEq

namespace JobStore

/-- A store without jobs. -/
def empty : JobStore := ⟨.empty, 0, 0⟩

instance : Inhabited JobStore := ⟨empty⟩

/-- Put a job on record. -/
def insert (s : JobStore) (j : Job) : JobStore := { s with jobs := s.jobs.insert j.key j }

/-- The job on record. -/
def find? (s : JobStore) (ns name : String) : Option Job := s.jobs.get? (Job.keyOf ns name)

/-- Strike a job off the record. -/
def remove (s : JobStore) (ns name : String) : Option Job × JobStore :=
  (s.find? ns name, { s with jobs := s.jobs.erase (Job.keyOf ns name) })

/-- The job on record, or the error that it is gone. -/
def get (s : JobStore) (ns name : String) : Except AdmissionError Job :=
  match s.find? ns name with
  | some j => .ok j
  | none => .error (.notFound (Job.keyOf ns name))

/-- Replace the job on record by another version of it. -/
def update (s : JobStore) (j : Job) : Except AdmissionError Unit × JobStore :=
  let s := { s with updateCalls := s.updateCalls + 1 }
  if s.refusals > 0 then
    (.error (.client ("update of " ++ j.key ++ " refused")), { s with refusals := s.refusals - 1 })
  else if s.jobs.contains j.key then (.ok (), s.insert j)
  else (.error (.notFound j.key), s)

end JobStore

end JobAdmission
