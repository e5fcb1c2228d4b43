/-
Telling whoever runs a job that it may start. Handlers are found by the kind of the job.
-/
import JobAdmission.Job.Basic
import JobAdmission.Text.Shown

namespace JobAdmission

/-- Whoever runs the jobs of some kind, reached through an environment. -/
structure ReleaseHandler (E : Type) where
  /-- Told that a job has left its queue. -/
  dequeued : Job → StateM E (Except AdmissionError Unit)
  /-- Told to let a job start. -/
  release : Job → StateM E (Except AdmissionError Unit)

/-- Connecting to the handler of a kind of job at an address. -/
abbrev Connector (E : Type) :=
  String → String → StateM E (Except AdmissionError (ReleaseHandler E))

/-- The handlers by kind of job. -/
structure ReleaseRoutes (E : Type) where
  handlers : NameMap (ReleaseHandler E)

namespace ReleaseRoutes

variable {E : Type}

/-- No handlers. -/
def empty : ReleaseRoutes E := ⟨.empty⟩

/-- Send the jobs of a kind to a handler. -/
def register (r : ReleaseRoutes E) (kind : String) (h : ReleaseHandler E) : ReleaseRoutes E :=
  ⟨r.handlers.insert kind h⟩

/-- Whether the jobs of a kind have a handler. -/
def handles (r : ReleaseRoutes E) (kind : String) : Bool := r.handlers.contains kind

/-- The routes of pairs of a kind and an address, one handler connected for each. -/
def connectAll (connect : Connector E) : ReleaseRoutes E → List (String × String) →
    StateM E (Except AdmissionError (ReleaseRoutes E))
  | r, [] => pure (.ok r)
  | r, (kind, address) :: rest => do
    match ← connect kind address with
    | .error e => pure (.error e)
    | .ok h => connectAll connect (r.register kind h) rest

/-- The routes of extensions, connected in the order in which they are listed. -/
def ofListing (connect : Connector E) (listing : List (String × String)) :
    StateM E (Except AdmissionError (ReleaseRoutes E)) :=
  connectAll connect empty listing

/-- The routes of extensions, connected in the order of the kinds of jobs. -/
def ofExtensions (connect : Connector E) (extensions : NameMap String) :
    StateM E (Except AdmissionError (ReleaseRoutes E)) :=
  ofListing connect extensions.entries

/-- Tell the handler of a job that it has left its queue. Says whether there is one. -/
def notifyDequeued (r : ReleaseRoutes E) (j : Job) : StateM E (Except AdmissionError Bool) :=
  match r.handlers.get? j.kind with
  | none => pure (.ok false)
  | some h => do
    match ← h.dequeued j with
    | .ok () => pure (.ok true)
    | .error e => pure (.error e)

/-- Tell the handler of a job to let it start. -/
def release (r : ReleaseRoutes E) (j : Job) : StateM E (Except AdmissionError Unit) :=
  match r.handlers.get? j.kind with
  | none => pure (.error (.notFound ("release handler for " ++ j.kind)))
  | some h => h.release j

/-- The inspection form of the routes. -/
def shown (r : ReleaseRoutes E) : String :=
  Text.closedRecord "ReleaseRouter"
    [("job_types", Text.listing (r.handlers.names.map Text.quoted))]

end ReleaseRoutes

end JobAdmission
