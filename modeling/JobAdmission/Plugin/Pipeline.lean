/-
The enabled plugins, filed by capability. Filters are asked in the order in which their plugins
were enabled, up to the first that refuses; so are reservations. Giving back asks every reservation
whatever the others answer. A reservation that was refused half way is not undone here: whoever
asked for it decides about that.
-/
import JobAdmission.Plugin.Basic

namespace JobAdmission

/-- Why the enabled plugins do not make a pipeline. -/
inductive PipelineFault where
  | unknownPlugin (name : String)
  | pluginFailed (name : String) (cause : AdmissionError)
  | secondQueueOrder (name : String)
  | noQueueOrder
deriving DecidableEq, Repr

namespace PipelineFault

/-- The sentence shown for a fault. -/
def message : PipelineFault → String
  | unknownPlugin name => "unknown plugin `" ++ name ++ "`"
  | pluginFailed name cause => "plugin `" ++ name ++ "` failed: " ++ cause.message
  | secondQueueOrder name =>
    "plugin `" ++ name ++ "` is a second multi-queue sort plugin, only one may be enabled"
  | noQueueOrder => "no multi-queue sort plugin enabled"

/-- A fault as a failure of the configuration. -/
def toError (f : PipelineFault) : AdmissionError := .config f.message

end PipelineFault

/-- The capabilities of the plugins filed so far, each with the name of its plugin. -/
structure PipelineParts (E : Type) where
  queueOrder : Option (String × QueueOrder)
  /-- The orders of jobs, by the name under which they were enabled. -/
  jobOrders : NameMap JobOrder
  filters : List (String × Consultation E)
  reservations : List (String × Reservation E)

/-- Plugins ready to be asked. -/
structure Pipeline (E : Type) where
  queueOrder : String × QueueOrder
  jobOrders : NameMap JobOrder
  filters : List (String × Consultation E)
  reservations : List (String × Reservation E)

namespace PipelineParts

variable {E : Type}

/-- Nothing filed yet. -/
def empty : PipelineParts E := ⟨none, .empty, [], []⟩

/-- File the capabilities of a plugin enabled under a name. -/
def file (parts : PipelineParts E) (name : String) (p : Plugin E) :
    Except PipelineFault (PipelineParts E) :=
  if p.queueOrder.isSome && parts.queueOrder.isSome then .error (.secondQueueOrder name)
  else .ok {
    queueOrder := parts.queueOrder <|> p.queueOrder.map fun o => (p.name, o)
    jobOrders := match p.jobOrder with
      | some o => parts.jobOrders.insert name o
      | none => parts.jobOrders
    filters := parts.filters ++ (p.filter.map fun f => (p.name, f)).toList
    reservations := parts.reservations ++ (p.reservation.map fun r => (p.name, r)).toList }

/-- Make and file the plugins of the enabled names one after the other. -/
def fileAll (catalog : Catalog E) (quotas : QuotaListing E) :
    PipelineParts E → List String → StateM E (Except PipelineFault (PipelineParts E))
  | parts, [] => pure (.ok parts)
  | parts, name :: rest =>
    match catalog.factory? name with
    | none => pure (.error (.unknownPlugin name))
    | some make => do
      match ← make quotas with
      | .error cause => pure (.error (.pluginFailed name cause))
      | .ok p =>
        match parts.file name p with
        | .error fault => pure (.error fault)
        | .ok parts => fileAll catalog quotas parts rest

/-- The pipeline of the parts, which need an order of queues. -/
def finish (parts : PipelineParts E) : Except PipelineFault (Pipeline E) :=
  match parts.queueOrder with
  | none => .error .noQueueOrder
  | some queueOrder => .ok { parts with queueOrder }

end PipelineParts

namespace Pipeline

variable {E : Type}

/-- The pipeline of the enabled plugins. -/
def build (catalog : Catalog E) (quotas : QuotaListing E) (enabled : List String) :
    StateM E (Except PipelineFault (Pipeline E)) := do
  let parts ← PipelineParts.fileAll catalog quotas .empty enabled
  return parts.bind PipelineParts.finish

/-- The names of the orders of jobs. -/
def policies (p : Pipeline E) : List String := p.jobOrders.names

/-- Ask one after the other until one refuses. -/
def askInTurn : List (Consultation E) → Consultation E
  | [], _ => pure .success
  | ask :: rest, c => do
    let v ← ask c
    if v.isSuccess then askInTurn rest c else pure v

/-- Ask the filters. -/
def filter (p : Pipeline E) : Consultation E := askInTurn (p.filters.map (·.2))

/-- Ask the reservations to commit. -/
def reserve (p : Pipeline E) : Consultation E := askInTurn (p.reservations.map (·.2.reserve))

/-- Ask every one, whatever it answers. -/
def askAll : List (Consultation E) → Candidate → StateM E PUnit
  | [], _ => pure ()
  | ask :: rest, c => do
    let _ ← ask c
    askAll rest c

/-- Ask the reservations to give back. -/
def unreserve (p : Pipeline E) : Candidate → StateM E PUnit :=
  askAll (p.reservations.map (·.2.unreserve))

/-- The inspection form of a pipeline. -/
def shown (p : Pipeline E) : String :=
  Text.closedRecord "Framework"
    [("multi_queue_sort", Text.quoted p.queueOrder.1),
      ("queue_sort", Text.listing (p.policies.map Text.quoted)),
      ("filters", Text.listing (p.filters.map fun f => Text.quoted f.1)),
      ("reserves", Text.listing (p.reservations.map fun r => Text.quoted r.1))]

end Pipeline

end JobAdmission
