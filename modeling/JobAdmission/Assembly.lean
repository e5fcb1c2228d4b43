/-
Assembling a scheduler from a configuration and its collaborators. Everything is checked before
the scheduler exists: the configuration, that the collaborators are there, that the plugins make a
pipeline which orders queues and jobs, and that the configured handlers can be reached.
-/
import JobAdmission.Config.Basic
import JobAdmission.Scheduler.Basic

namespace JobAdmission

/-- What a scheduler is assembled from. -/
structure Blueprint (E : Type) where
  config : Config
  catalog : Catalog E
  client : Option (JobClient E)
  quotas : Option (QuotaListing E)
  /-- The handlers of admitted jobs, in the place of the configured ones. -/
  routes : Option (ReleaseRoutes E)
  /-- How to connect to a configured handler, given the kind of job and the address. -/
  connect : Option (Connector E)
  trail : Option AuditTrail
  processors : Nat

/-- Why a scheduler cannot be assembled. -/
inductive AssemblyFault where
  | badConfig (cause : ConfigFault)
  | noClient
  | noQuotas
  | badPlugins (cause : PipelineFault)
  | noSuchDefaultPolicy (name : String)
  /-- Handlers are configured, and there is no way to reach them. -/
  | noConnector
deriving DecidableEq, Repr

namespace AssemblyFault

/-- The sentence shown for a fault. -/
def message : AssemblyFault → String
  | badConfig cause => "config invalid: " ++ cause.message
  | noClient => "unit client not set"
  | noQuotas => "quota lister not set"
  | badPlugins cause => cause.message
  | noSuchDefaultPolicy name =>
    "default queue policy `" ++ name ++ "` is not an enabled queue sort plugin"
  | noConnector => "extensions configured but no release connector or router set"

/-- A fault as a failure of the configuration. -/
def toError (f : AssemblyFault) : AdmissionError := .config f.message

end AssemblyFault

namespace Blueprint

variable {E : Type}

/-- A collaborator that has to be there. -/
def require {α : Type} (fault : AssemblyFault) : Option α → Except AdmissionError α
  | some a => .ok a
  | none => .error fault.toError

/-- The handlers of admitted jobs: those given, or else those configured, which are connected in the
order of `listing`. -/
def routing (b : Blueprint E) (listing : List (String × String)) :
    StateM E (Except AdmissionError (Option (ReleaseRoutes E))) :=
  match b.routes, b.connect with
  | some routes, _ => pure (.ok (some routes))
  | none, some connect => do
    match ← ReleaseRoutes.ofListing connect listing with
    | .ok routes => pure (.ok (some routes))
    | .error e => pure (.error e)
  | none, none =>
    pure (if b.config.extensions.isEmpty then .ok none
      else .error AssemblyFault.noConnector.toError)

/-- What the queues have in common under a pipeline. -/
def rules (b : Blueprint E) (p : Pipeline E) : QueueRules :=
  { queueOrder := p.queueOrder.2
    jobOrders := p.jobOrders
    timing := b.config.timing
    defaultPolicy := b.config.defaultPolicy }

/-- The queues that exist from the start. -/
def queues (b : Blueprint E) (p : Pipeline E) : Except AdmissionError QueueSet :=
  b.config.queues.foldlM QueueSet.add (.new (b.rules p))

/-- Assemble a scheduler in an environment, with the configured handlers listed in some order. -/
def assembleListed (b : Blueprint E) (listing : List (String × String)) (env : E) :
    Except AdmissionError (Wiring E × SchedulerState E) := do
  if let .error cause := b.config.validate then
    throw (AssemblyFault.badConfig cause).toError
  let client ← require .noClient b.client
  let quotas ← require .noQuotas b.quotas
  let (pipeline, env) := Pipeline.build b.catalog quotas b.config.plugins env
  let pipeline ← pipeline.mapError fun cause => (AssemblyFault.badPlugins cause).toError
  unless pipeline.jobOrders.contains b.config.defaultPolicy do
    throw (AssemblyFault.noSuchDefaultPolicy b.config.defaultPolicy).toError
  let (routes, env) := b.routing listing env
  let routes ← routes
  let queues ← b.queues pipeline
  return ({ pipeline, client, routes, idleEvery := b.config.idleEvery },
    { now := 0, queues, dispatcher := .new (b.config.inflightLimit b.processors),
      suspended := none, turn := none, stopped := false, trail := b.trail, env })

/-- Assemble a scheduler in an environment, connecting in the order of the kinds of jobs. -/
def assemble (b : Blueprint E) (env : E) : Except AdmissionError (Wiring E × SchedulerState E) :=
  b.assembleListed b.config.extensions.entries env

end Blueprint

end JobAdmission
