/-
Permissions to start, counted against the quota named `default` of each namespace. A registered
job may start when what dequeued jobs hold and what it asks for itself fit that quota, of which
only processors and memory count: a job that asks for anything else is refused.
-/
import JobAdmission.Quota.Basic
import JobAdmission.Text.Shown

namespace JobAdmission

/-- A job registered for permissions. -/
structure Registration where
  name : String
  resources : Resources
  phase : Phase
deriving DecidableEq

/-- The registered jobs of each namespace, by their identities. -/
structure Permissions where
  jobs : NameMap (NameMap Registration)
deriving DecidableEq

namespace Permissions

/-- The name of the quota that is consulted. -/
def quotaName : String := "default"

/-- The resources that count. -/
def counted : List String := ["cpu", "memory"]

/-- No registered jobs. -/
def empty : Permissions := ⟨.empty⟩

/-- The jobs of a namespace. -/
def jobsOf (p : Permissions) (ns : String) : NameMap Registration := (p.jobs.get? ns).getD .empty

/-- The job of an identity. -/
def find? (p : Permissions) (ns id : String) : Option Registration := (p.jobsOf ns).get? id

/-- Register a job, replacing the one of that identity. -/
def register (p : Permissions) (ns id : String) (r : Registration) : Permissions :=
  ⟨p.jobs.insert ns ((p.jobsOf ns).insert id r)⟩

/-- Forget a job. A namespace without jobs is dropped. -/
def unregister (p : Permissions) (ns id : String) : Permissions :=
  match p.jobs.get? ns with
  | none => p
  | some jobs =>
    let rest := jobs.erase id
    if rest.isEmpty then ⟨p.jobs.erase ns⟩ else ⟨p.jobs.insert ns rest⟩

/-- Count a job as holding its resources. Says whether it is registered. -/
def markDequeued (p : Permissions) (ns id : String) : Bool × Permissions :=
  match p.find? ns id with
  | none => (false, p)
  | some r => (true, p.register ns id { r with phase := .dequeued })

/-- What the dequeued jobs of a namespace hold together. -/
def reserved (p : Permissions) (ns : String) : Resources :=
  (p.jobsOf ns).values.foldl
    (fun total r => if r.phase = .dequeued then total.add r.resources else total) .empty

/-- The limits of a quota on the resources that count, zero where it names none. -/
def limits (hard : Option Resources) : Resources :=
  .ofList (counted.map fun name => (name, (hard.getD .empty).amount name))

/-- Whether a request fits limits of which something is held. -/
def fits (request held limit : Resources) : Bool :=
  request.entries.all fun e =>
    match limit.get? e.1 with
    | none => false
    | some most => 0 ≤ (most - held.amount e.1 - e.2).sign

/-- Whether a job may start, given the listing of the quotas of its namespace. A job that is not
registered asks for nothing; without the quota nothing may start. -/
def granted (p : Permissions) (quotas : Except AdmissionError (List Quota)) (ns id : String) :
    Except AdmissionError Bool := do
  match (← quotas).find? (·.name == quotaName) with
  | none => return false
  | some quota =>
    let request := ((p.find? ns id).map (·.resources)).getD .empty
    return fits request (p.reserved ns) (limits quota.hard)

/-- The inspection form. -/
def shown (p : Permissions) : String :=
  Text.openRecord "PermissionCounter" [("namespaces", toString p.jobs.size)]

end Permissions

end JobAdmission
