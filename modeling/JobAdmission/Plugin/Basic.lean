/-
Plugins of the scheduler. A plugin has a name and any of four capabilities: an order of queues, an
order of jobs, a filter that says whether a job may be admitted now, and a reservation that commits
resources and gives them back. Filters and reservations act on an environment `E`, which holds
whatever the plugins remember and consult.
-/
import JobAdmission.Queue.Basic
import JobAdmission.Quota.Basic

namespace JobAdmission

/-- The class of an answer. -/
inductive VerdictCode where
  | success
  /-- The plugin could not decide, or met something it did not expect. -/
  | error
  /-- The job cannot be admitted now. -/
  | unschedulable
  /-- The job cannot be admitted, and trying again does not help by itself. -/
  | unresolvable
deriving DecidableEq, Repr, Inhabited

/-- The name of a class. -/
def VerdictCode.name : VerdictCode → String
  | success => "Success"
  | error => "Error"
  | unschedulable => "Unschedulable"
  | unresolvable => "UnschedulableAndUnresolvable"

/-- The class of a name; a name that is not known stands for an error. -/
def VerdictCode.ofName : String → VerdictCode
  | "Success" => success
  | "Unschedulable" => unschedulable
  | "UnschedulableAndUnresolvable" => unresolvable
  | _ => error

/-- The answer of a plugin: a class and a reason for people. -/
structure Verdict where
  code : VerdictCode
  message : String
deriving DecidableEq, Repr, Inhabited

namespace Verdict

/-- Acceptance without a reason. -/
def success : Verdict := ⟨.success, ""⟩

/-- The answer of a plugin that could not decide. -/
def error (message : String) : Verdict := ⟨.error, message⟩

/-- Whether the job is accepted. -/
def isSuccess (v : Verdict) : Bool := v.code == .success

/-- The written form of an answer. -/
def text (v : Verdict) : String := v.code.name ++ ": " ++ v.message

end Verdict

/-- Whether the first queue is to be visited before the second. -/
abbrev QueueOrder := QueueDef → QueueDef → Bool

/-- A question about a candidate, which may change the environment. -/
abbrev Consultation (E : Type) := Candidate → StateM E Verdict

/-- Committing resources for a job and giving them back. -/
structure Reservation (E : Type) where
  reserve : Consultation E
  unreserve : Consultation E

/-- A plugin over an environment. -/
structure Plugin (E : Type) where
  name : String
  queueOrder : Option QueueOrder
  jobOrder : Option JobOrder
  filter : Option (Consultation E)
  reservation : Option (Reservation E)

/-- A plugin that has a name only. -/
def Plugin.bare {E : Type} (name : String) : Plugin E :=
  { name, queueOrder := none, jobOrder := none, filter := none, reservation := none }

/-- The quotas of a namespace, as an environment lists them. -/
abbrev QuotaListing (E : Type) := E → String → Except AdmissionError (List Quota)

/-- Making a plugin that may consult a listing of quotas. It may set something up in the
environment. -/
abbrev Factory (E : Type) := QuotaListing E → StateM E (Except AdmissionError (Plugin E))

/-- The plugins that can be made, by name, in the order in which they were registered. -/
structure Catalog (E : Type) where
  factories : List (String × Factory E)

namespace Catalog

variable {E : Type}

/-- The catalog without plugins. -/
def empty : Catalog E := ⟨[]⟩

/-- The registered names. -/
def names (c : Catalog E) : List String := c.factories.map (·.1)

/-- Whether a name is registered. -/
def contains (c : Catalog E) (name : String) : Bool := c.names.contains name

/-- Add a plugin under a name that is not taken yet. -/
def register (c : Catalog E) (name : String) (factory : Factory E) :
    Except AdmissionError (Catalog E) :=
  if c.contains name then .error (.duplicateKey name)
  else .ok ⟨c.factories ++ [(name, factory)]⟩

/-- The way to make the plugin of a name. -/
def factory? (c : Catalog E) (name : String) : Option (Factory E) :=
  (c.factories.find? (·.1 == name)).map (·.2)

/-- The inspection form of a catalog. -/
def shown (c : Catalog E) : String := Text.listing (c.names.map Text.quoted)

end Catalog

end JobAdmission
