/-
The quotas known in memory, by namespace, each in the order in which its name was first entered.
-/
import JobAdmission.Quota.Basic

namespace JobAdmission

/-- Quotas by namespace. -/
structure QuotaBook where
  byNamespace : NameMap (List Quota)
  offline : Bool
deriving DecidableEq

namespace QuotaBook

/-- A book without quotas. -/
def empty : QuotaBook := ⟨.empty, false⟩

instance : Inhabited QuotaBook := ⟨empty⟩

/-- The quotas entered for a namespace. -/
def entered (b : QuotaBook) (ns : String) : List Quota := (b.byNamespace.get? ns).getD []

/-- Put a quota in the place of the one with its name, or at the end. -/
def putInto : List Quota → Quota → List Quota
  | [], q => [q]
  | x :: rest, q => if x.name = q.name then q :: rest else x :: putInto rest q

/-- Enter a quota. -/
def set (b : QuotaBook) (q : Quota) : QuotaBook :=
  { b with byNamespace := b.byNamespace.insert q.ns (putInto (b.entered q.ns) q) }

/-- Strike the quotas of a name from a namespace. Says whether there was one. -/
def remove (b : QuotaBook) (ns name : String) : Bool × QuotaBook :=
  match b.byNamespace.get? ns with
  | none => (false, b)
  | some quotas =>
    let rest := quotas.filter (·.name != name)
    (rest.length != quotas.length, { b with byNamespace := b.byNamespace.insert ns rest })

/-- The quotas of a namespace, as a listing that may fail. -/
def list (b : QuotaBook) (ns : String) : Except AdmissionError (List Quota) :=
  if b.offline then .error (.client ("cannot list " ++ ns)) else .ok (b.entered ns)

end QuotaBook

end JobAdmission
