/-
The reservation ledger: what admitted jobs have reserved in each namespace, and the keys of the
jobs that hold a reservation. A request is checked against the limits of the governing quota with
what is already reserved; resources that the quota does not name are not limited.
-/
import JobAdmission.Plugin.Basic
import JobAdmission.Quota.Basic

namespace JobAdmission

/-- What is reserved, and by whom. -/
structure Ledger where
  reserved : NameMap Resources
  /-- The keys of the jobs that hold a reservation. -/
  holders : NameSet
deriving DecidableEq

/-- Why a request does not fit the quota of its namespace. -/
inductive QuotaFault where
  /-- The quotas could not be listed, or none of them governs. -/
  | noQuota (cause : AdmissionError)
  /-- The governing quota states no limits. -/
  | noLimits (quota : String)
  /-- The sum with what is reserved is not representable. -/
  | overflow (quota resource : String) (already requested : Quantity)
  /-- The sum with what is reserved exceeds the limit. -/
  | insufficient (quota resource : String) (wanted limit requested : Quantity)
deriving DecidableEq, Repr

/-- The sentence shown for a fault. -/
def QuotaFault.message : QuotaFault → String
  | noQuota cause => cause.message
  | noLimits quota => "cannot find hard limit in the status of resource quota " ++ quota
  | overflow quota resource already requested =>
    "request " ++ requested.render ++ " for " ++ resource ++ " overflows reserved "
      ++ already.render ++ " in resource quota " ++ quota
  | insufficient quota resource wanted limit requested =>
    "insufficient resource left for " ++ resource ++ " in resource quota " ++ quota
      ++ " reserved " ++ wanted.render ++ "/" ++ limit.render
      ++ ", request " ++ requested.render

namespace Ledger

/-- The ledger in which nothing is reserved. -/
def empty : Ledger := ⟨.empty, .empty⟩

instance : Inhabited Ledger := ⟨empty⟩

/-- What is reserved in a namespace. -/
def reservedFor (l : Ledger) (ns : String) : Resources := (l.reserved.get? ns).getD .empty

/-- How much of a resource is reserved in a namespace. -/
def reservedAmount (l : Ledger) (ns resource : String) : Quantity :=
  (l.reservedFor ns).amount resource

/-- Whether the job of a key holds a reservation. -/
def isReserved (l : Ledger) (key : String) : Bool := l.holders.contains key

/-! ## Checking a request -/

/-- Check one resource of a request. -/
def checkEntry (quota : String) (hard already : Resources) (e : String × Quantity) :
    Except QuotaFault Unit :=
  match hard.get? e.1 with
  | none => .ok ()
  | some limit =>
    match (already.amount e.1).checkedAdd? e.2 with
    | none => .error (.overflow quota e.1 (already.amount e.1) e.2)
    | some wanted =>
      if limit < wanted then .error (.insufficient quota e.1 wanted limit e.2) else .ok ()

/-- Check all resources of a request in the order of their names. -/
def checkEntries (quota : String) (hard already : Resources) :
    List (String × Quantity) → Except QuotaFault Unit
  | [] => .ok ()
  | e :: rest => do
    checkEntry quota hard already e
    checkEntries quota hard already rest

/-- Check the request of a candidate against a listing of the quotas of its namespace. -/
def check (l : Ledger) (quotas : Except AdmissionError (List Quota)) (c : Candidate) :
    Except QuotaFault Unit :=
  match quotas.bind (Quota.governing · c.job.ns) with
  | .error cause => .error (.noQuota cause)
  | .ok quota =>
    match quota.hard with
    | none => .error (.noLimits quota.name)
    | some hard =>
      checkEntries quota.name hard (l.reservedFor c.job.ns) c.job.resources.entries

/-- The answer to a candidate whose request is to be checked. -/
def filter (l : Ledger) (quotas : Except AdmissionError (List Quota)) (c : Candidate) : Verdict :=
  match l.check quotas c with
  | .ok () => .success
  | .error fault => .error fault.message

/-! ## Reserving and giving back -/

/-- Reserve what a candidate asks for, unless its key holds a reservation. -/
def reserve (l : Ledger) (c : Candidate) : Verdict × Ledger :=
  if l.isReserved c.key then
    (.error ("queue unit " ++ c.key ++ " already reserved"), l)
  else
    (.success, {
      reserved := l.reserved.insert c.job.ns ((l.reservedFor c.job.ns).add c.job.resources)
      holders := l.holders.add c.key })

/-- Give back what a candidate asks for, if its key holds a reservation. A namespace in which
nothing is left is dropped. -/
def unreserve (l : Ledger) (c : Candidate) : Ledger :=
  if l.isReserved c.key then
    { reserved := match l.reserved.get? c.job.ns with
        | none => l.reserved
        | some total =>
          let left := total.sub c.job.resources
          if left.isEmpty then l.reserved.erase c.job.ns else l.reserved.insert c.job.ns left
      holders := l.holders.erase c.key }
  else l

/-- The inspection form of a resource list. -/
def shownResources (r : Resources) : String :=
  Text.braced (r.entries.map fun e =>
    Text.quoted e.1 ++ ": " ++
      Text.closedRecord "Quantity" [("milli", String.ofList (Text.intText e.2.milli))])

/-- The inspection form of a ledger. -/
def shown (l : Ledger) : String :=
  Text.closedRecord "Ledger"
    [("reserved", Text.braced (l.reserved.entries.map fun e =>
        Text.quoted e.1 ++ ": " ++ shownResources e.2)),
      ("records", Text.braced (l.holders.names.map Text.quoted))]

end Ledger

end JobAdmission
