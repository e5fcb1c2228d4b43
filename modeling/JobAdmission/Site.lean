/-
An environment in memory: the system of record, the quotas, the ledgers of the quota plugins, the
gates, and recording handlers of admitted jobs. Failures of the collaborators can be arranged: a
number of reads or updates of the record, the listing of quotas, each handler.
-/
import JobAdmission.Plugin.Gate.Basic
import JobAdmission.Plugin.InTree
import JobAdmission.Quota.Book
import JobAdmission.Release.Recorder
import JobAdmission.Scheduler.Basic
import JobAdmission.Store

namespace JobAdmission

/-- How a read of the system of record fails. -/
inductive ReadFault where
  /-- The record refuses to answer. -/
  | refused
  /-- The record answers as if the job were gone. -/
  | gone
deriving DecidableEq, Repr

/-- The error of a failed read of the job of a key. -/
def ReadFault.toError (key : String) : ReadFault → AdmissionError
  | refused => .client ("get of " ++ key ++ " refused")
  | gone => .notFound key

/-- An environment in memory. -/
structure Site where
  store : JobStore
  /-- How many of the next reads of the record fail. -/
  readFailures : Nat
  readFault : ReadFault
  quotas : QuotaBook
  /-- The ledger that quota plugins share. -/
  ledger : Ledger
  /-- The ledgers of quota plugins that have one of their own. -/
  ownLedgers : Array Ledger
  gates : GateBook
  recorders : NameMap Recorder

namespace Site

/-- An environment in which nothing is known. -/
def empty : Site :=
  { store := .empty, readFailures := 0, readFault := .refused, quotas := .empty, ledger := .empty,
    ownLedgers := #[], gates := .empty, recorders := .empty }

instance : Inhabited Site := ⟨empty⟩

/-! ## The system of record -/

/-- Read a job, unless the read is to fail. -/
def read (ns name : String) : StateM Site (Except AdmissionError Job) := fun site =>
  if site.readFailures > 0 then
    (.error (site.readFault.toError (Job.keyOf ns name)),
      { site with readFailures := site.readFailures - 1 })
  else (site.store.get ns name, site)

/-- Put a new version of a job on record. -/
def write (j : Job) : StateM Site (Except AdmissionError Unit) := fun site =>
  let (r, store) := site.store.update j
  (r, { site with store })

/-- The system of record of a site. -/
def client : JobClient Site := { get := read, update := write }

/-! ## Plugins -/

/-- The quotas of a site. -/
def listQuotas : QuotaListing Site := fun site ns => site.quotas.list ns

/-- The ledger that quota plugins share. -/
def sharedLedger : LedgerSlot Site :=
  { get := fun site => site.ledger, set := fun ledger site => { site with ledger } }

/-- The ledger of one quota plugin. -/
def ownLedger (i : Nat) : LedgerSlot Site :=
  { get := fun site => site.ownLedgers.getD i .empty
    set := fun l site => { site with ownLedgers := site.ownLedgers.setIfInBounds i l } }

/-- Making a quota plugin with a ledger of its own. -/
def ownQuotaPlugin : Factory Site := fun quotas site =>
  (.ok (QuotaPlugin.plugin (ownLedger site.ownLedgers.size) quotas),
    { site with ownLedgers := site.ownLedgers.push .empty })

/-- The gates of a site. -/
def gateSlot : Slot Site GateBook :=
  { get := fun site => site.gates, set := fun gates site => { site with gates } }

/-- A site with gates, and a catalog with their plugins added to it. -/
def withGates (catalog : Catalog Site) (gates : List (GateSetup × GateAnswers)) :
    Except AdmissionError (Catalog Site × Site) := do
  let catalog ← GateSetup.registerAll gateSlot catalog (gates.map (·.1))
  return (catalog, { empty with gates := gates.foldl (fun b g => b.enter g.1.name g.2) .empty })

/-! ## Handlers of admitted jobs -/

/-- The handler of a name. -/
def recorder (name : String) : Slot Site Recorder :=
  { get := fun site => (site.recorders.get? name).getD .empty
    set := fun r site => { site with recorders := site.recorders.insert name r } }

/-- Provide a handler, keeping the one that has the name already. -/
def provide (site : Site) (name : String) : Site :=
  (recorder name).set ((recorder name).get site) site

/-- The handler of a name as schedulers use it. -/
def handler (name : String) : ReleaseHandler Site :=
  { dequeued := fun j => (recorder name).act (·.noteDequeued j)
    release := fun j => (recorder name).act (·.noteReleased j) }

/-- Connect to the handler at an address, unless that is to fail. Each address has one handler. -/
def connect (unreachable : List String) (kind address : String) :
    StateM Site (Except AdmissionError (ReleaseHandler Site)) := fun site =>
  if unreachable.contains address then
    (.error (.client ("cannot reach " ++ address ++ " for " ++ kind)), site)
  else (.ok (handler address), site.provide address)

end Site

end JobAdmission
