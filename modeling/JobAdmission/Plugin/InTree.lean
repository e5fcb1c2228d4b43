/-
The plugins that every scheduler can enable: the order by priority, and the quota plugin, which
admits what fits the quota of the namespace and keeps the reservations in a ledger. The quota
plugin works on any environment that has a slot for a ledger and lists quotas.
-/
import JobAdmission.Plugin.Basic
import JobAdmission.Quota.Ledger
import JobAdmission.Slot

namespace JobAdmission

/-! ## Order by priority -/

namespace Priority

/-- The name of the plugin. -/
def name : String := QueueDef.priorityPolicy

/-- Queues of higher priority first. -/
def queueOrder : QueueOrder := fun a b => b.priority < a.priority

/-- Jobs of higher priority first, and of equal priority the one seen earlier. -/
def jobOrder : JobOrder := fun a b =>
  let p := a.job.effectivePriority
  let q := b.job.effectivePriority
  q < p || (p == q && a.firstSeen < b.firstSeen)

/-- The plugin. -/
def plugin {E : Type} : Plugin E :=
  { (Plugin.bare name : Plugin E) with queueOrder := some queueOrder, jobOrder := some jobOrder }

end Priority

/-- Making the plugin. -/
def Priority.factory {E : Type} : Factory E := fun _ env => (.ok Priority.plugin, env)

/-! ## Quotas -/

/-- Where an environment keeps a ledger. -/
abbrev LedgerSlot (E : Type) := Slot E Ledger

namespace QuotaPlugin

variable {E : Type}

/-- The name of the plugin. -/
def name : String := "ResourceQuota"

/-- Whether the request fits the quota of its namespace. -/
def filter (slot : LedgerSlot E) (quotas : QuotaListing E) : Consultation E := fun c env =>
  ((slot.get env).filter (quotas env c.job.ns) c, env)

/-- Enter the request in the ledger. -/
def reserve (slot : LedgerSlot E) : Consultation E := fun c => slot.act (·.reserve c)

/-- Strike the request from the ledger. -/
def unreserve (slot : LedgerSlot E) : Consultation E := fun c =>
  slot.act fun l => (.success, l.unreserve c)

/-- The plugin over a ledger. -/
def plugin (slot : LedgerSlot E) (quotas : QuotaListing E) : Plugin E :=
  { (Plugin.bare name : Plugin E) with
    filter := some (filter slot quotas)
    reservation := some { reserve := reserve slot, unreserve := unreserve slot } }

/-- Making the plugin over a ledger that exists already. -/
def factory (slot : LedgerSlot E) : Factory E := fun quotas env => (.ok (plugin slot quotas), env)

/-- The inspection form of the plugin. -/
def shown (l : Ledger) : String := Text.openRecord "ResourceQuotaPlugin" [("ledger", l.shown)]

end QuotaPlugin

/-- The names of the plugins enabled where a configuration names none. -/
def standardPlugins : List String := [Priority.name, QuotaPlugin.name]

/-- The catalog of both plugins, the quota plugin made as told. -/
def inTreeCatalog {E : Type} (makeQuota : Factory E) : Catalog E :=
  ⟨[(Priority.name, Priority.factory), (QuotaPlugin.name, makeQuota)]⟩

end JobAdmission
