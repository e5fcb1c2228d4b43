/-
Schedulers with the standard plugins, and what may surround them. The ledger changes by the quota
plugin alone, and the quota plugin finds the same quotas whenever it can list them.
-/
import JobAdmission.Proofs.Scheduler.Exits
import JobAdmission.Proofs.Site

namespace JobAdmission

variable {E : Type}

/-! ## The pipeline -/

namespace Pipeline

/-- The pipeline of the standard plugins. -/
def standard (slot : LedgerSlot E) (quotas : QuotaListing E) : Pipeline E where
  queueOrder := (Priority.name, Priority.queueOrder)
  jobOrders := NameMap.empty.insert Priority.name Priority.jobOrder
  filters := [(QuotaPlugin.name, QuotaPlugin.filter slot quotas)]
  reservations := [(QuotaPlugin.name, QuotaPlugin.booking slot)]

theorem build_standard (slot : LedgerSlot E) (quotas : QuotaListing E) (env : E) :
    build (inTreeCatalog (QuotaPlugin.factory slot)) quotas standardPlugins env =
      (.ok (standard slot quotas), env) := rfl

variable (slot : LedgerSlot E) (quotas : QuotaListing E) (c : Candidate) (env : E)

/-- The filter changes nothing, and what it lets through the ledger lets through. -/
theorem filter_standard {v : Verdict} {env' : E}
    (e : (standard slot quotas).filter c env = (v, env')) :
    env' = env ∧ (v.isSuccess = true →
      ((slot.get env).filter (quotas env c.job.ns) c).isSuccess = true) := by
  change askInTurn [QuotaPlugin.filter slot quotas] c env = _ at e
  rw [askInTurn_cons] at e
  split at e
  · rename_i pass
    cases e
    exact ⟨rfl, fun _ => pass⟩
  · cases e
    exact ⟨rfl, id⟩

theorem reserve_standard :
    ((standard slot quotas).reserve c env).2 = slot.set ((slot.get env).reserve c).2 env := by
  show (askInTurn [QuotaPlugin.reserve slot] c env).2 = _
  rw [askInTurn_cons]
  split <;> rfl

theorem unreserve_standard :
    ((standard slot quotas).unreserve c env).2 = slot.set ((slot.get env).unreserve c) env := rfl

end Pipeline

/-! ## Surroundings -/

/-- An action that keeps the environment sound and leaves the ledger alone. -/
def Benign (slot : LedgerSlot E) (Sound : E → Prop) {α : Type} (m : StateM E α) : Prop :=
  ∀ env, Sound env → Sound (m env).2 ∧ slot.get (m env).2 = slot.get env

/-- What surrounds a scheduler with the standard plugins. In a sound environment the quotas are
those of the book, if they can be listed at all, and the jobs on record ask for no negative amounts.
The record and the handlers of admitted jobs answer as they like, but the ledger is not theirs. -/
structure Surroundings (w : Wiring E) (slot : LedgerSlot E) (quotas : QuotaListing E)
    (book : String → List Quota) (Sound : E → Prop) : Prop where
  pipeline : ∃ env, (Pipeline.build (inTreeCatalog (QuotaPlugin.factory slot)) quotas
    standardPlugins env).1 = .ok w.pipeline
  read : ∀ env l, Sound env → slot.get (slot.set l env) = l
  write : ∀ env l, Sound env → Sound (slot.set l env)
  listing : ∀ env ns listed, Sound env → quotas env ns = .ok listed → listed = book ns
  get : ∀ ns name, Benign slot Sound (w.client.get ns name)
  record : ∀ ns name env job, Sound env → (w.client.get ns name env).1 = .ok job →
    job.resources.Nonneg
  update : ∀ job, job.resources.Nonneg → Benign slot Sound (w.client.update job)
  notify : ∀ routes, w.routes = some routes → ∀ job, Benign slot Sound (routes.notifyDequeued job)

namespace Surroundings

variable {w : Wiring E} {slot : LedgerSlot E} {quotas : QuotaListing E}
  {book : String → List Quota} {Sound : E → Prop}

theorem standard (around : Surroundings w slot quotas book Sound) :
    w.pipeline = .standard slot quotas := by
  obtain ⟨env, e⟩ := around.pipeline
  rw [Pipeline.build_standard] at e
  exact (Except.ok.inj e).symm

theorem unreserve (around : Surroundings w slot quotas book Sound) (c : Candidate) {env : E}
    (sound : Sound env) : Sound (w.pipeline.unreserve c env).2 ∧
      slot.get (w.pipeline.unreserve c env).2 = (slot.get env).unreserve c := by
  rw [around.standard, Pipeline.unreserve_standard]
  exact ⟨around.write _ _ sound, around.read _ _ sound⟩

theorem reserve (around : Surroundings w slot quotas book Sound) (c : Candidate) {env : E}
    (sound : Sound env) : Sound (w.pipeline.reserve c env).2 ∧
      slot.get (w.pipeline.reserve c env).2 = ((slot.get env).reserve c).2 := by
  rw [around.standard, Pipeline.reserve_standard]
  exact ⟨around.write _ _ sound, around.read _ _ sound⟩

/-- The version that is put on record asks for what was on record. -/
theorem recordAdmission (around : Surroundings w slot quotas book Sound) (job : Job) :
    Benign slot Sound (Scheduling.recordAdmission w.client job) := by
  intro env sound
  have looked := around.get job.ns job.name env sound
  have nonneg := fun latest => around.record job.ns job.name env latest sound
  unfold Scheduling.recordAdmission
  rw [Scheduling.bind_run]
  generalize w.client.get job.ns job.name env = answer at looked nonneg ⊢
  obtain ⟨e | latest, env'⟩ := answer
  · exact looked
  · obtain ⟨sound', kept⟩ := looked
    have put := around.update
      { latest with phase := .dequeued, note := some Scheduling.admissionNote }
      (nonneg latest rfl) env' sound'
    dsimp only
    rw [Scheduling.bind_run]
    generalize w.client.update _ env' = answer at put ⊢
    obtain ⟨_ | _, env''⟩ := answer
    · exact ⟨put.1, put.2.trans kept⟩
    · exact ⟨put.1, put.2.trans kept⟩

end Surroundings

/-! ## Sites -/

namespace Site

/-- The standard plugins over the ledger and the quotas of a site. -/
def standard : Wiring Site where
  pipeline := .standard sharedLedger listQuotas
  client := client
  routes := none
  idleEvery := 0

/-- A site with the quotas of the book, whose jobs on record ask for no negative amounts. -/
structure Honest (book : String → List Quota) (site : Site) : Prop where
  quotas : ∀ ns, site.quotas.entered ns = book ns
  jobs : ∀ e ∈ site.store.jobs.entries, e.2.resources.Nonneg

variable {book : String → List Quota}

theorem benign_read (ns name : String) : Benign sharedLedger (Honest book) (read ns name) := by
  intro site honest
  refine ⟨?_, kept_read ns name site⟩
  unfold read
  split
  · exact ⟨honest.quotas, honest.jobs⟩
  · exact honest

theorem benign_write {job : Job} (nonneg : job.resources.Nonneg) :
    Benign sharedLedger (Honest book) (write job) := by
  intro site honest
  refine ⟨⟨honest.quotas, fun e he => ?_⟩, kept_write job site⟩
  change e ∈ (site.store.update job).2.jobs.entries at he
  unfold JobStore.update at he
  dsimp only at he
  split at he
  · exact honest.jobs e he
  · split at he
    · rcases NameMap.fst_of_mem_insertEntry he with rfl | he
      · exact nonneg
      · exact honest.jobs e he
    · exact honest.jobs e he

theorem nonneg_of_read {ns name : String} {site : Site} {job : Job} (honest : site.Honest book)
    (e : (read ns name site).1 = .ok job) : job.resources.Nonneg := by
  unfold read at e
  split at e
  · cases e
  · change site.store.get ns name = .ok job at e
    unfold JobStore.get at e
    split at e
    · rename_i found
      cases e
      exact honest.jobs _ (NameMap.get?_eq_some_iff.1 found)
    · cases e

theorem surroundings_standard (book : String → List Quota) :
    Surroundings standard sharedLedger listQuotas book (Honest book) where
  pipeline := ⟨empty, rfl⟩
  read _ _ _ := rfl
  write _ _ honest := ⟨honest.quotas, honest.jobs⟩
  listing site ns listed honest e := by
    unfold listQuotas QuotaBook.list at e
    split at e
    · cases e
    · cases e
      exact honest.quotas ns
  get := benign_read
  record _ _ _ _ honest e := nonneg_of_read honest e
  update _ nonneg := benign_write nonneg
  notify _ e := by cases e

end Site

end JobAdmission
