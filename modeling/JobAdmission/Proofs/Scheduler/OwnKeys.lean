/-
A candidate keeps its key. The record keeps every job under the key of that job, and a scheduler
holds every candidate under the key of its job, in its queues and under way. So a candidate whose
attempt failed is delayed under the key it had, whatever version of its job is on record by then.
-/
import JobAdmission.Proofs.Scheduler.Admission
import JobAdmission.Proofs.Scheduler.EachQueue

namespace JobAdmission

variable {E : Type}

/-! ## The record -/

namespace JobStore

/-- Every job is on record under its own key. -/
def Filed (s : JobStore) : Prop := ∀ key job, s.jobs.get? key = some job → job.key = key

variable {s : JobStore}

theorem filed_empty : empty.Filed := by
  intro key job e
  cases e

theorem Filed.insert (h : s.Filed) (job : Job) : (s.insert job).Filed := by
  intro key job' e
  change (s.jobs.insert job.key job).get? key = some job' at e
  rw [NameMap.get?_insert] at e
  split at e
  · rename_i same
    cases e
    exact same
  · exact h key job' e

theorem Filed.remove (h : s.Filed) (ns name : String) : (s.remove ns name).2.Filed := by
  intro key job e
  change (s.jobs.erase (Job.keyOf ns name)).get? key = some job at e
  rw [NameMap.get?_erase] at e
  split at e
  · cases e
  · exact h key job e

theorem Filed.update (h : s.Filed) (job : Job) : (s.update job).2.Filed := by
  unfold JobStore.update
  dsimp only
  split
  · exact h
  · split
    · exact Filed.insert (s := { s with updateCalls := s.updateCalls + 1 }) h job
    · exact h

theorem Filed.key_of_get (h : s.Filed) {ns name : String} {job : Job}
    (e : s.get ns name = .ok job) : job.key = Job.keyOf ns name := by
  unfold JobStore.get at e
  split at e
  · rename_i found
    cases e
    exact h _ _ found
  · cases e

end JobStore

/-- Every job is on record under its own key in the part of an environment. -/
def Slot.Filed (store : Slot E JobStore) (env : E) : Prop := (store.get env).Filed

/-- An action that keeps a property of the environment. -/
def Preserves (P : E → Prop) {α : Type} (m : StateM E α) : Prop := ∀ env, P env → P (m env).2

/-- A wiring over a record in memory. What is read is on record, and whatever is called leaves every
job under its own key; the record may change at every call, and every call may fail. -/
structure Wiring.Files (w : Wiring E) (store : Slot E JobStore) : Prop where
  read : ∀ ns name env job, (w.client.get ns name env).1 = .ok job →
    (store.get env).get ns name = .ok job
  get : ∀ ns name, Preserves store.Filed (w.client.get ns name)
  update : ∀ job, Preserves store.Filed (w.client.update job)
  filter : ∀ c, Preserves store.Filed (w.pipeline.filter c)
  reserve : ∀ c, Preserves store.Filed (w.pipeline.reserve c)
  unreserve : ∀ c, Preserves store.Filed (w.pipeline.unreserve c)
  notify : ∀ routes, w.routes = some routes → ∀ job,
    Preserves store.Filed (routes.notifyDequeued job)

/-- Whatever the world does leaves every job under its own key. -/
def Happening.Files (store : Slot E JobStore) : Happening E → Prop
  | .world change => ∀ env, store.Filed env → store.Filed (change env)
  | _ => True

/-! ## What is on record -/

section

variable {w : Wiring E} {store : Slot E JobStore} {s t : SchedulerState E} {c c' : Candidate}

theorem Wiring.Files.filtered (files : w.Files store) {env env' : E} {v : Verdict}
    (e : w.pipeline.filter c env = (v, env')) (filed : store.Filed env) : store.Filed env' := by
  have asked := files.filter c env filed
  rwa [e] at asked

theorem Wiring.Files.reserved (files : w.Files store) {env env' : E} {v : Verdict}
    (e : w.pipeline.reserve c env = (v, env')) (filed : store.Filed env) : store.Filed env' := by
  have asked := files.reserve c env filed
  rwa [e] at asked

theorem Wiring.Files.recordAdmission (files : w.Files store) (job : Job) :
    Preserves store.Filed (Scheduling.recordAdmission w.client job) := by
  intro env filed
  have looked := files.get job.ns job.name env filed
  unfold Scheduling.recordAdmission
  rw [Scheduling.bind_run]
  generalize w.client.get job.ns job.name env = answer at looked ⊢
  obtain ⟨e | latest, env'⟩ := answer
  · exact looked
  · have put := files.update
      { latest with phase := .dequeued, note := some Scheduling.admissionNote } env' looked
    dsimp only
    rw [Scheduling.bind_run]
    generalize w.client.update _ env' = answer at put ⊢
    obtain ⟨_ | _, env''⟩ := answer <;> exact put

theorem Retried.filed (h : Retried w c s t) (files : w.Files store) (filed : store.Filed s.env) :
    store.Filed t.env := by
  rw [h.env]
  exact files.get _ _ _ filed

theorem DispatchExit.filed {o : Outcome} (exit : DispatchExit w c s o t) (files : w.Files store)
    (filed : store.Filed s.env) : store.Filed t.env := by
  cases exit with
  | blocked _ env => rw [env]; exact filed
  | confirming _ env => rw [env]; exact filed
  | undone u _ env _ _ _ _ retried =>
    exact retried.filed files (by rw [env]; exact files.unreserve c _ filed)

theorem ConfirmExit.filed (exit : ConfirmExit w c s t) (files : w.Files store)
    (filed : store.Filed s.env) : store.Filed t.env := by
  have put := files.recordAdmission c.job s.env filed
  cases exit with
  | recorded admitted env env' trail ok told =>
    rw [ok] at put
    obtain rfl | ⟨routes, routed, rfl⟩ := told
    · exact put
    · exact files.notify routes routed admitted env put
  | gone e env trail failed missing =>
    rw [failed] at put
    exact files.unreserve c env put
  | undone e env _ failed refusal retried =>
    rw [failed] at put
    exact retried.filed files (files.unreserve c env put)

namespace Scheduling

theorem filed_cycle (files : w.Files store) (filed : store.Filed s.env) :
    store.Filed (cycle w s).2.env := by
  have exit := cycle_exit w s
  generalize (cycle w s).1 = o, (cycle w s).2 = t at exit ⊢
  cases exit with
  | idle => exact filed
  | unfiltered _ c queues v env _ _ filter _ retried =>
    exact retried.filed files (files.filtered filter filed)
  | refused _ c queues v v' env env' _ _ filter _ reserve _ retried =>
    exact retried.filed files (files.reserved reserve (files.filtered filter filed))
  | reserved _ c queues v v' env env' _ _ _ filter _ reserve _ exit =>
    exact exit.filed files (files.reserved reserve (files.filtered filter filed))
  | resumed _ _ _ _ _ exit => exact exit.filed files filed

theorem filed_happen (files : w.Files store) (filed : store.Filed s.env) {x : Happening E}
    (leaves : x.Files store) : store.Filed (happen w s x).env := by
  cases x with
  | job event =>
    have fed := applyJobEvent_fed w event s
    show store.Filed (applyJobEvent w event s).2.env
    obtain env | ⟨c, env⟩ | ⟨-, c, env⟩ := fed.env
    · rw [env]; exact filed
    · rw [env]; exact files.reserve c _ filed
    · rw [env]; exact files.unreserve c _ filed
  | queue event =>
    obtain ⟨queues, same⟩ := applyQueueEvent_queues event s
    show store.Filed (applyQueueEvent event s).2.env
    rw [same]
    exact filed
  | cycle => exact filed_cycle files filed
  | confirm place =>
    show store.Filed (confirmAt w place s).2.env
    rcases confirmAt_exit w place s with ⟨-, same⟩ | ⟨c, dispatcher, t, -, exit, same⟩
    · rw [same]; exact filed
    · rw [same]; exact exit.filed files filed
  | world change => exact leaves s.env filed
  | _ => exact filed

end Scheduling

end

/-! ## Candidates -/

/-- A candidate that is held under the key of its job. -/
def Candidate.Own (c : Candidate) : Prop := c.key = c.job.key

section

open Scheduling

variable {w : Wiring E} {store : Slot E JobStore} {s : SchedulerState E} {c c' : Candidate}

/-- The version of a candidate that is delayed has its key and the record of its attempts. -/
theorem Scheduling.retryable_own {env : E} (files : w.Files store) (filed : store.Filed env)
    (own : c.Own) (h : retryable w c env = some c') :
    c'.Own ∧ c'.key = c.key ∧ c'.attempts = c.attempts ∧ c'.firstSeen = c.firstSeen := by
  obtain rfl | ⟨latest, answer, rfl⟩ := retryable_eq_some h
  · exact ⟨own, rfl, rfl, rfl⟩
  · have key : latest.key = c.job.key := filed.key_of_get (files.read _ _ _ _ answer)
    exact ⟨rfl, key.trans own.symm, rfl, rfl⟩

/-- The record and the registry are in order, and every candidate is held under its own key. -/
structure SchedulerState.Orderly (store : Slot E JobStore) (rules : QueueRules)
    (s : SchedulerState E) : Prop where
  filed : store.Filed s.env
  sound : s.queues.Sound
  rules : s.queues.rules = rules
  queues : s.queues.Each (JobQueue.Holding Candidate.Own)
  underway : ∀ c ∈ s.underway, c.Own

/-- A scheduler that knows no queue and no job. -/
structure SchedulerState.Blank (rules : QueueRules) (s : SchedulerState E) : Prop where
  queues : s.queues = .new rules
  tasks : s.dispatcher.tasks = []
  suspended : s.suspended = none

variable {rules : QueueRules}

theorem SchedulerState.Blank.orderly (blank : s.Blank rules) (filed : store.Filed s.env) :
    s.Orderly store rules where
  filed := filed
  sound := by rw [blank.queues]; exact QueueSet.sound_new rules
  rules := by rw [blank.queues]; rfl
  queues id q there := by
    rw [blank.queues] at there
    simp [QueueSet.queue?, QueueSet.new] at there
  underway c hc := by
    rw [SchedulerState.underway_free blank.suspended, blank.tasks] at hc
    cases hc

/-- A candidate that is taken from a queue is held under its own key. -/
theorem SchedulerState.Orderly.own_of_popNext (h : s.Orderly store rules) {queues : QueueSet}
    (pop : s.queues.popNext = some (c, queues)) : c.Own :=
  (h.queues.popNext (Q := Candidate.Own) (fun _ _ _ hq e => JobQueue.Holding.pop hq e) pop).2

/-- What is put into a queue is held under its own key. -/
theorem SchedulerState.Orderly.puts_own (h : s.Orderly store rules) {x : Happening E}
    {step : RegistryStep} (caused : Causes w s x step) : step.Puts Candidate.Own := by
  have delays : Delays w s step → step.Puts Candidate.Own := by
    rintro ⟨c, env, c', id, held, chosen, rfl⟩
    have own : c.Own := held.elim (h.underway c) fun ⟨_, pop⟩ => h.own_of_popNext pop
    obtain rfl | ⟨latest, -, rfl⟩ := retryable_eq_some chosen
    · exact own
    · exact (rfl : (c.replace latest).Own)
  cases x with
  | job event =>
    obtain ⟨id, call, rfl, made⟩ := caused
    cases call with
    | submit job => exact (rfl : (Candidate.fresh job s.now).Own)
    | delay c => cases event <;> simp [JobEvent.Makes] at made
    | _ => exact trivial
  | queue event => cases event <;> cases caused <;> exact trivial
  | cycle =>
    obtain rfl | delayed := caused
    · exact trivial
    · exact delays delayed
  | confirm place => exact delays caused
  | _ => cases caused <;> exact trivial

namespace Scheduling

theorem orderly_happen (files : w.Files store) (h : s.Orderly store rules) {x : Happening E}
    (leaves : x.Files store) : (happen w s x).Orderly store rules where
  filed := filed_happen files h.filed leaves
  sound := sound_happen h.sound x
  rules := (rules_happen w s x).trans h.rules
  queues := by
    exact (leads_happen w s x).each (JobQueue.keeping_holding fun _ _ => rfl)
      (fun step caused => h.puts_own caused) h.queues
  underway c hc := by
    rcases mem_underway_happen hc with old | ⟨-, cleared⟩
    · exact h.underway c old
    · obtain ⟨queues, pop⟩ := cleared.popped
      exact h.own_of_popNext pop

theorem orderly_after (files : w.Files store) {run : List (Happening E)}
    (leaves : ∀ x ∈ run, x.Files store) (h : s.Orderly store rules) :
    (after w s run).Orderly store rules := by
  induction run generalizing s with
  | nil => exact h
  | cons x run ih =>
    obtain ⟨first, rest⟩ := List.forall_mem_cons.1 leaves
    exact ih rest (orderly_happen files h first)

end Scheduling

end

/-! ## Sites -/

theorem Slot.Kept.preserves {α : Type} {store : Slot E JobStore} {m : StateM E α}
    (kept : store.Kept m) : Preserves store.Filed m := by
  intro env filed
  unfold Slot.Filed
  rw [kept env]
  exact filed

namespace Site

/-- The record of a site. -/
def storeSlot : Slot Site JobStore :=
  { get := fun site => site.store, set := fun store site => { site with store } }

/-- A wiring to the record of a site, if nothing but the client acts on it. -/
theorem files_of_client {w : Wiring Site} (client : w.client = Site.client)
    (filter : ∀ c, storeSlot.Kept (w.pipeline.filter c))
    (reserve : ∀ c, storeSlot.Kept (w.pipeline.reserve c))
    (unreserve : ∀ c, storeSlot.Kept (w.pipeline.unreserve c))
    (notify : ∀ routes, w.routes = some routes → ∀ job,
      storeSlot.Kept (routes.notifyDequeued job)) :
    w.Files storeSlot where
  read ns name site job e := by
    rw [client] at e
    change (Site.read ns name site).1 = .ok job at e
    unfold Site.read at e
    split at e
    · cases e
    · exact e
  get ns name := by
    rw [client]
    apply Slot.Kept.preserves
    intro site
    show (Site.read ns name site).2.store = site.store
    unfold Site.read
    split <;> rfl
  update job := by
    rw [client]
    intro site filed
    exact JobStore.Filed.update filed job
  filter c := (filter c).preserves
  reserve c := (reserve c).preserves
  unreserve c := (unreserve c).preserves
  notify routes routed job := (notify routes routed job).preserves

theorem files_standard : standard.Files storeSlot := by
  refine files_of_client rfl (fun c => ?_) (fun c => ?_) (fun c _ => rfl) fun _ e => by cases e
  · refine Pipeline.kept_askInTurn (fun ask hm c => ?_) c
    cases List.mem_singleton.1 hm
    exact fun _ => rfl
  · refine Pipeline.kept_askInTurn (fun ask hm c => ?_) c
    cases List.mem_singleton.1 hm
    exact fun _ => rfl

end Site

end JobAdmission
