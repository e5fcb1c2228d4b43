/-
A scheduler whose only queue is the default one. As long as that queue holds a single candidate at
most, what it becomes can be written down: a candidate that is put in is the next to be taken, and
one that is delayed is so after a flush at the end of its window.
-/
import JobAdmission.Proofs.Queue.Registry
import JobAdmission.Proofs.Scheduler.Happening
import JobAdmission.Proofs.Scheduler.Standard

namespace JobAdmission

open Scheduling

/-! ## A queue that holds nothing -/

namespace JobQueue

open KeyedHeap

variable {q : JobQueue} {c : Candidate}

/-- A queue that takes candidates and holds none. -/
structure Vacant (q : JobQueue) : Prop where
  indexed : q.Indexed
  opened : q.closed = false
  ready : q.ready.toList = []
  delayed : q.delayed.toList = []

theorem peek?_of_toList {h : KeyedHeap Candidate} (single : h.toList = [c]) :
    h.peek? = some c := by
  show h.items[0]? = some c
  rw [← Array.getElem?_toList, show h.items.toList = [c] from single]
  rfl

theorem Vacant.holds (vacant : q.Vacant) (key : String) : q.holds key = false := by
  have ready : q.ready.find? key = none :=
    vacant.indexed.ready.find?_eq_none_iff.2 (by rw [vacant.ready]; simp)
  have delayed : q.delayed.find? key = none :=
    vacant.indexed.delayed.find?_eq_none_iff.2 (by rw [vacant.delayed]; simp)
  exact (holds_eq_false_iff vacant.indexed).2 (Prod.ext ready delayed)

/-- A candidate that is put in is the first to be taken. -/
theorem Vacant.requeue_pop (vacant : q.Vacant) (c : Candidate) :
    ∃ q' q'', q.requeue c = .ok q' ∧ q'.pop = .ok (c, q'') ∧ q''.Vacant ∧
      q''.charter = q.charter := by
  obtain ⟨ready, put, ri, perm⟩ :=
    requeue_of_free vacant.indexed vacant.opened (vacant.holds c.key)
  rw [vacant.ready] at perm
  have first : ready.peek? = some c := peek?_of_toList (List.perm_singleton.1 perm)
  obtain ⟨rest, popped, ri', perm'⟩ := pop_spec q.order ri first
  have gone : rest.toList = [] :=
    List.perm_nil.1 (List.Perm.cons_inv (perm'.symm.trans perm))
  refine ⟨_, { q with ready := rest }, put, ?_,
    ⟨⟨ri', vacant.indexed.delayed⟩, vacant.opened, gone, vacant.delayed⟩, rfl⟩
  unfold pop
  rw [popped]
  rfl

/-- A candidate that is delayed is the first to be taken after a flush at the end of its window. -/
theorem Vacant.delay_flush_pop (vacant : q.Vacant) (c : Candidate) :
    ∃ q', q.delay c = .ok q' ∧ ∀ now, q.timing.retry.deadline c ≤ now →
      ∃ q'', (q'.flush now).2.pop = .ok (c, q'') := by
  obtain ⟨delayed, put, di, perm⟩ := delay_of_free vacant.indexed vacant.opened (vacant.holds c.key)
  rw [vacant.delayed] at perm
  have single := List.perm_singleton.1 perm
  obtain ⟨rest, taken, -, -⟩ := pop_spec q.byDeadline di (peek?_of_toList single)
  obtain ⟨free, -⟩ := Bool.or_eq_false_iff.1 (vacant.holds c.key)
  obtain ⟨ready, moved, ri, perm'⟩ := push_spec q.order vacant.indexed.ready free
  rw [vacant.ready] at perm'
  have first : ready.peek? = some c := peek?_of_toList (List.perm_singleton.1 perm')
  obtain ⟨left, popped, -, -⟩ := pop_spec q.order ri first
  refine ⟨_, put, fun now ended => ?_⟩
  have flushed : (({ q with delayed } : JobQueue).flush now).2 =
      { q with ready, delayed := rest } := by
    unfold flush
    rw [show ({ q with delayed } : JobQueue).delayedCount = 1 from
      (congrArg List.length single : delayed.items.toList.length = 1)]
    unfold flushUpTo
    dsimp only
    rw [peek?_of_toList single]
    dsimp only
    rw [if_neg (by omega), show ({ q with delayed } : JobQueue).byDeadline = q.byDeadline from rfl,
      taken]
    dsimp only
    rw [moved]
    rfl
  refine ⟨{ q with ready := left, delayed := rest }, ?_⟩
  rw [flushed]
  unfold pop
  rw [popped]
  rfl

theorem vacant_new (d : QueueDef) (order : JobOrder) (timing : QueueTiming) (stopped : Bool) :
    (new d order timing stopped).Vacant :=
  ⟨indexed_new d order timing stopped, rfl, rfl, rfl⟩

end JobQueue

/-! ## The default queue alone -/

namespace Site

/-- A scheduler with some queues. -/
def idling (queues : QueueSet) (now : Nat) (site : Site) : SchedulerState Site where
  now := now
  queues := queues
  dispatcher := .new 1
  suspended := none
  turn := none
  stopped := false
  trail := none
  env := site

/-- Queues in the order of priority, with the standard times. -/
def byPriority : QueueRules := ⟨Priority.queueOrder,
  NameMap.empty.insert Priority.name Priority.jobOrder, .standard, Priority.name⟩

/-- The default queue alone. -/
def alone (q : JobQueue) : QueueSet :=
  { QueueSet.new byPriority with
    queues := #[q]
    ids := NameMap.empty.insert Job.defaultQueue 0 }

variable {s : SchedulerState Site} {q q' : JobQueue} {c : Candidate} {job : Job}

theorem happen_added (only : s.queues = alone q) (untrailed : s.trail = none)
    (phase : job.phase = .enqueued) (named : job.queueName = Job.defaultQueue)
    (put : q.submit s.now job = .ok q') :
    happen standard s (.job (.added job)) = { s with queues := alone q' } := by
  show (addJob standard job s).2 = _
  unfold addJob
  rw [phase]
  dsimp only
  unfold enqueue
  rw [bind_run, get_run]
  dsimp only
  rw [named, only, show (alone q).lookup? Job.defaultQueue = some (0, q) from rfl]
  dsimp only
  rw [put]
  show { s with queues := alone q', trail := s.trail.map _ } = _
  rw [untrailed]
  rfl

theorem popNext_alone (pop : q.pop = .ok (c, q')) : (alone q).popNext = some (c, alone q') := by
  unfold QueueSet.popNext
  rw [show (alone q).visited = (alone q).byName from List.mergeSort_singleton _,
    show (alone q).byName = [(0, q)] from rfl, List.findSome?_singleton]
  dsimp only
  rw [pop]
  rfl

/-- A job that is added to the empty queue is the next to be attempted. -/
theorem after_added_cycle (job : Job) (only : s.queues = alone q) (vacant : q.Vacant)
    (free : s.suspended = none) (untrailed : s.trail = none) (phase : job.phase = .enqueued)
    (named : job.queueName = Job.defaultQueue) :
    ∃ left : JobQueue, left.Vacant ∧ after standard s [.job (.added job), .cycle] =
      (attempt standard (.fresh job s.now) { s with queues := alone left }).2 := by
  obtain ⟨filled, left, put, pop, emptied, -⟩ := vacant.requeue_pop (.fresh job s.now)
  refine ⟨left, emptied, ?_⟩
  show happen standard (happen standard s (.job (.added job))) .cycle = _
  rw [happen_added only untrailed phase named put]
  exact congrArg Prod.snd
    (cycle_of_pop (s := { s with queues := alone filled }) free (popNext_alone pop))

/-- A site with one job on record and no quotas. -/
def recording (job : Job) : Site := { empty with store := JobStore.empty.insert job }

theorem read_recording (job : Job) :
    read job.ns job.name (recording job) = (.ok job, recording job) := by
  show ((recording job).store.get job.ns job.name, recording job) = _
  unfold JobStore.get
  rw [show (recording job).store.find? job.ns job.name = some job from
    (NameMap.get?_insert ..).trans (if_pos rfl)]

end Site

end JobAdmission
