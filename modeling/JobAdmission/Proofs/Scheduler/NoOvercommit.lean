/-
A scheduler with the standard plugins never reserves more than the quotas allow: in every state
that waiting jobs, queue definitions, cycles, confirmations, flushes, the clock and the world
outside can lead to from an empty ledger, every total is within the limit that the governing quota
sets. Only a cycle raises a total, and it does so right after the filter compared the sum with the
limit on the same ledger.
-/
import JobAdmission.Proofs.Feed.Steps
import JobAdmission.Proofs.Queue.Contents
import JobAdmission.Proofs.Quota.Limits
import JobAdmission.Proofs.Scheduler.Standard
import Mathlib.Logic.Relation

namespace JobAdmission

variable {E : Type}

/-- An event about jobs that wait, whose requests have no negative amounts. -/
def JobEvent.Waiting : JobEvent → Prop
  | .added job => job.phase = .enqueued ∧ job.resources.Nonneg
  | .updated old new => old.phase = .enqueued ∧ new.phase = .enqueued ∧ new.resources.Nonneg
  | .deleted job => job.phase = .enqueued

namespace Scheduling

/-! ## Moves -/

/-- What may happen to a scheduler. -/
inductive Move (w : Wiring E) (slot : LedgerSlot E) (Sound : E → Prop) (s : SchedulerState E) :
    SchedulerState E → Prop where
  | job (event : JobEvent) (waiting : event.Waiting) :
    Move w slot Sound s (applyJobEvent w event s).2
  | queue (event : QueueEvent) : Move w slot Sound s (applyQueueEvent event s).2
  | cycle : Move w slot Sound s (cycle w s).2
  /-- A confirmation ends, in any order and at any time. -/
  | confirm (place : Nat) : Move w slot Sound s (confirmAt w place s).2
  | flush (id : QueueId) :
    Move w slot Sound s { s with queues := s.queues.modify id fun q => (q.flush s.now).2 }
  /-- Task time passes for the background flushes. -/
  | elapse (span : Nat) : Move w slot Sound s (elapse span s).2
  | start : Move w slot Sound s { s with queues := s.queues.start }
  | cancel : Move w slot Sound s { s with queues := s.queues.cancel }
  | clock (now : Nat) : Move w slot Sound s { s with now }
  | turn (slots : Option Nat) : Move w slot Sound s { s with turn := slots }
  /-- The loop is stopped for good. -/
  | stop : Move w slot Sound s { s with stopped := true }
  | closing : Move w slot Sound s { s with dispatcher := s.dispatcher.close }
  | world (env : E) (sound : Sound env) (kept : slot.get env = slot.get s.env) :
    Move w slot Sound s { s with env }

/-- Every candidate that the scheduler knows asks for no negative amount. -/
structure Modest (Sound : E → Prop) (s : SchedulerState E) : Prop where
  sound : Sound s.env
  queues : s.queues.Each (JobQueue.Only (·.resources.Nonneg))
  tasks : ∀ c ∈ s.dispatcher.tasks, c.job.resources.Nonneg
  suspended : ∀ x, s.suspended = some x → x.candidate.job.resources.Nonneg

/-- The invariant of the moves: the requests are modest and the ledger is within the limits. -/
structure Safe (slot : LedgerSlot E) (book : String → List Quota) (Sound : E → Prop)
    (s : SchedulerState E) : Prop extends Modest Sound s where
  inRange : (slot.get s.env).InRange
  within : (slot.get s.env).Within book

section

variable {w : Wiring E} {slot : LedgerSlot E} {quotas : QuotaListing E}
  {book : String → List Quota} {Sound : E → Prop} {s t : SchedulerState E} {c : Candidate}

theorem Modest.safe (h : Modest Sound s) (blank : slot.get s.env = .empty) :
    Safe slot book Sound s where
  toModest := h
  inRange := by rw [blank]; exact Ledger.inRange_empty
  within := by rw [blank]; exact Ledger.within_empty

/-! ## Parts of the invariant -/

/-- A change that leaves the environment alone. -/
theorem Safe.moved (h : Safe slot book Sound s) (env : t.env = s.env)
    (queues : t.queues.Each (JobQueue.Only (·.resources.Nonneg)))
    (tasks : ∀ c ∈ t.dispatcher.tasks, c.job.resources.Nonneg)
    (suspended : ∀ x, t.suspended = some x → x.candidate.job.resources.Nonneg) :
    Safe slot book Sound t where
  sound := by rw [env]; exact h.sound
  queues := queues
  tasks := tasks
  suspended := suspended
  inRange := by rw [env]; exact h.inRange
  within := by rw [env]; exact h.within

/-- Another sound environment, whose ledger keeps to the limits as well. -/
theorem Safe.withLedger (h : Safe slot book Sound s) {env : E} {l : Ledger} (sound : Sound env)
    (ledger : slot.get env = l) (inRange : l.InRange) (within : l.Within book) :
    Safe slot book Sound { s with env } where
  toModest := { h.toModest with sound }
  inRange := by rw [← ledger] at inRange; exact inRange
  within := by rw [← ledger] at within; exact within

theorem Safe.withEnv (h : Safe slot book Sound s) {env : E} (sound : Sound env)
    (kept : slot.get env = slot.get s.env) : Safe slot book Sound { s with env } :=
  h.withLedger sound kept h.inRange h.within

theorem Safe.withQueues (h : Safe slot book Sound s) {queues : QueueSet}
    (hq : queues.Each (JobQueue.Only (·.resources.Nonneg))) :
    Safe slot book Sound { s with queues } :=
  { h with queues := hq }

/-- A candidate is given back. -/
theorem Safe.unreserve (h : Safe slot book Sound s) (around : Surroundings w slot quotas book Sound)
    (hc : c.job.resources.Nonneg) :
    Safe slot book Sound { s with env := (w.pipeline.unreserve c s.env).2 } := by
  obtain ⟨sound, ledger⟩ := around.unreserve c h.sound
  exact h.withLedger sound ledger (h.inRange.unreserve hc) (h.within.unreserve h.inRange hc)

/-- A candidate is entered that the filter let through. -/
theorem Safe.reserve (h : Safe slot book Sound s) (around : Surroundings w slot quotas book Sound)
    (hc : c.job.resources.Nonneg)
    (pass : ((slot.get s.env).filter (quotas s.env c.job.ns) c).isSuccess = true) :
    Safe slot book Sound { s with env := (w.pipeline.reserve c s.env).2 } := by
  obtain ⟨sound, ledger⟩ := around.reserve c h.sound
  -- the filter listed the quotas of the book, in the environment in which the entry is made
  have listed := fun quotas e => around.listing s.env c.job.ns quotas h.sound e
  exact h.withLedger sound ledger (h.inRange.reserve hc) (h.within.reserve h.inRange listed pass)

/-! ## Cycles -/

theorem Safe.retried (h : Safe slot book Sound s) (around : Surroundings w slot quotas book Sound)
    (hc : c.job.resources.Nonneg) (retried : Retried w c s t) : Safe slot book Sound t := by
  obtain ⟨sound, kept⟩ := around.get c.job.ns c.job.name s.env h.sound
  have looked := h.withEnv sound kept
  refine looked.moved retried.env ?_ (by rw [retried.dispatcher]; exact h.tasks)
    (by rw [retried.suspended]; exact h.suspended)
  rcases retried.queues with same | ⟨c', id, q, q', hj, hid, hd, e⟩
  · rw [same]; exact h.queues
  · -- what is delayed is the candidate as it was, or the version on record
    have nonneg : c'.job.resources.Nonneg := by
      rcases hj with same | latest
      · rw [same]; exact hc
      · exact around.record _ _ _ _ h.sound latest
    rw [e]
    exact h.queues.put ((h.queues id q hid).delay nonneg hd) id

theorem Safe.dispatched (h : Safe slot book Sound s)
    (around : Surroundings w slot quotas book Sound) (hc : c.job.resources.Nonneg)
    {o : Outcome} (exit : DispatchExit w c s o t) :
    Safe slot book Sound t := by
  cases exit with
  | blocked _ env _ queues tasks suspended =>
    obtain ⟨ticket, suspended⟩ := suspended
    refine h.moved env (by rw [queues]; exact h.queues) (by rw [tasks]; exact h.tasks) ?_
    intro x hx
    rw [suspended] at hx
    cases hx
    exact hc
  | confirming _ env _ queues tasks suspended =>
    refine h.moved env (by rw [queues]; exact h.queues) ?_ (by rw [suspended]; exact h.suspended)
    intro c' hc'
    rw [tasks] at hc'
    rcases List.mem_append.1 hc' with old | new
    · exact h.tasks c' old
    · rw [List.mem_singleton.1 new]; exact hc
  | undone u _ env _ queues tasks suspended retried =>
    have back : Safe slot book Sound u := (h.unreserve around hc).moved env
      (by rw [queues]; exact h.queues) (by rw [tasks]; exact h.tasks)
      (by rw [suspended]; exact h.suspended)
    exact back.retried around hc retried

theorem Safe.cycle (h : Safe slot book Sound s) (around : Surroundings w slot quotas book Sound) :
    Safe slot book Sound (cycle w s).2 := by
  have popped : ∀ {c queues}, s.queues.popNext = some (c, queues) →
      Safe slot book Sound { s with queues } ∧ c.job.resources.Nonneg := by
    intro c queues pop
    obtain ⟨hq, hc⟩ := h.queues.popNext (fun _ _ _ hq e => hq.pop e) pop
    exact ⟨h.withQueues hq, hc⟩
  -- the filter changes nothing, so the entry is made in the ledger that was checked
  have filtered : ∀ {c v env}, w.pipeline.filter c s.env = (v, env) →
      env = s.env ∧ (v.isSuccess = true →
        ((slot.get s.env).filter (quotas s.env c.job.ns) c).isSuccess = true) := by
    intro c v env filter
    rw [around.standard] at filter
    exact Pipeline.filter_standard slot quotas c s.env filter
  have exit := cycle_exit w s
  generalize (Scheduling.cycle w s).1 = o, (Scheduling.cycle w s).2 = t at exit ⊢
  cases exit with
  | idle => exact h
  | unfiltered _ c queues v env _ pop filter _ retried =>
    obtain ⟨hp, hc⟩ := popped pop
    rw [(filtered filter).1] at retried
    exact hp.retried around hc retried
  | refused _ c queues v v' env env' _ pop filter pass reserve _ retried =>
    obtain ⟨hp, hc⟩ := popped pop
    obtain ⟨rfl, pass'⟩ := filtered filter
    have entered := hp.reserve around hc (pass' pass)
    dsimp only at entered
    rw [reserve] at entered
    exact entered.retried around hc retried
  | reserved _ c queues v v' env env' _ _ pop filter pass reserve _ exit =>
    obtain ⟨hp, hc⟩ := popped pop
    obtain ⟨rfl, pass'⟩ := filtered filter
    have entered := hp.reserve around hc (pass' pass)
    dsimp only at entered
    rw [reserve] at entered
    exact entered.dispatched around hc exit
  | resumed c ticket held _ _ exit =>
    have free : Safe slot book Sound { s with suspended := none } :=
      h.moved rfl h.queues h.tasks fun _ e => by cases e
    exact free.dispatched around (h.suspended _ held) exit

/-! ## Confirmations -/

theorem Safe.confirmed (h : Safe slot book Sound s) (around : Surroundings w slot quotas book Sound)
    (hc : c.job.resources.Nonneg) (exit : ConfirmExit w c s t) : Safe slot book Sound t := by
  obtain ⟨sound, kept⟩ := around.recordAdmission c.job s.env h.sound
  have put := h.withEnv sound kept
  cases exit with
  | recorded admitted env env' trail ok told =>
    rw [ok] at put
    rcases told with rfl | ⟨routes, wired, rfl⟩
    · exact put.moved rfl put.queues put.tasks put.suspended
    · obtain ⟨sound, kept⟩ := around.notify routes wired admitted env put.sound
      have told := put.withEnv sound kept
      exact told.moved rfl told.queues told.tasks told.suspended
  | gone e env trail failed missing =>
    rw [failed] at put
    have back := put.unreserve around hc
    exact back.moved rfl back.queues back.tasks back.suspended
  | undone e env _ failed refusal retried =>
    rw [failed] at put
    exact (put.unreserve around hc).retried around hc retried

theorem Safe.confirmAt (h : Safe slot book Sound s) (around : Surroundings w slot quotas book Sound)
    (place : Nat) : Safe slot book Sound (confirmAt w place s).2 := by
  rcases confirmAt_exit w place s with ⟨_, same⟩ | ⟨c, dispatcher, t, taken, exit, same⟩
  · rw [same]; exact h
  · rw [same]
    obtain ⟨c', at', e⟩ := Option.map_eq_some_iff.1 taken
    cases e
    have rest : Safe slot book Sound
        { s with dispatcher := { s.dispatcher with tasks := s.dispatcher.tasks.eraseIdx place } } :=
      h.moved rfl h.queues (fun c hc => h.tasks c (List.mem_of_mem_eraseIdx hc)) h.suspended
    have done := rest.confirmed around (h.tasks _ (List.mem_of_getElem? at')) exit
    exact done.moved rfl done.queues done.tasks done.suspended

/-! ## Events -/

theorem Safe.enqueue (h : Safe slot book Sound s) {job : Job} (nonneg : job.resources.Nonneg) :
    Safe slot book Sound (enqueue job s).2 := by
  obtain ⟨queues, trail, same, change⟩ := enqueue_spec job s
  rw [same]
  refine h.moved rfl ?_ h.tasks h.suspended
  rcases change with rfl | ⟨id, q, q', hid, submitted, rfl⟩
  · exact h.queues
  · exact h.queues.put ((h.queues id q hid).requeue nonneg submitted) id

theorem Safe.withdraw (h : Safe slot book Sound s) (job : Job) :
    Safe slot book Sound (withdraw job s).2 := by
  obtain ⟨queues, same, change⟩ := withdraw_spec job s
  rw [same]
  refine h.withQueues ?_
  rcases change with rfl | ⟨id, q, hid, rfl⟩
  · exact h.queues
  · exact h.queues.put ((h.queues id q hid).remove job.key) id

theorem Safe.updateQueued (h : Safe slot book Sound s) (old : Job) {new : Job}
    (nonneg : new.resources.Nonneg) : Safe slot book Sound (updateQueued old new s).2 := by
  obtain ⟨queues, same, change⟩ := updateQueued_spec old new s
  rw [same]
  refine h.withQueues ?_
  rcases change with rfl | ⟨id, q, hid, rfl⟩
  · exact h.queues
  · exact h.queues.put ((h.queues id q hid).update old nonneg) id

theorem Safe.jobEvent (h : Safe slot book Sound s) {event : JobEvent} (waiting : event.Waiting) :
    Safe slot book Sound (applyJobEvent w event s).2 := by
  cases event with
  | added job =>
    obtain ⟨phase, nonneg⟩ := waiting
    show Safe slot book Sound (addJob w job s).2
    unfold addJob
    rw [phase]
    exact h.enqueue nonneg
  | updated old new =>
    obtain ⟨phase, phase', nonneg⟩ := waiting
    show Safe slot book Sound (updateJob w old new s).2
    unfold updateJob
    rw [phase, phase']
    dsimp only
    split
    · exact h.updateQueued old nonneg
    · exact (h.withdraw old).enqueue nonneg
  | deleted job =>
    show Safe slot book Sound (deleteJob w job s).2
    unfold deleteJob
    rw [show job.phase = .enqueued from waiting]
    exact h.withdraw job

theorem Safe.queueEvent (h : Safe slot book Sound s) (event : QueueEvent) :
    Safe slot book Sound (applyQueueEvent event s).2 := by
  have changed : ∀ change : QueueSet → Except AdmissionError QueueSet,
      (∀ queues, change s.queues = .ok queues →
        queues.Each (JobQueue.Only (·.resources.Nonneg))) →
      Safe slot book Sound (changeQueues change s).2 := by
    intro change kept
    unfold changeQueues
    rw [bind_run, get_run]
    dsimp only
    rcases e : change s.queues with _ | queues
    · exact h
    · exact h.withQueues (kept queues e)
  cases event with
  | added queue => exact changed _ fun _ e => h.queues.add JobQueue.stable_only e
  | updated old new => exact changed _ fun _ e => h.queues.update JobQueue.stable_only e
  | deleted name => exact h.withQueues (h.queues.delete JobQueue.stable_only name)

/-! ## Runs -/

theorem Safe.move (h : Safe slot book Sound s) (around : Surroundings w slot quotas book Sound)
    (move : Move w slot Sound s t) : Safe slot book Sound t := by
  cases move with
  | job event waiting => exact h.jobEvent waiting
  | queue event => exact h.queueEvent event
  | cycle => exact h.cycle around
  | confirm place => exact h.confirmAt around place
  | flush id => exact h.withQueues (h.queues.modify (fun _ hq => hq.flush s.now) id)
  | elapse span => exact h.withQueues (h.queues.elapse fun _ hq => hq.elapse s.now span)
  | start => exact h.withQueues (h.queues.start JobQueue.stable_only)
  | cancel => exact h.withQueues (h.queues.cancel JobQueue.stable_only)
  | clock now => exact h.moved rfl h.queues h.tasks h.suspended
  | turn slots => exact h.moved rfl h.queues h.tasks h.suspended
  | stop => exact h.moved rfl h.queues h.tasks h.suspended
  | closing => exact h.moved rfl h.queues h.tasks h.suspended
  | world env sound kept => exact h.withEnv sound kept

theorem Safe.run (h : Safe slot book Sound s) (around : Surroundings w slot quotas book Sound)
    (moves : Relation.ReflTransGen (Move w slot Sound) s t) : Safe slot book Sound t := by
  induction moves with
  | refl => exact h
  | tail _ move ih => exact ih.move around move

/-- No total ever exceeds a limit that the governing quota of its namespace sets, if that limit is
not negative. -/
theorem reserved_le_limit (around : Surroundings w slot quotas book Sound)
    (modest : Modest Sound s) (blank : slot.get s.env = .empty)
    (moves : Relation.ReflTransGen (Move w slot Sound) s t) (ns resource : String)
    (limit : Quantity) (limited : Quota.limit? (book ns) ns resource = some limit)
    (nonneg : 0 ≤ limit.milli) :
    ((slot.get t.env).reservedAmount ns resource).milli ≤ limit.milli :=
  ((modest.safe blank).run around moves).within ns resource limit limited nonneg

end

end Scheduling

/-! ## A namespace with three processors -/

/-- The quota of the namespace `n`. -/
def Quota.threeProcessors : QuotaBook :=
  QuotaBook.empty.set ⟨"q", "n", some (NameMap.empty.insert "cpu" (.ofUnits 3))⟩

/-- A site at which a candidate is ready that asks for two of three processors. -/
def Site.withinQuota : SchedulerState Site where
  now := 0
  queues := .holding (.wanting "x" 2)
  dispatcher := .new 1
  suspended := none
  turn := none
  stopped := false
  trail := none
  env := { empty with quotas := Quota.threeProcessors }

namespace Scheduling

open Site

/-- Two processors are reserved by a cycle, and no more than three ever are. -/
theorem reserved_le_limit_cycle :
    ∃ t, Relation.ReflTransGen
        (Move standard sharedLedger (Honest Quota.threeProcessors.entered)) withinQuota t ∧
      t.env.ledger.reservedAmount "n" "cpu" = .ofUnits 2 ∧
      (t.env.ledger.reservedAmount "n" "cpu").milli ≤ (Quantity.ofUnits 3).milli := by
  obtain ⟨queues, pop⟩ := QueueSet.popNext_holding (.wanting "x" 2)
  refine ⟨_, .single .cycle, ?_,
    reserved_le_limit (surroundings_standard Quota.threeProcessors.entered) ?_ rfl (.single .cycle)
      "n" "cpu" (.ofUnits 3) rfl (by decide)⟩
  · rw [cycle_of_pop rfl pop]
    rfl
  · exact {
      sound := ⟨fun _ => rfl, fun _ he => by cases he⟩
      queues := QueueSet.each_holding (by decide)
      tasks := fun _ hc => by cases hc
      suspended := fun _ hx => by cases hx }

end Scheduling

end JobAdmission
