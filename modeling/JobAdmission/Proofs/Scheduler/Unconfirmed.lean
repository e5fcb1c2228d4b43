/-
What a confirmation leaves behind that the record refuses. Its candidate was cleared by a cycle, and
however much was admitted since then, it is given back once, with what it was booked with and
nothing else (`unconfirmed_given_back`). And it waits in its queue for another attempt, if the queue
takes it.
-/
import JobAdmission.Proofs.Scheduler.Custody
import JobAdmission.Proofs.Scheduler.EachQueue

namespace JobAdmission

variable {E : Type}

theorem Dispatcher.take?_of_task {d : Dispatcher Candidate} {place : Nat} {c : Candidate}
    (task : d.tasks[place]? = some c) :
    d.take? place = some (c, { d with tasks := d.tasks.eraseIdx place }) := by
  unfold Dispatcher.take?
  rw [task]
  rfl

/-! ## Another attempt -/

/-- From one state to the other the queue of a candidate came to delay it, with one more attempt
counted and from now on, if the queue is registered and open and did not hold the key. -/
def SchedulerState.DelayedAgain (s t : SchedulerState E) (c : Candidate) : Prop :=
  ∀ id q, s.queues.lookup? c.job.queueName = some (id, q) → q.closed = false →
    q.holds c.key = false → ∃ q', t.queues.lookup? c.job.queueName = some (id, q') ∧
      q'.found c.key = (none, some { c with
        attempts := min (c.attempts + 1) Candidate.maxAttempts, since := s.now })

namespace Scheduling

variable {w : Wiring E} {s : SchedulerState E} {c c' : Candidate} {e : AdmissionError} {env : E}

theorem delayedAgain_delayAgain (indexed : s.queues.Each JobQueue.Indexed) (c : Candidate)
    (reason : String) : s.DelayedAgain (delayAgain c reason s).2 c := by
  intro id q found opened free
  have hi := indexed id q (lookup?_queue found)
  obtain ⟨delayed, put, -⟩ := JobQueue.delay_of_free hi opened (c := c.failedAt s.now) free
  rw [delayAgain_run, found]
  dsimp only
  rw [put]
  exact ⟨_, QueueSet.lookup?_put found _,
    JobQueue.found_delay_self hi put ((JobQueue.holds_eq_false_iff hi).1 free)⟩

theorem delayedAgain_retry (indexed : s.queues.Each JobQueue.Indexed)
    (chosen : retryable w c s.env = some c') (reason : String) :
    s.DelayedAgain (retry w c reason s).2 c' := by
  rw [retry_run, chosen]
  exact delayedAgain_delayAgain (s := { s with env := (w.client.get c.job.ns c.job.name s.env).2 })
    indexed c' reason

theorem confirm_of_refused (failed : recordAdmission w.client c.job s.env = (.error e, env))
    (refusal : e.isNotFound = false) :
    confirm w c s = retry w c e.message { s with env := (w.pipeline.unreserve c env).2 } := by
  unfold confirm
  rw [bind_run]
  unfold consult
  rw [failed]
  dsimp only
  rw [bind_run]
  dsimp only
  rw [if_neg (by rw [refusal]; exact Bool.false_ne_true)]
  rfl

/-- What the retry path finds is the record as it is after the candidate was given back. -/
theorem delayedAgain_confirmAt (indexed : s.queues.Each JobQueue.Indexed) {place : Nat}
    (task : s.dispatcher.tasks[place]? = some c)
    (failed : recordAdmission w.client c.job s.env = (.error e, env))
    (refusal : e.isNotFound = false)
    (chosen : retryable w c (w.pipeline.unreserve c env).2 = some c') :
    s.DelayedAgain (confirmAt w place s).2 c' := by
  have taken := Dispatcher.take?_of_task task
  generalize { s.dispatcher with tasks := s.dispatcher.tasks.eraseIdx place } = rest at taken
  unfold confirmAt
  rw [bind_run, get_run]
  dsimp only
  rw [taken]
  dsimp only
  rw [bind_run, modify_run]
  dsimp only
  rw [bind_run, confirm_of_refused (s := { s with dispatcher := rest }) failed refusal]
  -- the slot that is given back in the end concerns no queue
  exact delayedAgain_retry
    (s := { s with dispatcher := rest, env := (w.pipeline.unreserve c env).2 }) indexed chosen
    e.message

/-! ## Given back -/

variable {slot : LedgerSlot E} {quotas : QuotaListing E} {run : List (Happening E)} {place : Nat}

theorem recordAdmission_traced {s : SchedulerState (E × List Asked)}
    (failed : recordAdmission w.client c.job s.plain.env = (.error e, env)) :
    (recordAdmission w.traced.client c.job s.env).1 = .error e := by
  have plain : recordAdmission w.client c.job s.plain.env = _ :=
    simulates_recordAdmission w c.job s.env
  rw [failed] at plain
  exact (congrArg Prod.fst plain).symm

/-- A candidate whose confirmation failed is under way no more, and one return is noted. -/
theorem account_of_failed (inTree : w.InTree slot quotas)
    (task : (after w s run).dispatcher.tasks[place]? = some c)
    (failed : recordAdmission w.client c.job (after w s run).env = (.error e, env)) :
    (after w s run).underway.Perm (c :: (after w s (run ++ [.confirm place])).underway) ∧
      slot.noted.get (afterTraced w s (run ++ [.confirm place])).env =
        Account.unreserve (slot.noted.get (afterTraced w s run).env) c := by
  rw [← after_traced] at task failed
  obtain ⟨loss, outcome⟩ := account_confirmAt inTree (s := afterTraced w s run) task
  rw [← underway_traced, ← underway_traced, afterTraced_concat]
  refine ⟨loss, outcome.resolve_left ?_⟩
  rintro ⟨⟨admitted, env', ok⟩, -⟩
  have refused := recordAdmission_traced failed
  rw [ok] at refused
  cases refused

/-- The queue of a candidate whose confirmation failed comes to delay the version that waits on
record, or the known one if the record cannot be read. -/
theorem delayedAgain_of_failed (indexed : s.queues.Each JobQueue.Indexed)
    (task : (after w s run).dispatcher.tasks[place]? = some c)
    (failed : recordAdmission w.client c.job (after w s run).env = (.error e, env))
    (refusal : e.isNotFound = false)
    (chosen : retryable w c (w.pipeline.unreserve c env).2 = some c') :
    (after w s run).DelayedAgain (after w s (run ++ [.confirm place])) c' := by
  rw [after_concat]
  exact delayedAgain_confirmAt (each_after JobQueue.lasting_indexed w run indexed) task failed
    refusal chosen

/-- A candidate whose confirmation the record refuses, other than because its job is gone, was
cleared by an earlier cycle and has not been given back since; it is given back now. The ledger then
holds the other keys that it held, each total is less by what the candidate was booked with, and so
it is what those keys were booked with. The candidate is delayed again with the version that the
record shows, if that one waits, and as it is if the record refuses that as well. -/
theorem unconfirmed_given_back (inTree : w.InTree slot quotas) (blank : slot.get s.env = .empty)
    (idle : s.dispatcher.tasks = []) (free : s.suspended = none)
    (indexed : s.queues.Each JobQueue.Indexed) (leaves : ∀ x ∈ run, x.LeavesLedger slot)
    (nonneg : ∀ x ∈ calls w s run, x.call.candidate.job.resources.Nonneg)
    (fits : ∀ done, done <+: calls w s run → ∀ ns resource,
      Quantity.Fits ((tally done).booked ns resource))
    (task : (after w s run).dispatcher.tasks[place]? = some c)
    (failed : recordAdmission w.client c.job (after w s run).env = (.error e, env))
    (refusal : e.isNotFound = false) :
    let t := after w s run
    let u := after w s (run ++ [Happening.confirm place])
    (∃ (done rest : List (Happening E)) (since : List Asked), run = done ++ .cycle :: rest ∧
      Cleared w (after w s done) c ∧
      calls w s (run ++ [Happening.confirm place]) =
        calls w s (done ++ [Happening.cycle]) ++ since ++ [Asked.unreserve 0 c] ∧
      ∀ c', Asked.unreserve 0 c' ∈ since → c'.key ≠ c.key) ∧
    ((tally (calls w s run)).carried.get? c.key = some c ∧
      (∀ key, (slot.get u.env).isReserved key = (c.key != key && (slot.get t.env).isReserved key)) ∧
      (∀ ns resource, (slot.get u.env).total ns resource =
        (slot.get t.env).total ns resource - c.asks ns resource) ∧
      (tally (calls w s (run ++ [Happening.confirm place]))).ledger = slot.get u.env ∧
      (tally (calls w s (run ++ [Happening.confirm place]))).Balanced) ∧
    (∀ latest, (w.client.get c.job.ns c.job.name (w.pipeline.unreserve c env).2).1 = .ok latest →
      latest.phase = .enqueued → t.DelayedAgain u (c.replace latest)) ∧
    ∀ e', (w.client.get c.job.ns c.job.name (w.pipeline.unreserve c env).2).1 = .error e' →
      e'.isNotFound = false → t.DelayedAgain u c := by
  intro t u
  have none : s.underway = [] := (s.underway_free free).trans idle
  obtain ⟨loss, account⟩ := account_of_failed inTree task failed
  have log : calls w s (run ++ [.confirm place]) = calls w s run ++ [.unreserve 0 c] :=
    congrArg Prod.snd account
  have left : slot.get u.env = (slot.get t.env).unreserve c := by
    rw [← ledger_traced slot, ← ledger_traced slot]
    exact congrArg Prod.fst account
  have held := (tallies_after inTree blank none leaves).perm loss
  obtain ⟨sound, balanced⟩ := held.balanced nonneg fits
  obtain ⟨totals, balanced'⟩ := held.balanced_unreserve sound balanced
  have delayed : ∀ {c'}, retryable w c (w.pipeline.unreserve c env).2 = some c' →
      t.DelayedAgain u c' := delayedAgain_of_failed indexed task failed refusal
  refine ⟨?_, ⟨held.carried c List.mem_cons_self, fun key => ?_, fun ns resource => ?_, ?_, ?_⟩,
    fun latest found waits => delayed ?_, fun e' found refused => delayed ?_⟩
  · have under : c ∈ t.underway := List.mem_append_left _ (List.mem_of_getElem? task)
    obtain ⟨done, rest, since, split, cleared, log', unreturned⟩ :=
      unreturned_since_cleared inTree blank none leaves under
    exact ⟨done, rest, since, split, cleared, by rw [log, log'], unreturned⟩
  · rw [left, Ledger.isReserved_unreserve]
  · rw [left, ← ledger_traced slot]
    exact totals ns resource
  · rw [left, ← ledger_traced slot, log]
    exact held.unreserve.ledger
  · rw [log]
    exact balanced'
  · unfold retryable
    rw [found]
    exact if_neg (by rw [waits]; decide)
  · unfold retryable
    rw [found]
    exact if_neg (by rw [refused]; exact Bool.false_ne_true)

end Scheduling

/-! ## A record that refuses one update -/

namespace Site

/-- A candidate that asks for two processors, after some failed attempts. -/
def tried (attempts : Nat) : Candidate := { Candidate.wanting "x" 2 with attempts }

/-- A site with three processors that has the job of the candidate on record and refuses the next
update. -/
def refusing : Site :=
  { recording (Candidate.wanting "x" 2).job with
    quotas := Quota.threeProcessors
    store := { JobStore.empty.insert (Candidate.wanting "x" 2).job with refusals := 1 } }

/-- A scheduler of the site with one queue. -/
def withRefusal (q : JobQueue) : SchedulerState Site := idling (alone q) 0 refusing

theorem each_alone {P : JobQueue → Prop} {q : JobQueue} (hq : P q) : (alone q).Each P := by
  intro id q' there
  rcases id with _ | id
  · cases there
    exact hq
  · cases there

/-- The candidate alone is ready in a queue. -/
theorem exists_ready (attempts : Nat) :
    ∃ q left : JobQueue, q.Indexed ∧ q.pop = .ok (tried attempts, left) ∧ left.Vacant := by
  have vacant := JobQueue.vacant_new (QueueDef.new "default" 0) Priority.jobOrder .standard false
  obtain ⟨q, left, put, pop, emptied, -⟩ := vacant.requeue_pop (tried attempts)
  exact ⟨q, left, vacant.indexed.requeue put, pop, emptied⟩

section

open Scheduling

variable {attempts : Nat} {q left : JobQueue}

/-- The candidate is taken, and its confirmation is under way. -/
theorem after_withRefusal (pop : q.pop = .ok (tried attempts, left)) :
    after standard (withRefusal q) [.cycle] =
      (attempt standard (tried attempts) (withRefusal left)).2 :=
  congrArg Prod.snd (cycle_of_pop rfl (popNext_alone pop))

theorem calls_withRefusal (pop : q.pop = .ok (tried attempts, left)) :
    calls standard (withRefusal q) [.cycle] = [.reserve 0 (tried attempts) true] := by
  show (cycle standard.traced (withRefusal q).traced).2.env.2 = _
  rw [cycle_of_pop rfl (popNext_alone pop)]
  rfl

/-- The record refuses the admission, and shows the job that waits when it is asked again. -/
theorem exists_refusal (pop : q.pop = .ok (tried attempts, left)) : ∃ env,
    recordAdmission standard.client (tried attempts).job
        (after standard (withRefusal q) [.cycle]).env =
      (.error (.client "update of n/x refused"), env) ∧
    (standard.client.get "n" "x" (standard.pipeline.unreserve (tried attempts) env).2).1 =
      .ok (tried attempts).job := by
  rw [after_withRefusal pop]
  exact ⟨_, rfl, rfl⟩

end

theorem inTree_standard : standard.InTree sharedLedger listQuotas where
  pipeline := ⟨empty, rfl⟩
  lawful := lawful_sharedLedger
  get := kept_read
  update := kept_write
  notify _ wired := by cases wired

end Site

namespace Scheduling

open Site

/-- The first attempt of a candidate fails in its confirmation. -/
theorem unconfirmed_given_back_refused : ∃ q : JobQueue,
    let t := after standard (withRefusal q) [.cycle]
    let u := after standard (withRefusal q) [.cycle, .confirm 0]
    t.env.ledger.isReserved "n/x" = true ∧ u.env.ledger.isReserved "n/x" = false ∧
      t.env.ledger.total "n" "cpu" = 2000 ∧ u.env.ledger.total "n" "cpu" = 0 ∧
      ∃ q', u.queues.lookup? "default" = some (0, q') ∧
        q'.found "n/x" = (none, some { tried 0 with attempts := 1, since := 0 }) := by
  obtain ⟨q, left, indexed, pop, vacant⟩ := exists_ready 0
  obtain ⟨env, failed, found⟩ := exists_refusal pop
  have cycled := after_withRefusal pop
  have log := calls_withRefusal pop
  have task : (after standard (withRefusal q) [.cycle]).dispatcher.tasks[0]? = some (tried 0) := by
    rw [cycled]
    rfl
  have fits : ∀ done, done <+: [.reserve 0 (tried 0) true] → ∀ ns resource,
      Quantity.Fits ((tally done).booked ns resource) := by
    intro done hp ns resource
    simp only [List.prefix_cons_iff, List.prefix_nil] at hp
    obtain rfl | ⟨_, rfl, rfl⟩ := hp
    · show Quantity.Fits 0
      decide
    · show Quantity.Fits ((Candidate.wanting "x" 2).asks ns resource + 0)
      rw [Candidate.asks_wanting]
      split <;> decide
  obtain ⟨-, ⟨-, keys, totals, -⟩, delayed, -⟩ := unconfirmed_given_back inTree_standard rfl rfl rfl
    (each_alone indexed) (fun x hx => by rw [List.mem_singleton.1 hx]; exact trivial)
    (by rw [log]; decide) (by rw [log]; exact fits) task failed rfl
  have totals := totals "n" "cpu"
  obtain ⟨q', there, put⟩ := delayed _ found rfl 0 left (by rw [cycled]; rfl) vacant.opened
    (vacant.holds _)
  have before : (after standard (withRefusal q) [.cycle]).env.ledger.total "n" "cpu" = 2000 ∧
      (after standard (withRefusal q) [.cycle]).now = 0 := by
    rw [cycled]
    exact ⟨rfl, rfl⟩
  refine ⟨q, by rw [cycled]; rfl, (keys "n/x").trans rfl, before.1, totals.trans ?_, q', there, ?_⟩
  · show (after standard (withRefusal q) [.cycle]).env.ledger.total "n" "cpu" - 2000 = 0
    rw [before.1]
    rfl
  · rw [before.2] at put
    exact put

/-- A candidate whose count of attempts stands at the largest value is delayed with the same count
when its confirmation fails. -/
theorem attempts_stay_at_largest : ∃ (q left q' : JobQueue) (env : Site),
    let c := tried Candidate.maxAttempts
    let t := after standard (withRefusal q) [.cycle]
    let u := after standard (withRefusal q) [.cycle, .confirm 0]
    t.dispatcher.tasks = [c] ∧
      recordAdmission standard.client c.job t.env =
        (.error (.client "update of n/x refused"), env) ∧
      (standard.client.get "n" "x" (standard.pipeline.unreserve c env).2).1 = .ok c.job ∧
      t.queues.lookup? "default" = some (0, left) ∧ left.closed = false ∧
      left.holds c.key = false ∧ u.queues.lookup? "default" = some (0, q') ∧
      (q'.delayed.find? c.key).map (·.attempts) = some Candidate.maxAttempts ∧
      (q'.delayed.find? c.key).map (·.attempts) ≠ some (c.attempts + 1) := by
  obtain ⟨q, left, indexed, pop, vacant⟩ := exists_ready Candidate.maxAttempts
  obtain ⟨env, failed, found⟩ := exists_refusal pop
  have cycled := after_withRefusal pop
  have tasks : (after standard (withRefusal q) [.cycle]).dispatcher.tasks =
      [tried Candidate.maxAttempts] := by
    rw [cycled]
    rfl
  have waits : (after standard (withRefusal q) [.cycle]).queues.lookup? "default" =
      some (0, left) := by
    rw [cycled]
    rfl
  have chosen : retryable standard (tried Candidate.maxAttempts)
      (standard.pipeline.unreserve (tried Candidate.maxAttempts) env).2 =
        some ((tried Candidate.maxAttempts).replace (tried Candidate.maxAttempts).job) := by
    unfold retryable
    rw [show (tried Candidate.maxAttempts).job.ns = "n" from rfl,
      show (tried Candidate.maxAttempts).job.name = "x" from rfl, found]
    rfl
  have task : (after standard (withRefusal q) [.cycle]).dispatcher.tasks[0]? =
      some (tried Candidate.maxAttempts) := by
    rw [tasks]
    rfl
  obtain ⟨q', there, put⟩ := delayedAgain_confirmAt
    (each_after JobQueue.lasting_indexed standard [.cycle] (each_alone indexed)) task failed rfl
    chosen 0 left waits vacant.opened (vacant.holds _)
  have count : (q'.delayed.find? (tried Candidate.maxAttempts).key).map (·.attempts) =
      some Candidate.maxAttempts := congrArg (fun found => found.2.map (·.attempts)) put
  refine ⟨q, left, q', env, tasks, failed, found, waits, vacant.opened, vacant.holds _, there,
    count, ?_⟩
  rw [count]
  exact fun same => Nat.succ_ne_self _ (Option.some.inj same).symm

end Scheduling

end JobAdmission
