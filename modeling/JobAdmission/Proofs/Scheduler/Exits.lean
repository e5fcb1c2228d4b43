/-
How a cycle ends. A cycle leaves by one of a few exits, and each says what became of the candidate
and which parts of the scheduler were touched on the way; whatever is stated about cycles follows
from them.
-/
import JobAdmission.Scheduler.Cycle

namespace JobAdmission

variable {E : Type}

namespace Scheduling

/-- The candidate that the retry path delays, if the record lets it. -/
def retryable (w : Wiring E) (c : Candidate) (env : E) : Option Candidate :=
  match (w.client.get c.job.ns c.job.name env).1 with
  | .ok latest => if latest.phase = .dequeued then none else some (c.replace latest)
  | .error e => if e.isNotFound then none else some c

theorem retryable_eq_some {w : Wiring E} {c c' : Candidate} {env : E}
    (h : retryable w c env = some c') :
    c' = c ∨ ∃ latest, (w.client.get c.job.ns c.job.name env).1 = .ok latest ∧
      c' = c.replace latest := by
  unfold retryable at h
  split at h
  · rename_i latest answer
    split at h
    · cases h
    · cases h
      exact .inr ⟨latest, answer, rfl⟩
  · split at h
    · cases h
    · cases h
      exact .inl rfl

end Scheduling

/-- What the retry path does to a scheduler: one look at the record, and if the candidate is not
given up it is delayed, as it was or with the version on record. -/
structure Retried (w : Wiring E) (c : Candidate) (s t : SchedulerState E) : Prop where
  env : t.env = (w.client.get c.job.ns c.job.name s.env).2
  now : t.now = s.now
  dispatcher : t.dispatcher = s.dispatcher
  suspended : t.suspended = s.suspended
  delayed : t.queues = s.queues ∨ ∃ c' id q q', Scheduling.retryable w c s.env = some c' ∧
    s.queues.queue? id = some q ∧ q.delay (c'.failedAt s.now) = .ok q' ∧
      t.queues = s.queues.put id q'

/-- What is delayed is a version of the same job. -/
theorem Retried.queues {w : Wiring E} {c : Candidate} {s t : SchedulerState E}
    (h : Retried w c s t) : t.queues = s.queues ∨ ∃ c' id q q',
      (c'.job = c.job ∨ (w.client.get c.job.ns c.job.name s.env).1 = .ok c'.job) ∧
        s.queues.queue? id = some q ∧ q.delay c' = .ok q' ∧ t.queues = s.queues.put id q' := by
  refine h.delayed.imp id ?_
  rintro ⟨c', id, q, q', chosen, there, put, left⟩
  have version : c'.job = c.job ∨ (w.client.get c.job.ns c.job.name s.env).1 = .ok c'.job := by
    obtain rfl | ⟨latest, answer, rfl⟩ := Scheduling.retryable_eq_some chosen
    · exact .inl rfl
    · exact .inr answer
  exact ⟨c'.failedAt s.now, id, q, q', version, there, put, left⟩

/-- What becomes of a candidate that holds its reservations and needs a slot. -/
inductive DispatchExit (w : Wiring E) (c : Candidate) (s : SchedulerState E) :
    Outcome → SchedulerState E → Prop where
  /-- It waits for a slot, or for the call for one. -/
  | blocked (t : SchedulerState E) (env : t.env = s.env) (now : t.now = s.now)
      (queues : t.queues = s.queues) (tasks : t.dispatcher.tasks = s.dispatcher.tasks)
      (suspended : ∃ ticket, t.suspended = some ⟨c, ticket⟩) : DispatchExit w c s .blocked t
  /-- Its confirmation is under way. -/
  | confirming (t : SchedulerState E) (env : t.env = s.env) (now : t.now = s.now)
      (queues : t.queues = s.queues) (tasks : t.dispatcher.tasks = s.dispatcher.tasks ++ [c])
      (suspended : t.suspended = s.suspended) : DispatchExit w c s .confirming t
  /-- It is refused a slot: its reservations are given back, and it is retried. -/
  | undone (u t : SchedulerState E) (env : u.env = (w.pipeline.unreserve c s.env).2)
      (now : u.now = s.now) (queues : u.queues = s.queues)
      (tasks : u.dispatcher.tasks = s.dispatcher.tasks) (suspended : u.suspended = s.suspended)
      (retried : Retried w c u t) : DispatchExit w c s .retrying t

/-- What a cycle comes to. -/
inductive CycleExit (w : Wiring E) (s : SchedulerState E) : Outcome → SchedulerState E → Prop where
  /-- No queue has a ready job. -/
  | idle (free : s.suspended = none) (none : s.queues.popNext = none) : CycleExit w s .idle s
  /-- A filter refused the candidate. -/
  | unfiltered (free : s.suspended = none) (c : Candidate) (queues : QueueSet) (v : Verdict)
      (env : E) (t : SchedulerState E) (pop : s.queues.popNext = some (c, queues))
      (filter : w.pipeline.filter c s.env = (v, env)) (refusal : v.isSuccess = false)
      (retried : Retried w c { s with queues, env } t) : CycleExit w s .retrying t
  /-- A reservation was refused. -/
  | refused (free : s.suspended = none) (c : Candidate) (queues : QueueSet) (v v' : Verdict)
      (env env' : E) (t : SchedulerState E) (pop : s.queues.popNext = some (c, queues))
      (filter : w.pipeline.filter c s.env = (v, env)) (pass : v.isSuccess = true)
      (reserve : w.pipeline.reserve c env = (v', env')) (refusal : v'.isSuccess = false)
      (retried : Retried w c { s with queues, env := env' } t) : CycleExit w s .retrying t
  /-- All reservations were made. -/
  | reserved (free : s.suspended = none) (c : Candidate) (queues : QueueSet) (v v' : Verdict)
      (env env' : E) (o : Outcome) (t : SchedulerState E)
      (pop : s.queues.popNext = some (c, queues))
      (filter : w.pipeline.filter c s.env = (v, env)) (pass : v.isSuccess = true)
      (reserve : w.pipeline.reserve c env = (v', env')) (pass' : v'.isSuccess = true)
      (exit : DispatchExit w c { s with queues, env := env' } o t) : CycleExit w s o t
  /-- A suspended cycle went on. -/
  | resumed (c : Candidate) (ticket : Option Nat) (held : s.suspended = some ⟨c, ticket⟩)
      (o : Outcome) (t : SchedulerState E)
      (exit : DispatchExit w c { s with suspended := none } o t) : CycleExit w s o t

/-- What a confirmation comes to. -/
inductive ConfirmExit (w : Wiring E) (c : Candidate) (s : SchedulerState E) :
    SchedulerState E → Prop where
  /-- The admission is on record, and the handler of the job was told if there is one. -/
  | recorded (admitted : Job) (env env' : E) (trail : Option AuditTrail)
      (ok : Scheduling.recordAdmission w.client c.job s.env = (.ok admitted, env))
      (told : env' = env ∨
        ∃ routes, w.routes = some routes ∧ env' = (routes.notifyDequeued admitted env).2) :
      ConfirmExit w c s { s with env := env', trail }
  /-- The job is gone: its reservations are given back. -/
  | gone (e : AdmissionError) (env : E) (trail : Option AuditTrail)
      (failed : Scheduling.recordAdmission w.client c.job s.env = (.error e, env))
      (missing : e.isNotFound = true) :
      ConfirmExit w c s { s with env := (w.pipeline.unreserve c env).2, trail }
  /-- The record refused: the reservations are given back, and the candidate is retried. -/
  | undone (e : AdmissionError) (env : E) (t : SchedulerState E)
      (failed : Scheduling.recordAdmission w.client c.job s.env = (.error e, env))
      (refusal : e.isNotFound = false)
      (retried : Retried w c { s with env := (w.pipeline.unreserve c env).2 } t) :
      ConfirmExit w c s t

namespace Scheduling

theorem bind_run {S α β : Type} (m : StateM S α) (f : α → StateM S β) (s : S) :
    (m >>= f) s = f (m s).1 (m s).2 := rfl

theorem get_run {S : Type} (s : S) : (get : StateM S S) s = (s, s) := rfl

theorem modify_run {S : Type} (f : S → S) (s : S) : (modify f : StateM S Unit) s = ((), f s) := rfl

/-! ## The retry path -/

theorem lookup?_queue {s : QueueSet} {name : String} {id : QueueId} {q : JobQueue}
    (e : s.lookup? name = some (id, q)) : s.queue? id = some q := by
  obtain ⟨id', _, e⟩ := Option.bind_eq_some_iff.1 e
  obtain ⟨q', e, h⟩ := Option.map_eq_some_iff.1 e
  cases h
  exact e

theorem delayAgain_run (c : Candidate) (reason : String) (s : SchedulerState E) :
    delayAgain c reason s = (match s.queues.lookup? c.job.queueName with
      | none => decide (c.failedAt s.now) .discard (some reason) s
      | some (id, q) => match q.delay (c.failedAt s.now) with
        | .ok q' => decide (c.failedAt s.now) .backoff
            (some ("attempt " ++ toString (c.failedAt s.now).attempts ++ ": " ++ reason))
            { s with queues := s.queues.put id q' }
        | .error _ => ((), s)) := by
  unfold delayAgain
  rw [bind_run, get_run]
  dsimp only
  rw [show (c.failedAt s.now).job.queueName = c.job.queueName from rfl]
  rcases s.queues.lookup? c.job.queueName with _ | ⟨id, q⟩
  · rfl
  · dsimp only
    rcases q.delay (c.failedAt s.now) with _ | q' <;> rfl

/-- Delaying a candidate puts it into one queue, or changes nothing but the trail. -/
theorem delayAgain_spec (c : Candidate) (reason : String) (s : SchedulerState E) :
    ∃ queues trail, (delayAgain c reason s).2 = { s with queues, trail } ∧
      (queues = s.queues ∨ ∃ id q q', s.queues.queue? id = some q ∧
        q.delay (c.failedAt s.now) = .ok q' ∧ queues = s.queues.put id q') := by
  rw [delayAgain_run]
  rcases found : s.queues.lookup? c.job.queueName with _ | ⟨id, q⟩
  · exact ⟨_, _, rfl, .inl rfl⟩
  · dsimp only
    rcases put : q.delay (c.failedAt s.now) with _ | q'
    · exact ⟨_, _, rfl, .inl rfl⟩
    · exact ⟨_, _, rfl, .inr ⟨id, q, q', lookup?_queue found, put, rfl⟩⟩

theorem retry_run (w : Wiring E) (c : Candidate) (reason : String) (s : SchedulerState E) :
    retry w c reason s = (match retryable w c s.env with
      | some c' => delayAgain c' reason
      | none => decide c .discard (some reason))
      { s with env := (w.client.get c.job.ns c.job.name s.env).2 } := by
  unfold retry retryable consult
  rw [bind_run]
  rcases w.client.get c.job.ns c.job.name s.env with ⟨e | latest, env⟩
  · dsimp only
    split <;> rfl
  · dsimp only
    split <;> rfl

theorem retried (w : Wiring E) (c : Candidate) (reason : String) (s : SchedulerState E) :
    Retried w c s (retry w c reason s).2 := by
  rw [retry_run]
  rcases chosen : retryable w c s.env with _ | c'
  · exact ⟨rfl, rfl, rfl, rfl, .inl rfl⟩
  · dsimp only
    obtain ⟨queues, trail, same, delayed⟩ := delayAgain_spec c' reason
      { s with env := (w.client.get c.job.ns c.job.name s.env).2 }
    rw [same]
    refine ⟨rfl, rfl, rfl, rfl, delayed.imp id ?_⟩
    rintro ⟨id, q, q', there, put, left⟩
    exact ⟨c', id, q, q', chosen, there, put, left⟩

/-! ## The dispatch -/

/-- After the call for a slot, whose answer the tasks agree with. -/
theorem afterDispatch_exit (w : Wiring E) (c : Candidate) (s : SchedulerState E)
    (r : Acquisition × Semaphore) :
    DispatchExit w c s
      (afterDispatch w c (s.dispatcher.settle c r).1
        { s with dispatcher := (s.dispatcher.settle c r).2 }).1
      (afterDispatch w c (s.dispatcher.settle c r).1
        { s with dispatcher := (s.dispatcher.settle c r).2 }).2 := by
  obtain ⟨a, slots⟩ := r
  cases a with
  | granted => exact .confirming _ rfl rfl rfl rfl rfl
  | waiting ticket => exact .blocked _ rfl rfl rfl rfl ⟨some ticket, rfl⟩
  | refused =>
    rcases e : w.pipeline.unreserve c s.env with ⟨u, env⟩
    -- the state between the return and the retry
    refine .undone { s with dispatcher := (s.dispatcher.settle c (.refused, slots)).2, env } _
      (by rw [e]) rfl rfl rfl rfl ?_
    show Retried w c _ (Prod.snd ((do
      consult (w.pipeline.unreserve c)
      retry w c Dispatcher.closedError.message
      return .retrying : Scheduling E Outcome) _))
    rw [bind_run]
    unfold consult
    dsimp only
    rw [e]
    exact retried w c _ _

theorem dispatch_exit (w : Wiring E) (c : Candidate) (s : SchedulerState E) :
    DispatchExit w c s (dispatch w c s).1 (dispatch w c s).2 := by
  unfold dispatch
  rw [bind_run, get_run]
  dsimp only
  split
  · exact .blocked _ rfl rfl rfl rfl ⟨none, rfl⟩
  · exact afterDispatch_exit w c s (s.dispatcher.slots.acquire 1)

theorem resume_exit (w : Wiring E) (x : Suspension) (s : SchedulerState E) :
    DispatchExit w x.candidate s (resume w x s).1 (resume w x s).2 := by
  obtain ⟨c, _ | ticket⟩ := x
  · exact dispatch_exit w c s
  · exact afterDispatch_exit w c s (s.dispatcher.slots.poll ticket)

/-! ## The cycle -/

theorem start_of_pop {w : Wiring E} {s : SchedulerState E} {c : Candidate} {queues : QueueSet}
    (pop : s.queues.popNext = some (c, queues)) : start w s = attempt w c { s with queues } := by
  unfold start
  rw [bind_run, get_run]
  dsimp only
  rw [pop]
  rfl

theorem cycle_of_pop {w : Wiring E} {s : SchedulerState E} (free : s.suspended = none)
    {c : Candidate} {queues : QueueSet} (pop : s.queues.popNext = some (c, queues)) :
    cycle w s = attempt w c { s with queues } := by
  rw [← start_of_pop pop]
  unfold cycle
  rw [bind_run, get_run]
  dsimp only
  rw [free]

/-- Every cycle leaves by one of the exits. -/
theorem cycle_exit (w : Wiring E) (s : SchedulerState E) :
    CycleExit w s (cycle w s).1 (cycle w s).2 := by
  unfold cycle
  rw [bind_run, get_run]
  dsimp only
  rcases held : s.suspended with _ | ⟨c, ticket⟩
  · rcases pop : s.queues.popNext with _ | ⟨c, queues⟩
    · dsimp only
      unfold start
      rw [bind_run, get_run]
      dsimp only
      rw [pop]
      exact .idle held pop
    · dsimp only
      rw [start_of_pop pop]
      unfold attempt consult
      rw [bind_run]
      rcases filter : w.pipeline.filter c s.env with ⟨v, env⟩
      dsimp only
      rcases pass : v.isSuccess with _ | _
      · exact .unfiltered held c queues v env _ pop filter pass (retried w c v.message _)
      · rw [if_pos rfl, bind_run]
        rcases reserve : w.pipeline.reserve c env with ⟨v', env'⟩
        dsimp only
        rcases pass' : v'.isSuccess with _ | _
        · exact .refused held c queues v v' env env' _ pop filter pass reserve pass'
            (retried w c v'.message _)
        · exact .reserved held c queues v v' env env' _ _ pop filter pass reserve pass'
            (dispatch_exit w c _)
  · exact .resumed c ticket held _ _ (resume_exit w ⟨c, ticket⟩ { s with suspended := none })

/-! ## The confirmation -/

/-- Telling a handler changes the environment and the trail. -/
theorem notifyRelease_spec (w : Wiring E) (c : Candidate) (admitted : Job)
    (s : SchedulerState E) : ∃ env trail,
      (notifyRelease w c admitted s).2 = { s with env, trail } ∧ (env = s.env ∨
        ∃ routes, w.routes = some routes ∧ env = (routes.notifyDequeued admitted s.env).2) := by
  unfold notifyRelease
  rcases w.routes with _ | routes
  · exact ⟨s.env, s.trail, rfl, .inl rfl⟩
  · dsimp only
    rw [bind_run]
    unfold consult
    rcases e : routes.notifyDequeued admitted s.env with ⟨told, env⟩
    dsimp only
    split
    · exact ⟨_, _, rfl, .inr ⟨routes, rfl, by rw [e]⟩⟩
    · exact ⟨_, _, rfl, .inr ⟨routes, rfl, by rw [e]⟩⟩

theorem confirm_exit (w : Wiring E) (c : Candidate) (s : SchedulerState E) :
    ConfirmExit w c s (confirm w c s).2 := by
  unfold confirm
  rw [bind_run]
  unfold consult
  rcases put : recordAdmission w.client c.job s.env with ⟨failure | admitted, env⟩
  · dsimp only
    rw [bind_run]
    dsimp only
    rcases gone : failure.isNotFound with _ | _
    · exact .undone failure env _ put gone (retried w c failure.message _)
    · exact .gone failure env _ put gone
  · dsimp only
    rw [bind_run]
    obtain ⟨env', trail, same, told⟩ := notifyRelease_spec w c admitted
      (decide c .dequeue none { s with env }).2
    rw [same]
    exact .recorded admitted env env' trail put told

/-- A confirmation under way is done, if there is one at the place. -/
theorem confirmAt_exit (w : Wiring E) (place : Nat) (s : SchedulerState E) :
    s.dispatcher.take? place = none ∧ confirmAt w place s = (false, s) ∨
      ∃ c dispatcher t, s.dispatcher.take? place = some (c, dispatcher) ∧
        ConfirmExit w c { s with dispatcher } t ∧
        confirmAt w place s = (true, { t with dispatcher := t.dispatcher.giveBack }) := by
  unfold confirmAt
  rw [bind_run, get_run]
  dsimp only
  rcases s.dispatcher.take? place with _ | ⟨c, dispatcher⟩
  · exact .inl ⟨rfl, rfl⟩
  · exact .inr ⟨c, dispatcher, _, rfl, confirm_exit w c { s with dispatcher }, rfl⟩

end Scheduling

end JobAdmission
