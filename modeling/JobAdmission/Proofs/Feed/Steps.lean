/-
What the steps of an event do to a scheduler. A waiting job concerns one queue, and nothing but that
queue and the trail changes; an admitted job is one request to the reservations. So outside the
queues an event is at most one such request.
-/
import JobAdmission.Feed.Apply
import JobAdmission.Proofs.Scheduler.Exits

namespace JobAdmission

/-- An event that gives reservations back: an admitted job disappeared or waits again. -/
def JobEvent.GivesBack : JobEvent → Prop
  | .added _ => False
  | .updated old new => old.phase = .dequeued ∧ new.phase = .enqueued
  | .deleted job => job.phase = .dequeued

namespace Scheduling

variable {E : Type}

/-! ## One step -/

section

variable {s : SchedulerState E} {job old new : Job} {id : QueueId} {q q' : JobQueue}

theorem enqueue_of_unknown (unknown : s.queues.lookup? job.queueName = none) :
    (enqueue job s).2 = s := by
  unfold enqueue
  rw [bind_run, get_run]
  dsimp only
  rw [unknown]
  rfl

theorem enqueue_of_refused {reason : AdmissionError}
    (known : s.queues.lookup? job.queueName = some (id, q))
    (refused : q.submit s.now job = .error reason) : (enqueue job s).2 = s := by
  unfold enqueue
  rw [bind_run, get_run]
  dsimp only
  rw [known]
  dsimp only
  rw [refused]
  rfl

theorem enqueue_of_put (known : s.queues.lookup? job.queueName = some (id, q))
    (put : q.submit s.now job = .ok q') :
    ∃ trail, enqueue job s = (.ok (), { s with queues := s.queues.put id q', trail }) := by
  unfold enqueue
  rw [bind_run, get_run]
  dsimp only
  rw [known]
  dsimp only
  rw [put]
  exact ⟨_, rfl⟩

theorem queues_enqueue (known : s.queues.lookup? job.queueName = some (id, q))
    (put : q.submit s.now job = .ok q') : (enqueue job s).2.queues = s.queues.put id q' := by
  obtain ⟨trail, same⟩ := enqueue_of_put known put
  rw [same]

theorem withdraw_of_unknown (unknown : s.queues.lookup? job.queueName = none) :
    (withdraw job s).2 = s := by
  unfold withdraw
  rw [modify_run]
  dsimp only
  rw [unknown]

theorem withdraw_of_known (known : s.queues.lookup? job.queueName = some (id, q)) :
    (withdraw job s).2 = { s with queues := s.queues.put id (q.remove job.key).2 } := by
  unfold withdraw
  rw [modify_run]
  dsimp only
  rw [known]

theorem updateQueued_of_unknown (unknown : s.queues.lookup? new.queueName = none) :
    (updateQueued old new s).2 = s := by
  unfold updateQueued
  rw [bind_run, get_run]
  dsimp only
  rw [unknown]
  rfl

theorem updateQueued_of_known (known : s.queues.lookup? new.queueName = some (id, q)) :
    (updateQueued old new s).2 = { s with queues := s.queues.put id (q.update old new).2 } := by
  unfold updateQueued
  rw [bind_run, get_run]
  dsimp only
  rw [known]
  rfl

end

/-- A job is put into one queue, or nothing happens. -/
theorem enqueue_spec (job : Job) (s : SchedulerState E) :
    ∃ queues trail, (enqueue job s).2 = { s with queues, trail } ∧
      (queues = s.queues ∨ ∃ id q q', s.queues.queue? id = some q ∧
        q.submit s.now job = .ok q' ∧ queues = s.queues.put id q') := by
  rcases found : s.queues.lookup? job.queueName with _ | ⟨id, q⟩
  · exact ⟨_, _, enqueue_of_unknown found, .inl rfl⟩
  · rcases put : q.submit s.now job with _ | q'
    · exact ⟨_, _, enqueue_of_refused found put, .inl rfl⟩
    · obtain ⟨trail, same⟩ := enqueue_of_put found put
      exact ⟨_, trail, congrArg Prod.snd same, .inr ⟨id, q, q', lookup?_queue found, put, rfl⟩⟩

theorem now_enqueue (job : Job) (s : SchedulerState E) : (enqueue job s).2.now = s.now := by
  obtain ⟨queues, trail, same, -⟩ := enqueue_spec job s
  rw [same]

theorem env_enqueue (job : Job) (s : SchedulerState E) : (enqueue job s).2.env = s.env := by
  obtain ⟨queues, trail, same, -⟩ := enqueue_spec job s
  rw [same]

/-- A job is taken out of one queue, or nothing happens. -/
theorem withdraw_spec (job : Job) (s : SchedulerState E) :
    ∃ queues, (withdraw job s).2 = { s with queues } ∧
      (queues = s.queues ∨ ∃ id q, s.queues.queue? id = some q ∧
        queues = s.queues.put id (q.remove job.key).2) := by
  rcases found : s.queues.lookup? job.queueName with _ | ⟨id, q⟩
  · exact ⟨_, withdraw_of_unknown found, .inl rfl⟩
  · exact ⟨_, withdraw_of_known found, .inr ⟨id, q, lookup?_queue found, rfl⟩⟩

/-- A job is replaced in one queue, or nothing happens. -/
theorem updateQueued_spec (old new : Job) (s : SchedulerState E) :
    ∃ queues, (updateQueued old new s).2 = { s with queues } ∧
      (queues = s.queues ∨ ∃ id q, s.queues.queue? id = some q ∧
        queues = s.queues.put id (q.update old new).2) := by
  rcases found : s.queues.lookup? new.queueName with _ | ⟨id, q⟩
  · exact ⟨_, updateQueued_of_unknown found, .inl rfl⟩
  · exact ⟨_, updateQueued_of_known found, .inr ⟨id, q, lookup?_queue found, rfl⟩⟩

/-! ## Events -/

/-- What an event does outside the queues: nothing, or one request to the reservations, which is a
return only if the event is one that gives back. -/
structure Fed (w : Wiring E) (givesBack : Prop) (s t : SchedulerState E) : Prop where
  now : t.now = s.now
  dispatcher : t.dispatcher = s.dispatcher
  suspended : t.suspended = s.suspended
  env : t.env = s.env ∨ (∃ c, t.env = (w.pipeline.reserve c s.env).2) ∨
    givesBack ∧ ∃ c, t.env = (w.pipeline.unreserve c s.env).2

section

variable {w : Wiring E} {givesBack : Prop} {s t : SchedulerState E}

theorem Fed.enqueue (h : Fed w givesBack s t) (job : Job) :
    Fed w givesBack s (enqueue job t).2 := by
  obtain ⟨queues, trail, same, _⟩ := enqueue_spec job t
  rw [same]
  exact ⟨h.now, h.dispatcher, h.suspended, h.env⟩

theorem Fed.withdraw (h : Fed w givesBack s t) (job : Job) :
    Fed w givesBack s (withdraw job t).2 := by
  obtain ⟨queues, same, _⟩ := withdraw_spec job t
  rw [same]
  exact ⟨h.now, h.dispatcher, h.suspended, h.env⟩

theorem Fed.updateQueued (h : Fed w givesBack s t) (old new : Job) :
    Fed w givesBack s (updateQueued old new t).2 := by
  obtain ⟨queues, same, _⟩ := updateQueued_spec old new t
  rw [same]
  exact ⟨h.now, h.dispatcher, h.suspended, h.env⟩

/-- Before the reservations are asked nothing happened outside the queues. -/
theorem Fed.reserveAdmitted (h : Fed w givesBack s t) (same : t.env = s.env) (job : Job) :
    Fed w givesBack s (reserveAdmitted w job t).2 :=
  ⟨h.now, h.dispatcher, h.suspended, .inr (.inl ⟨.fresh job t.now, by rw [← same]; rfl⟩)⟩

theorem fed_refl (w : Wiring E) (givesBack : Prop) (s : SchedulerState E) : Fed w givesBack s s :=
  ⟨rfl, rfl, rfl, .inl rfl⟩

theorem fed_unreserveAdmitted (back : givesBack) (job : Job) :
    Fed w givesBack s (unreserveAdmitted w job s).2 :=
  ⟨rfl, rfl, rfl, .inr (.inr ⟨back, .fresh job s.now, rfl⟩)⟩

theorem applyJobEvent_fed (w : Wiring E) (event : JobEvent) (s : SchedulerState E) :
    Fed w event.GivesBack s (applyJobEvent w event s).2 := by
  have start := fun p => fed_refl w p s
  cases event with
  | added job =>
    show Fed w _ s (addJob w job s).2
    unfold addJob
    rcases job.phase with _ | _
    · exact (start _).enqueue job
    · exact (start _).reserveAdmitted rfl job
  | updated old new =>
    show Fed w _ s (updateJob w old new s).2
    unfold updateJob
    rcases phase : old.phase with _ | _ <;> rcases phase' : new.phase with _ | _
    · dsimp only
      split
      · exact (start _).updateQueued old new
      · exact ((start _).withdraw old).enqueue new
    · obtain ⟨queues, same, _⟩ := withdraw_spec old s
      exact ((start _).withdraw old).reserveAdmitted (by rw [same]) new
    · exact (fed_unreserveAdmitted ⟨phase, phase'⟩ old).enqueue new
    · exact start _
  | deleted job =>
    show Fed w _ s (deleteJob w job s).2
    unfold deleteJob
    rcases phase : job.phase with _ | _
    · exact (start _).withdraw job
    · exact fed_unreserveAdmitted phase job

/-- An event about queues concerns the queues alone. -/
theorem applyQueueEvent_queues (event : QueueEvent) (s : SchedulerState E) :
    ∃ queues, (applyQueueEvent event s).2 = { s with queues } := by
  have changed : ∀ change, ∃ queues, (changeQueues change s).2 = { s with queues } := by
    intro change
    unfold changeQueues
    rw [bind_run, get_run]
    dsimp only
    rcases change s.queues with _ | queues
    · exact ⟨s.queues, rfl⟩
    · exact ⟨queues, rfl⟩
  cases event with
  | added queue => exact changed _
  | updated old new => exact changed _
  | deleted name => exact ⟨_, rfl⟩

end

end Scheduling

end JobAdmission
