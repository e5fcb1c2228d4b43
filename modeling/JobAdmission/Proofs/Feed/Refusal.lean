/-
What a refused event leaves behind. A refused change to the queues changes nothing at all, and so
does a job that its queue refuses at once. But a waiting job that moves to another queue leaves the
old one before the new one is asked, and an admitted job that is to wait again gives its reservation
back before its queue is asked. If that queue refuses, what was taken away first is not put back. So
a refused event changes nothing exactly if there was nothing to take away.
-/
import JobAdmission.Proofs.Scheduler.EachQueue
import JobAdmission.Proofs.Scheduler.OneAdmission

namespace JobAdmission

variable {E : Type}

/-! ## What a refusal may leave unchanged -/

/-- Two queues hold the same candidates, ready and delayed. -/
structure JobQueue.HoldsSame (q q' : JobQueue) : Prop where
  ready : q.ready.toList.Perm q'.ready.toList
  delayed : q.delayed.toList.Perm q'.delayed.toList

namespace JobQueue

open KeyedHeap

variable {q : JobQueue} {key : String}

theorem HoldsSame.refl (q : JobQueue) : q.HoldsSame q := ⟨.refl _, .refl _⟩

theorem holds_eq (hi : q.Indexed) (key : String) :
    q.holds key = ((q.ready.find? key).isSome || (q.delayed.find? key).isSome) := by
  unfold holds
  rw [hi.ready.contains_eq, hi.delayed.contains_eq]

theorem remove_of_not_holds (hi : q.Indexed) (h : q.holds key = false) :
    q.remove key = (false, q) := by
  rw [holds_eq hi] at h
  obtain ⟨c, _, found, _⟩ | ⟨_, c, _, found, _⟩ | ⟨_, _, same⟩ := remove_cases hi key
  · rw [found] at h
    cases h
  · rw [found, Option.isSome_some, Bool.or_true] at h
    cases h
  · exact same

/-- A queue that held a key holds one candidate fewer after its removal. -/
theorem not_holdsSame_remove (hi : q.Indexed) (h : q.holds key = true) :
    ¬ q.HoldsSame (q.remove key).2 := by
  intro same
  obtain ⟨c, ready, _, _, taken, e⟩ | ⟨_, c, delayed, _, _, taken, e⟩ | ⟨noReady, noDelayed, _⟩ :=
    remove_cases hi key
  · rw [e] at same
    have := (taken.symm.trans same.ready).length_eq
    simp at this
  · rw [e] at same
    have := (taken.symm.trans same.delayed).length_eq
    simp at this
  · rw [holds_eq hi, noReady, noDelayed] at h
    cases h

end JobQueue

theorem QueueSet.put_same {s : QueueSet} {id : QueueId} {q : JobQueue} (h : s.queue? id = some q) :
    s.put id q = s := by
  obtain ⟨bound, rfl⟩ := Array.getElem?_eq_some_iff.1 h
  unfold QueueSet.put
  rw [Array.setIfInBounds_def, dif_pos bound, Array.set_getElem_self]

namespace Scheduling

/-- The names lead to the same queues, every queue holds the same candidates, and the ledger is the
same. -/
structure Unchanged (slot : LedgerSlot E) (s t : SchedulerState E) : Prop where
  names : t.queues.ids = s.queues.ids
  queues : ∀ id, Option.Rel JobQueue.HoldsSame (s.queues.queue? id) (t.queues.queue? id)
  ledger : slot.get t.env = slot.get s.env

/-- A job waits in its queue. -/
def Waits (s : SchedulerState E) (job : Job) : Prop :=
  ∃ id q, s.queues.lookup? job.queueName = some (id, q) ∧ q.holds job.key = true

/-- An event takes something away before a queue is asked: a waiting job from the queue that it
leaves, or the reservation of an admitted job that is to wait again. -/
def TakesFirst (slot : LedgerSlot E) (s : SchedulerState E) : JobEvent → Prop
  | .updated old new => new.phase = .enqueued ∧
    (old.phase = .enqueued ∧ old.queueName ≠ new.queueName ∧ Waits s old ∨
      old.phase = .dequeued ∧ (slot.get s.env).isReserved old.key = true)
  | _ => False

section

variable {w : Wiring E} {slot : LedgerSlot E} {place : Nat} {s t : SchedulerState E}
  {old new job : Job}

theorem unchanged_of_eq (queues : t.queues = s.queues) (ledger : slot.get t.env = slot.get s.env) :
    Unchanged slot s t where
  names := by rw [queues]
  queues id := by
    rw [queues]
    rcases s.queues.queue? id with _ | q
    · exact .none
    · exact .some (.refl q)
  ledger := ledger

theorem unchanged_put {id : QueueId} {q q' : JobQueue} (there : s.queues.queue? id = some q)
    (same : q.HoldsSame q') : Unchanged slot s { s with queues := s.queues.put id q' } := by
  refine ⟨rfl, fun k => ?_, rfl⟩
  dsimp only
  rw [QueueSet.queue?_put]
  split
  · rename_i here
    rw [← here.1, there]
    exact .some same
  · rcases s.queues.queue? k with _ | r
    · exact .none
    · exact .some (.refl r)

/-! ## Taking away -/

theorem withdraw_of_not_waits (indexed : s.queues.Each JobQueue.Indexed) (h : ¬ Waits s job) :
    (withdraw job s).2 = s := by
  rcases found : s.queues.lookup? job.queueName with _ | ⟨id, q⟩
  · exact withdraw_of_unknown found
  · have hq := lookup?_queue found
    have free : q.holds job.key = false := by
      rw [Bool.eq_false_iff]
      exact fun held => h ⟨id, q, found, held⟩
    rw [withdraw_of_known found, JobQueue.remove_of_not_holds (indexed id q hq) free,
      QueueSet.put_same hq]

theorem changed_of_waits (indexed : s.queues.Each JobQueue.Indexed) (h : Waits s job) :
    ¬ Unchanged slot s (withdraw job s).2 := by
  obtain ⟨id, q, found, held⟩ := h
  have hq := lookup?_queue found
  obtain ⟨bound, _⟩ := Array.getElem?_eq_some_iff.1 hq
  intro same
  have here := same.queues id
  rw [withdraw_of_known found, QueueSet.queue?_put, if_pos ⟨rfl, bound⟩, hq,
    Option.rel_some_some] at here
  exact JobQueue.not_holdsSame_remove (indexed id q hq) held here

theorem changed_of_reserved (books : w.Books slot place)
    (held : (slot.get s.env).isReserved job.key = true) :
    ¬ Unchanged slot s (unreserveAdmitted w job s).2 := by
  intro same
  have after : slot.get (unreserveAdmitted w job s).2.env =
    (slot.get s.env).unreserve (.fresh job s.now) := books.ledger_unreserve _ s.env
  have := Ledger.isReserved_unreserve (slot.get s.env) (.fresh job s.now) job.key
  rw [← after, same.ledger, held] at this
  simp [Candidate.fresh] at this

theorem unchanged_of_unreserved (books : w.Books slot place)
    (free : (slot.get s.env).isReserved job.key = false) :
    Unchanged slot s (unreserveAdmitted w job s).2 := by
  refine unchanged_of_eq rfl ?_
  show slot.get (w.pipeline.unreserve (.fresh job s.now) s.env).2 = _
  rw [books.ledger_unreserve]
  exact Ledger.unreserve_of_free free

/-! ## Refusals -/

/-- A queue that refuses a job changes nothing. -/
theorem enqueue_refused {e : AdmissionError} (h : (enqueue job s).1 = .error e) :
    (enqueue job s).2 = s := by
  rcases found : s.queues.lookup? job.queueName with _ | ⟨id, q⟩
  · exact enqueue_of_unknown found
  · rcases put : q.submit s.now job with _ | q'
    · exact enqueue_of_refused found put
    · obtain ⟨trail, same⟩ := enqueue_of_put found put
      rw [same] at h
      cases h

theorem updateQueued_refused {e : AdmissionError} (h : (updateQueued old new s).1 = .error e) :
    (updateQueued old new s).2 = s := by
  unfold updateQueued at h ⊢
  rw [bind_run, get_run] at h ⊢
  dsimp only at h ⊢
  rcases found : s.queues.lookup? new.queueName with _ | ⟨id, q⟩
  · rfl
  · rw [found] at h
    cases h

/-- How an event about a job is refused. -/
inductive Refused (w : Wiring E) (s : SchedulerState E) : JobEvent → SchedulerState E → Prop where
  | added (job : Job) : Refused w s (.added job) s
  | updated (old new : Job) (stays : old.queueName = new.queueName)
    (waits : old.phase = .enqueued) : Refused w s (.updated old new) s
  /-- The job has left its queue. -/
  | moved (old new : Job) (moves : old.queueName ≠ new.queueName) (waits : old.phase = .enqueued)
    (waits' : new.phase = .enqueued) : Refused w s (.updated old new) (withdraw old s).2
  /-- The job has given its reservation back. -/
  | returned (old new : Job) (admitted : old.phase = .dequeued) (waits : new.phase = .enqueued) :
    Refused w s (.updated old new) (unreserveAdmitted w old s).2

theorem applyJobEvent_refused (w : Wiring E) (event : JobEvent) (s : SchedulerState E)
    (h : (applyJobEvent w event s).1.ok = false) :
    Refused w s event (applyJobEvent w event s).2 := by
  -- the answer is a refusal if the result is an error
  have failed : ∀ {r : Except AdmissionError Unit}, (Ack.ofResult r).ok = false →
      ∃ e, r = .error e := by
    rintro (e | _) hr
    · exact ⟨e, rfl⟩
    · cases hr
  cases event with
  | added job =>
    obtain ⟨e, failed⟩ := failed (show (Ack.ofResult (addJob w job s).1).ok = false from h)
    show Refused w s _ (addJob w job s).2
    unfold addJob at failed ⊢
    rcases phase : job.phase with _ | _
    · rw [phase] at failed
      dsimp only at failed ⊢
      rw [enqueue_refused failed]
      exact .added job
    · rw [phase] at failed
      cases failed
  | updated old new =>
    obtain ⟨e, failed⟩ := failed (show (Ack.ofResult (updateJob w old new s).1).ok = false from h)
    show Refused w s _ (updateJob w old new s).2
    unfold updateJob at failed ⊢
    rcases phase : old.phase with _ | _ <;> rcases phase' : new.phase with _ | _ <;>
      rw [phase, phase'] at failed <;> dsimp only at failed ⊢
    · split at failed
      · rename_i stays
        rw [if_pos stays, updateQueued_refused failed]
        exact .updated old new stays phase
      · rename_i moves
        rw [bind_run] at failed
        rw [if_neg moves, bind_run, enqueue_refused failed]
        exact .moved old new moves phase phase'
    · cases failed
    · rw [bind_run] at failed
      rw [bind_run, enqueue_refused failed]
      exact .returned old new phase phase'
    · cases failed
  | deleted job => cases h

theorem applyQueueEvent_refused (event : QueueEvent) (s : SchedulerState E)
    (h : (applyQueueEvent event s).1.ok = false) : (applyQueueEvent event s).2 = s := by
  have failed : ∀ change, (changeQueues change s).1.ok = false → (changeQueues change s).2 = s := by
    intro change h
    unfold changeQueues at h ⊢
    rw [bind_run, get_run] at h ⊢
    dsimp only at h ⊢
    rcases changed : change s.queues with _ | queues
    · rfl
    · rw [changed] at h
      cases h
  cases event with
  | added queue => exact failed _ h
  | updated old new => exact failed _ h
  | deleted name =>
    change (if (s.queues.delete name).1 then Ack.accepted else .rejected _).ok = false at h
    show { s with queues := (s.queues.delete name).2 } = s
    unfold QueueSet.delete at h ⊢
    split at h
    · rfl
    · cases h

theorem refusedJob_unchanged_iff (books : w.Books slot place)
    (indexed : s.queues.Each JobQueue.Indexed) {event : JobEvent}
    (h : (applyJobEvent w event s).1.ok = false) :
    Unchanged slot s (applyJobEvent w event s).2 ↔ ¬ TakesFirst slot s event := by
  have same : Unchanged slot s s := unchanged_of_eq rfl rfl
  have refused := applyJobEvent_refused w event s h
  generalize (applyJobEvent w event s).2 = t at refused ⊢
  cases refused with
  | added job => exact iff_of_true same id
  | updated old new stays waits =>
    refine iff_of_true same ?_
    rintro ⟨_, ⟨_, moves, _⟩ | ⟨admitted, _⟩⟩
    · exact moves stays
    · cases waits.symm.trans admitted
  | moved old new moves waits waits' =>
    by_cases there : Waits s old
    · exact iff_of_false (changed_of_waits indexed there)
        fun none => none ⟨waits', .inl ⟨waits, moves, there⟩⟩
    · rw [withdraw_of_not_waits indexed there]
      refine iff_of_true same ?_
      rintro ⟨_, ⟨_, _, here⟩ | ⟨admitted, _⟩⟩
      · exact there here
      · cases waits.symm.trans admitted
  | returned old new admitted waits =>
    rcases held : (slot.get s.env).isReserved old.key with _ | _
    · refine iff_of_true (unchanged_of_unreserved books held) ?_
      rintro ⟨_, ⟨waits', _⟩ | ⟨_, here⟩⟩
      · cases admitted.symm.trans waits'
      · rw [held] at here
        cases here
    · exact iff_of_false (changed_of_reserved books held)
        fun none => none ⟨waits, .inr ⟨admitted, held⟩⟩

/-- In every state of a run, a refused event about a job changes nothing exactly if it takes nothing
away first, and a refused event about a queue changes nothing. -/
theorem refused_unchanged_iff (books : w.Books slot place)
    (indexed : s.queues.Each JobQueue.Indexed) (run : List (Happening E)) :
    (∀ event, (applyJobEvent w event (after w s run)).1.ok = false →
      (Unchanged slot (after w s run) (applyJobEvent w event (after w s run)).2 ↔
        ¬ TakesFirst slot (after w s run) event)) ∧
    ∀ event, (applyQueueEvent event (after w s run)).1.ok = false →
      (applyQueueEvent event (after w s run)).2 = after w s run := by
  have indexed' := each_after JobQueue.lasting_indexed w run indexed
  exact ⟨fun _ h => refusedJob_unchanged_iff books indexed' h,
    fun event h => applyQueueEvent_refused event _ h⟩

end

end Scheduling

/-! ## A job that is sent to a queue that does not exist -/

theorem QueueSet.indexed_holding (c : Candidate) : (holding c).Each JobQueue.Indexed := by
  intro id q e
  rcases id with _ | id
  · cases e
    exact ⟨KeyedHeap.indexed_append KeyedHeap.indexed_empty Std.HashMap.contains_empty,
      KeyedHeap.indexed_empty⟩
  · cases e

namespace Site

/-- A waiting job of the queue `a`. -/
def waitingJob : Job := { Job.new "n" "x" "TFJob" with queue := "a" }

/-- A site at which the job waits in its queue, which is the only one. -/
def oneWaits : SchedulerState Site := { withinQuota with queues := .holding (.fresh waitingJob 0) }

end Site

namespace Scheduling

open Site

/-- A job that appears in a queue that does not exist is refused, and nothing changes. -/
theorem refused_unchanged_added :
    (applyJobEvent standard (.added { waitingJob with queue := "b" }) oneWaits).1.ok = false ∧
      Unchanged sharedLedger oneWaits
        (applyJobEvent standard (.added { waitingJob with queue := "b" }) oneWaits).2 :=
  ⟨rfl, ((refused_unchanged_iff books_standard (QueueSet.indexed_holding _) []).1 _ rfl).2 id⟩

/-- A waiting job is to move to a queue that does not exist: this is refused, but the job has left
its queue. -/
theorem job_lost_by_refusal :
    Waits oneWaits waitingJob ∧
      (applyJobEvent standard (.updated waitingJob { waitingJob with queue := "b" })
        oneWaits).1.ok = false ∧
      ¬ Unchanged sharedLedger oneWaits
        (applyJobEvent standard (.updated waitingJob { waitingJob with queue := "b" })
          oneWaits).2 := by
  have waits : Waits oneWaits waitingJob := by
    refine ⟨0, _, rfl, (Bool.or_eq_true ..).mpr (.inl ?_)⟩
    exact Std.HashMap.contains_insert_self (m := (∅ : Std.HashMap String Nat))
  exact ⟨waits, rfl, changed_of_waits (QueueSet.indexed_holding _) waits⟩

end Scheduling

end JobAdmission
