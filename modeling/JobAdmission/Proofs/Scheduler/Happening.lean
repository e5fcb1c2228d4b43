/-
What may happen to a scheduler, as data, so that a run is the list of what happened in it. A run of
the traced wiring is the run of the wiring with the calls of its reservations noted down
(`after_traced`).
-/
import JobAdmission.Feed.Apply
import JobAdmission.Proofs.Run
import JobAdmission.Proofs.Scheduler.Exits
import JobAdmission.Proofs.Scheduler.Trace

namespace JobAdmission

/-- What may happen to a scheduler, or to the world around it. -/
inductive Happening (E : Type) where
  | job (event : JobEvent)
  | queue (event : QueueEvent)
  | cycle
  /-- A confirmation under way is done, whichever it is and however late. -/
  | confirm (place : Nat)
  | flush (id : QueueId)
  /-- Task time passes for the background flushes. -/
  | elapse (span : Nat)
  | start
  | cancel
  | close
  | clock (now : Nat)
  | turn (slots : Option Nat)
  /-- The loop is stopped for good. -/
  | stop
  /-- The dispatcher refuses from now on. -/
  | closing
  | world (change : E → E)

variable {E : Type}

/-- The same for an environment that carries notes, which the world leaves alone. -/
def Happening.traced : Happening E → Happening (E × List Asked)
  | job event => job event
  | queue event => queue event
  | cycle => cycle
  | confirm place => confirm place
  | flush id => flush id
  | elapse span => elapse span
  | start => start
  | cancel => cancel
  | close => close
  | clock now => clock now
  | turn slots => turn slots
  | stop => stop
  | closing => closing
  | world change => world fun env => (change env.1, env.2)

namespace Scheduling

/-- What comes of a state when something happens. -/
def happen (w : Wiring E) (s : SchedulerState E) : Happening E → SchedulerState E
  | .job event => (applyJobEvent w event s).2
  | .queue event => (applyQueueEvent event s).2
  | .cycle => (cycle w s).2
  | .confirm place => (confirmAt w place s).2
  | .flush id => { s with queues := s.queues.modify id fun q => (q.flush s.now).2 }
  | .elapse span => (elapse span s).2
  | .start => { s with queues := s.queues.start }
  | .cancel => { s with queues := s.queues.cancel }
  | .close => { s with queues := s.queues.close }
  | .clock now => { s with now }
  | .turn slots => { s with turn := slots }
  | .stop => { s with stopped := true }
  | .closing => { s with dispatcher := s.dispatcher.close }
  | .world change => { s with env := change s.env }

/-- The state after a run. -/
def after (w : Wiring E) (s : SchedulerState E) (run : List (Happening E)) : SchedulerState E :=
  run.foldl (happen w) s

/-- The state after a run of the traced wiring. -/
def afterTraced (w : Wiring E) (s : SchedulerState E) (run : List (Happening E)) :
    SchedulerState (E × List Asked) :=
  after w.traced s.traced (run.map .traced)

/-- The calls of reservations in a run. -/
def calls (w : Wiring E) (s : SchedulerState E) (run : List (Happening E)) : List Asked :=
  (afterTraced w s run).env.2

theorem after_append (w : Wiring E) (s : SchedulerState E) (run more : List (Happening E)) :
    after w s (run ++ more) = after w (after w s run) more := List.foldl_append

theorem after_concat (w : Wiring E) (s : SchedulerState E) (run : List (Happening E))
    (x : Happening E) : after w s (run ++ [x]) = happen w (after w s run) x := List.foldl_concat ..

theorem afterTraced_append (w : Wiring E) (s : SchedulerState E) (run more : List (Happening E)) :
    afterTraced w s (run ++ more) = after w.traced (afterTraced w s run) (more.map .traced) := by
  unfold afterTraced
  rw [List.map_append, after_append]

theorem afterTraced_concat (w : Wiring E) (s : SchedulerState E) (run : List (Happening E))
    (x : Happening E) :
    afterTraced w s (run ++ [x]) = happen w.traced (afterTraced w s run) x.traced :=
  afterTraced_append w s run [x]

/-! ## A traced run is the run -/

section

open SchedulerState

variable (w : Wiring E)

theorem simulates_recordAdmission (job : Job) :
    Simulates Prod.fst (recordAdmission w.traced.client job) (recordAdmission w.client job) := by
  refine (simulates_unnoted _).bind fun answer => ?_
  rcases answer with e | latest
  · exact Simulates.pure _
  · refine (simulates_unnoted _).bind fun put => ?_
    cases put <;> exact Simulates.pure _

theorem simulates_notifyDequeued (routes : ReleaseRoutes E) (job : Job) :
    Simulates Prod.fst
      ((⟨routes.handlers.map .traced⟩ : ReleaseRoutes (E × List Asked)).notifyDequeued job)
      (routes.notifyDequeued job) := by
  unfold ReleaseRoutes.notifyDequeued
  dsimp only
  rw [NameMap.get?_map]
  rcases routes.handlers.get? job.kind with _ | handler
  · exact Simulates.pure _
  · refine (simulates_unnoted _).bind fun told => ?_
    cases told <;> exact Simulates.pure _

theorem simulates_notifyRelease (c : Candidate) (admitted : Job) :
    Simulates plain (notifyRelease w.traced c admitted) (notifyRelease w c admitted) := by
  unfold notifyRelease Wiring.traced
  rcases w.routes with _ | routes
  · exact Simulates.pure _
  · refine (simulates_consult (simulates_notifyDequeued routes admitted)).bind fun told => ?_
    rcases told with _ | _ | _ <;> exact fun _ => rfl

theorem simulates_confirm (c : Candidate) :
    Simulates plain (confirm w.traced c) (confirm w c) := by
  refine (simulates_consult (simulates_recordAdmission w c.job)).bind fun put => ?_
  rcases put with e | admitted
  · refine (simulates_consult (Pipeline.simulates_unreserve w.pipeline c)).bind fun _ => ?_
    split
    · exact fun _ => rfl
    · exact simulates_retry w c _
  · exact Simulates.bind (fun _ => rfl) fun _ => simulates_notifyRelease w c admitted

theorem simulates_confirmAt (place : Nat) :
    Simulates plain (confirmAt w.traced place) (confirmAt w place) := by
  refine Simulates.get fun s => ?_
  rw [show s.plain.dispatcher = s.dispatcher from rfl]
  rcases s.dispatcher.take? place with _ | ⟨c, dispatcher⟩
  · rfl
  · refine (Simulates.bind ?_ fun _ => (simulates_confirm w c).bind fun _ => ?_ :
      Simulates plain (do
        modify fun s => { s with dispatcher }
        confirm w.traced c
        modify fun s => { s with dispatcher := s.dispatcher.giveBack }
        return true) _) s
    · exact fun _ => rfl
    · exact Simulates.bind (fun _ => rfl) fun _ => Simulates.pure _

/-! ## Events -/

theorem simulates_enqueue (job : Job) :
    Simulates plain (enqueue job) (enqueue job : Scheduling E (Except AdmissionError Unit)) := by
  refine Simulates.get fun s => ?_
  simp only [plain_queues, plain_now]
  rcases s.queues.lookup? job.queueName with _ | ⟨id, q⟩
  · rfl
  · dsimp only
    rcases q.submit s.now job with _ | q' <;> rfl

theorem simulates_updateQueued (old new : Job) :
    Simulates plain (updateQueued old new)
      (updateQueued old new : Scheduling E (Except AdmissionError Unit)) := by
  refine Simulates.get fun s => ?_
  simp only [plain_queues]
  rcases s.queues.lookup? new.queueName with _ | ⟨id, q⟩ <;> rfl

theorem simulates_withdraw (job : Job) :
    Simulates plain (withdraw job) (withdraw job : Scheduling E Unit) := by
  intro s
  unfold withdraw
  rw [modify_run, modify_run, plain_queues]
  rcases s.queues.lookup? job.queueName with _ | ⟨id, q⟩ <;> rfl

theorem simulates_reserveAdmitted (job : Job) :
    Simulates plain (reserveAdmitted w.traced job) (reserveAdmitted w job) := by
  refine Simulates.get fun s => ?_
  exact (simulates_consult (Pipeline.simulates_reserve w.pipeline (.fresh job s.now))).bind
    (fun _ => Simulates.pure PUnit.unit) s

theorem simulates_unreserveAdmitted (job : Job) :
    Simulates plain (unreserveAdmitted w.traced job) (unreserveAdmitted w job) := by
  refine Simulates.get fun s => ?_
  exact simulates_consult (Pipeline.simulates_unreserve w.pipeline (.fresh job s.now)) s

theorem simulates_addJob (job : Job) :
    Simulates plain (addJob w.traced job) (addJob w job) := by
  unfold addJob
  rcases job.phase with _ | _
  · exact simulates_enqueue job
  · exact (simulates_reserveAdmitted w job).bind fun _ => Simulates.pure _

theorem simulates_updateJob (old new : Job) :
    Simulates plain (updateJob w.traced old new) (updateJob w old new) := by
  unfold updateJob
  rcases old.phase with _ | _ <;> rcases new.phase with _ | _
  · dsimp only
    split
    · exact simulates_updateQueued old new
    · exact (simulates_withdraw old).bind fun _ => simulates_enqueue new
  · refine (simulates_withdraw old).bind fun _ => ?_
    exact (simulates_reserveAdmitted w new).bind fun _ => Simulates.pure _
  · exact (simulates_unreserveAdmitted w old).bind fun _ => simulates_enqueue new
  · exact Simulates.pure _

theorem simulates_deleteJob (job : Job) :
    Simulates plain (deleteJob w.traced job) (deleteJob w job) := by
  unfold deleteJob
  rcases job.phase with _ | _
  · exact simulates_withdraw job
  · exact simulates_unreserveAdmitted w job

theorem simulates_applyJobEvent (event : JobEvent) :
    Simulates plain (applyJobEvent w.traced event) (applyJobEvent w event) := by
  cases event with
  | added job => exact (simulates_addJob w job).bind fun _ => Simulates.pure _
  | updated old new => exact (simulates_updateJob w old new).bind fun _ => Simulates.pure _
  | deleted job => exact (simulates_deleteJob w job).bind fun _ => Simulates.pure _

theorem simulates_applyQueueEvent (event : QueueEvent) :
    Simulates plain (applyQueueEvent event) (applyQueueEvent event : Scheduling E Ack) := by
  have changed : ∀ change, Simulates plain (changeQueues change)
      (changeQueues change : Scheduling E Ack) := by
    intro change
    refine Simulates.get fun s => ?_
    rw [plain_queues]
    rcases change s.queues with _ | queues <;> rfl
  cases event with
  | added queue => exact changed (·.add queue)
  | updated old new => exact changed (·.update old new)
  | deleted name => exact fun _ => rfl

/-! ## Runs -/

/-- What happens to the traced wiring is what happens to the wiring, but for what is noted down. -/
theorem happen_traced (s : SchedulerState (E × List Asked)) (x : Happening E) :
    (happen w.traced s x.traced).plain = happen w s.plain x := by
  cases x with
  | job event => exact (congrArg Prod.snd (simulates_applyJobEvent w event s)).symm
  | queue event => exact (congrArg Prod.snd (simulates_applyQueueEvent event s)).symm
  | cycle => exact (congrArg Prod.snd (simulates_cycle w s)).symm
  | confirm place => exact (congrArg Prod.snd (simulates_confirmAt w place s)).symm
  | _ => rfl

theorem after_traced (s : SchedulerState E) (run : List (Happening E)) :
    (afterTraced w s run).plain = after w s run := by
  -- from the end: the last thing that happened is simulated after a run that is
  induction run using List.reverseRecOn with
  | nil => rfl
  | append_singleton run x ih => rw [afterTraced_concat, happen_traced, ih, after_concat]

end

end Scheduling

end JobAdmission
