/-
What happens to the queues of a scheduler. Whatever happens to the scheduler, its queues go through
a run of the registry, and the steps of that run are known from what happened (`leads_happen`). So
the registry stays sound, and a property that the operations of a single queue keep is kept whatever
happens to the scheduler (`each_after`).
-/
import JobAdmission.Proofs.Feed.Steps
import JobAdmission.Proofs.Queue.Registry
import JobAdmission.Proofs.Scheduler.OneAdmission

namespace JobAdmission

variable {E : Type}

namespace QueueSet

/-- The second registry comes from the first by steps of a kind. -/
def Leads (R : RegistryStep → Prop) (s t : QueueSet) : Prop :=
  ∃ steps, t = s.after steps ∧ ∀ x ∈ steps, R x

variable {R R' : RegistryStep → Prop} {s t u : QueueSet}

theorem Leads.refl (R : RegistryStep → Prop) (s : QueueSet) : Leads R s s :=
  ⟨[], rfl, fun _ hx => by cases hx⟩

theorem leads_step {x : RegistryStep} (hx : R x) (s : QueueSet) : Leads R s (s.step x) :=
  ⟨[x], rfl, fun _ hm => List.mem_singleton.1 hm ▸ hx⟩

theorem Leads.trans (h : Leads R s t) (h' : Leads R t u) : Leads R s u := by
  obtain ⟨steps, rfl, kind⟩ := h
  obtain ⟨steps', rfl, kind'⟩ := h'
  refine ⟨steps ++ steps', List.foldl_append.symm, fun x hx => ?_⟩
  exact (List.mem_append.1 hx).elim (kind x) (kind' x)

theorem Leads.mono (h : Leads R s t) (sub : ∀ x, R x → R' x) : Leads R' s t := by
  obtain ⟨steps, e, kind⟩ := h
  exact ⟨steps, e, fun x hx => sub x (kind x hx)⟩

theorem Leads.sound (h : Leads R s t) (sound : s.Sound) : t.Sound := by
  obtain ⟨steps, rfl, -⟩ := h
  exact sound.after steps

theorem Leads.rules (h : Leads R s t) : t.rules = s.rules := by
  obtain ⟨steps, rfl, -⟩ := h
  exact (s.descends_after steps).rules

theorem Leads.each {C : Candidate → Prop} {P : JobQueue → Prop} (h : Leads R s t)
    (keeping : JobQueue.Keeping C P) (puts : ∀ x, R x → x.Puts C) (hs : s.Each P) : t.Each P := by
  obtain ⟨steps, rfl, kind⟩ := h
  exact each_after keeping hs fun x hx => puts x (kind x hx)

theorem step_call {id : QueueId} {q : JobQueue} (there : s.queue? id = some q) (now : Nat)
    (call : QueueCall) : s.step (.call now id call) = s.put id (call.run now q) := by
  show s.modify id (call.run now) = _
  unfold modify
  rw [there]

end QueueSet

/-! ## Steps that a happening leads to -/

/-- The calls of queues that an event may lead to. -/
def JobEvent.Makes : JobEvent → QueueCall → Prop
  | .added job, call => call = .submit job
  | .updated old new, call => call = .update old new ∨ call = .remove old ∨ call = .submit new
  | .deleted job, call => call = .remove job

namespace Scheduling

open QueueSet

/-- A step that delays a candidate whose attempt failed: one that was under way, or that was taken
from its queue. -/
def Delays (w : Wiring E) (s : SchedulerState E) (x : RegistryStep) : Prop :=
  ∃ c env c' id, (c ∈ s.underway ∨ ∃ queues, s.queues.popNext = some (c, queues)) ∧
    retryable w c env = some c' ∧ x = .call s.now id (.delay (c'.failedAt s.now))

/-- The steps of the registry that something may lead to. -/
def Causes (w : Wiring E) (s : SchedulerState E) : Happening E → RegistryStep → Prop
  | .job event, x => ∃ id call, x = .call s.now id call ∧ event.Makes call
  | .queue (.added d), x => x = .add d
  | .queue (.updated old new), x => x = .update old new
  | .queue (.deleted name), x => x = .delete name
  | .cycle, x => x = .popNext ∨ Delays w s x
  | .confirm _, x => Delays w s x
  | .flush id, x => x = .call s.now id .flush
  | .elapse span, x => x = .elapse s.now span
  | .start, x => x = .start
  | .cancel, x => x = .cancel
  | .close, x => x = .close
  | _, _ => False

section

variable {w : Wiring E} {s t : SchedulerState E} {c : Candidate} {R : RegistryStep → Prop}

theorem leads_enqueue {job : Job} (kind : ∀ id, R (.call s.now id (.submit job))) :
    Leads R s.queues (enqueue job s).2.queues := by
  obtain ⟨queues, trail, same, change⟩ := enqueue_spec job s
  rw [same]
  rcases change with rfl | ⟨id, q, q', there, submitted, rfl⟩
  · exact .refl R _
  · have step := leads_step (kind id) s.queues
    rw [step_call there] at step
    rwa [show (QueueCall.submit job).run s.now q = q' by
      show (q.submit s.now job).toOption.getD q = q'; rw [submitted]; rfl] at step

theorem leads_withdraw {job : Job} (kind : ∀ id, R (.call s.now id (.remove job))) :
    Leads R s.queues (withdraw job s).2.queues := by
  obtain ⟨queues, same, change⟩ := withdraw_spec job s
  rw [same]
  rcases change with rfl | ⟨id, q, there, rfl⟩
  · exact .refl R _
  · have step := leads_step (kind id) s.queues
    rwa [step_call there] at step

theorem sound_withdraw (sound : s.queues.Sound) (job : Job) : (withdraw job s).2.queues.Sound :=
  (leads_withdraw (R := fun _ => True) fun _ => trivial).sound sound

theorem leads_updateQueued {old new : Job} (kind : ∀ id, R (.call s.now id (.update old new))) :
    Leads R s.queues (updateQueued old new s).2.queues := by
  obtain ⟨queues, same, change⟩ := updateQueued_spec old new s
  rw [same]
  rcases change with rfl | ⟨id, q, there, rfl⟩
  · exact .refl R _
  · have step := leads_step (kind id) s.queues
    rwa [step_call there] at step

theorem leads_applyJobEvent (w : Wiring E) (event : JobEvent) (s : SchedulerState E) :
    Leads (Causes w s (.job event)) s.queues (applyJobEvent w event s).2.queues := by
  cases event with
  | added job =>
    show Leads _ _ (addJob w job s).2.queues
    unfold addJob
    rcases job.phase with _ | _
    · exact leads_enqueue fun id => ⟨id, _, rfl, rfl⟩
    · exact .refl _ _
  | updated old new =>
    show Leads _ _ (updateJob w old new s).2.queues
    have withdrawn : Leads (Causes w s (.job (.updated old new))) s.queues
        (withdraw old s).2.queues := leads_withdraw fun id => ⟨id, _, rfl, .inr (.inl rfl)⟩
    unfold updateJob
    rcases old.phase with _ | _ <;> rcases new.phase with _ | _
    · dsimp only
      split
      · exact leads_updateQueued fun id => ⟨id, _, rfl, .inl rfl⟩
      · -- the clock shows the same after the withdrawal
        obtain ⟨queues, same, -⟩ := withdraw_spec old s
        refine withdrawn.trans (leads_enqueue fun id => ⟨id, _, ?_, .inr (.inr rfl)⟩)
        rw [same]
    · exact withdrawn
    · exact leads_enqueue (s := (unreserveAdmitted w old s).2) fun id =>
        ⟨id, _, rfl, .inr (.inr rfl)⟩
    · exact .refl _ _
  | deleted job =>
    show Leads _ _ (deleteJob w job s).2.queues
    unfold deleteJob
    rcases job.phase with _ | _
    · exact leads_withdraw fun id => ⟨id, _, rfl, rfl⟩
    · exact .refl _ _

theorem leads_applyQueueEvent (w : Wiring E) (event : QueueEvent) (s : SchedulerState E) :
    Leads (Causes w s (.queue event)) s.queues (applyQueueEvent event s).2.queues := by
  have changed : ∀ change : QueueSet → Except AdmissionError QueueSet,
      (changeQueues change s).2.queues = (change s.queues).toOption.getD s.queues := by
    intro change
    unfold changeQueues
    rw [bind_run, get_run]
    dsimp only
    rcases change s.queues with _ | queues <;> rfl
  cases event with
  | added d =>
    rw [show (applyQueueEvent (.added d) s).2.queues = _ from changed _]
    exact leads_step (show Causes w s (.queue (.added d)) (.add d) from rfl) _
  | updated old new =>
    rw [show (applyQueueEvent (.updated old new) s).2.queues = _ from changed _]
    exact leads_step (show Causes w s (.queue (.updated old new)) (.update old new) from rfl) _
  | deleted name =>
    exact leads_step (show Causes w s (.queue (.deleted name)) (.delete name) from rfl) s.queues

end

end Scheduling

/-! ## Cycles and confirmations -/

section

open Scheduling QueueSet

variable {w : Wiring E} {s t : SchedulerState E} {c : Candidate} {R : RegistryStep → Prop}

theorem Retried.leads (h : Retried w c s t) (kind : ∀ env c' id, retryable w c env = some c' →
    R (.call s.now id (.delay (c'.failedAt s.now)))) : Leads R s.queues t.queues := by
  obtain same | ⟨c', id, q, q', chosen, there, delayed, same⟩ := h.delayed
  · rw [same]
    exact .refl R _
  · have step := leads_step (kind _ c' id chosen) s.queues
    have run : (QueueCall.delay (c'.failedAt s.now)).run s.now q = q' := by
      show (q.delay (c'.failedAt s.now)).toOption.getD q = q'
      rw [delayed]
      rfl
    rw [step_call there, run] at step
    rwa [same]

theorem DispatchExit.leads {o : Outcome} (exit : DispatchExit w c s o t)
    (kind : ∀ env c' id, retryable w c env = some c' →
      R (.call s.now id (.delay (c'.failedAt s.now)))) : Leads R s.queues t.queues := by
  cases exit with
  | blocked _ _ _ queues => rw [queues]; exact .refl R _
  | confirming _ _ _ queues => rw [queues]; exact .refl R _
  | undone u _ _ now queues _ _ retried =>
    rw [← queues]
    exact retried.leads (by rw [now]; exact kind)

theorem ConfirmExit.leads (exit : ConfirmExit w c s t)
    (kind : ∀ env c' id, retryable w c env = some c' →
      R (.call s.now id (.delay (c'.failedAt s.now)))) : Leads R s.queues t.queues := by
  cases exit with
  | recorded => exact .refl R _
  | gone => exact .refl R _
  | undone _ _ _ _ _ retried => exact retried.leads kind

namespace Scheduling

theorem leads_cycle (w : Wiring E) (s : SchedulerState E) :
    Leads (Causes w s .cycle) s.queues (cycle w s).2.queues := by
  have popped : ∀ {c queues}, s.queues.popNext = some (c, queues) →
      Leads (Causes w s .cycle) s.queues queues := by
    intro c queues pop
    have step : s.queues.step .popNext = queues := by
      show (s.queues.popNext.map (·.2)).getD s.queues = queues
      rw [pop]
      rfl
    exact step ▸ leads_step (.inl rfl) s.queues
  have delays : ∀ {c}, (c ∈ s.underway ∨ ∃ queues, s.queues.popNext = some (c, queues)) →
      ∀ env c' id, retryable w c env = some c' →
        Causes w s .cycle (.call s.now id (.delay (c'.failedAt s.now))) :=
    fun held env c' id chosen => .inr ⟨_, env, c', id, held, chosen, rfl⟩
  have exit := cycle_exit w s
  generalize (cycle w s).1 = o, (cycle w s).2 = t at exit ⊢
  cases exit with
  | idle => exact .refl _ _
  | unfiltered _ c queues _ _ _ pop _ _ retried =>
    exact (popped pop).trans (retried.leads (delays (.inr ⟨queues, pop⟩)))
  | refused _ c queues _ _ _ _ _ pop _ _ _ _ retried =>
    exact (popped pop).trans (retried.leads (delays (.inr ⟨queues, pop⟩)))
  | reserved _ c queues _ _ _ _ _ _ pop _ _ _ _ exit =>
    exact (popped pop).trans (exit.leads (delays (.inr ⟨queues, pop⟩)))
  | resumed c ticket held _ _ exit =>
    refine exit.leads (delays (.inl ?_))
    unfold SchedulerState.underway
    rw [held]
    exact List.mem_append_right _ (List.mem_singleton_self _)

theorem leads_confirmAt (w : Wiring E) (place : Nat) (s : SchedulerState E) :
    Leads (Causes w s (.confirm place)) s.queues (confirmAt w place s).2.queues := by
  rcases confirmAt_exit w place s with ⟨-, same⟩ | ⟨c, dispatcher, t, taken, exit, same⟩
  · rw [same]
    exact .refl _ _
  · rw [same]
    obtain ⟨_, task, e⟩ := Option.map_eq_some_iff.1 taken
    cases e
    have under : c ∈ s.underway := List.mem_append_left _ (List.mem_of_getElem? task)
    exact exit.leads fun env c' id chosen => ⟨c, env, c', id, .inl under, chosen, rfl⟩

/-- Whatever happens to a scheduler, its queues go through steps of the registry. -/
theorem leads_happen (w : Wiring E) (s : SchedulerState E) (x : Happening E) :
    Leads (Causes w s x) s.queues (happen w s x).queues := by
  cases x with
  | job event => exact leads_applyJobEvent w event s
  | queue event => exact leads_applyQueueEvent w event s
  | cycle => exact leads_cycle w s
  | confirm place => exact leads_confirmAt w place s
  | flush id =>
    exact leads_step (show Causes w s (.flush id) (.call s.now id .flush) from rfl) s.queues
  | elapse span =>
    exact leads_step (show Causes w s (.elapse span) (.elapse s.now span) from rfl) s.queues
  | start => exact leads_step (show Causes w s .start .start from rfl) s.queues
  | cancel => exact leads_step (show Causes w s .cancel .cancel from rfl) s.queues
  | close => exact leads_step (show Causes w s .close .close from rfl) s.queues
  | _ => exact .refl _ _

/-! ## Runs -/

theorem sound_happen (sound : s.queues.Sound) (x : Happening E) : (happen w s x).queues.Sound :=
  (leads_happen w s x).sound sound

theorem rules_happen (w : Wiring E) (s : SchedulerState E) (x : Happening E) :
    (happen w s x).queues.rules = s.queues.rules := (leads_happen w s x).rules

/-- What every queue has before a run, every queue has after it, also one made in it. -/
theorem each_after {P : JobQueue → Prop} (lasting : JobQueue.Lasting P) (w : Wiring E)
    (run : List (Happening E)) (hs : s.queues.Each P) : (after w s run).queues.Each P := by
  induction run generalizing s with
  | nil => exact hs
  | cons x run ih =>
    exact ih ((leads_happen w s x).each (lasting.keeping fun _ => True)
      (fun step _ => step.puts_of_all fun _ => trivial) hs)

end Scheduling

end

end JobAdmission
