/-
What is recorded about a candidate that the loop takes up. A cycle takes it from the queues, waits
for a slot as often as it has to, and leaves it to a confirmation or to the retry path. In all these
steps together exactly one decision settles the candidate: it is admitted, delayed or given up. The
one exception is a retry path that comes to a closed queue, which refuses the candidate without a
word.
-/
import JobAdmission.Proofs.Queue.Each
import JobAdmission.Proofs.Queue.Items
import JobAdmission.Proofs.Scheduler.OneAdmission
import JobAdmission.Proofs.Scheduler.Sends

namespace JobAdmission

variable {E : Type}

/-- The queue of a name is there, but closed. -/
def QueueSet.Shut (s : QueueSet) (name : String) : Prop :=
  ∃ id q, s.lookup? name = some (id, q) ∧ q.closed = true

/-! ## Settling -/

/-- Whether a decision with this action settles what becomes of a candidate. -/
def Action.settles : Action → Bool
  | dequeue | backoff | discard => true
  | enqueue | release => false

/-- A decision that settles a candidate, and what it says of the queues before and after: they are
the same, or a delayed candidate is held by the queue that the decision names. -/
inductive Decision.Settles (d : Decision) (before after : QueueSet) : Prop where
  | apart (action : d.action = .dequeue ∨ d.action = .discard) (same : after = before)
  | delayed (action : d.action = .backoff) (id : QueueId) (q : JobQueue)
      (found : after.lookup? d.queue = some (id, q)) (held : q.holds d.key = true)

namespace Decision.Settles

variable {d : Decision} {before after : QueueSet}

theorem settles (h : d.Settles before after) : d.action.settles = true := by
  cases h with
  | apart action => rcases action with e | e <;> rw [e] <;> rfl
  | delayed action => rw [action]; rfl

theorem held (h : d.Settles before after) (delayed : d.action = .backoff) :
    ∃ id q, after.lookup? d.queue = some (id, q) ∧ q.holds d.key = true := by
  cases h with
  | apart action => rcases action with e | e <;> cases delayed.symm.trans e
  | delayed _ id q found held => exact ⟨id, q, found, held⟩

theorem same (h : d.Settles before after) (apart : d.action = .dequeue ∨ d.action = .discard) :
    after = before := by
  cases h with
  | apart _ same => exact same
  | delayed action => rcases apart with e | e <;> cases action.symm.trans e

end Decision.Settles

namespace Scheduling

section

variable {w : Wiring E} {c : Candidate} {s u : SchedulerState E}

/-! ## The retry path -/

/-- The queue that the retry path comes to is closed. -/
def ClosedTo (w : Wiring E) (c : Candidate) (s : SchedulerState E) : Prop :=
  ∃ c', retryable w c s.env = some c' ∧ s.queues.Shut c'.job.queueName

/-- The record answers about the candidate with versions of its own job. -/
def Answers (w : Wiring E) (c : Candidate) : Prop :=
  ∀ env job, (w.client.get c.job.ns c.job.name env).1 = .ok job → job.key = c.key

/-- What is sent on a way out: nothing if it is closed, and otherwise a decision that settles the
candidate, after which it may be noted that a handler was told. -/
inductive Settled (w : Wiring E) (c : Candidate) (closed : Prop) (before after : QueueSet) :
    List Decision → Prop where
  | silent (shut : closed) (same : after = before) : Settled w c closed before after []
  | once (opened : ¬ closed) (d : Decision) (rest : List Decision)
      (settles : d.Settles before after) (others : ∀ d ∈ rest, d.action = .release)
      (named : Answers w c → ∀ d' ∈ d :: rest, d'.key = c.key) :
      Settled w c closed before after (d :: rest)

namespace Settled

variable {closed : Prop} {before after : QueueSet} {ds : List Decision} {d : Decision}

theorem countP_iff (h : Settled w c closed before after ds) :
    ds.countP (·.action.settles) = 1 ↔ ¬ closed := by
  cases h with
  | silent shut => exact iff_of_false Nat.zero_ne_one fun opened => opened shut
  | once opened d rest settles others =>
    have told : rest.countP (·.action.settles) = 0 := by
      refine List.countP_eq_zero.2 fun d' h => ?_
      rw [others d' h]
      exact Bool.false_ne_true
    refine iff_of_true ?_ opened
    rw [List.countP_cons_of_pos (p := fun d : Decision => d.action.settles) settles.settles, told]

theorem settles_or_release (h : Settled w c closed before after ds) (hd : d ∈ ds) :
    d.Settles before after ∨ d.action = .release := by
  cases h with
  | silent => cases hd
  | once _ first rest settles others =>
    rcases List.mem_cons.1 hd with rfl | hd
    · exact .inl settles
    · exact .inr (others d hd)

theorem key_eq (h : Settled w c closed before after ds) (answers : Answers w c) (hd : d ∈ ds) :
    d.key = c.key := by
  cases h with
  | silent => cases hd
  | once _ first rest _ _ named => exact named answers d hd

end Settled

/-- Where delaying a candidate leads: it is turned away by a closed queue, given up if there is
none, and otherwise held. -/
theorem delayAgain_settled (c : Candidate) (reason : String) (s : SchedulerState E) :
    (s.queues.Shut c.job.queueName ∧ Sends (delayAgain c reason) s [] ∧
        (delayAgain c reason s).2.queues = s.queues) ∨
      (¬ s.queues.Shut c.job.queueName ∧ ∃ d, Sends (delayAgain c reason) s [d] ∧
        d.key = c.key ∧ d.Settles s.queues (delayAgain c reason s).2.queues) := by
  rcases found : s.queues.lookup? c.job.queueName with _ | ⟨id, q⟩
  · have on : GoesOnAs (delayAgain c reason) s
        (decide (c.failedAt s.now) .discard (some reason)) s := fun trail => by
      rw [delayAgain_run, SchedulerState.withTrail_queues, found]
      rfl
    refine .inr ⟨?_, _, on.sends (sends_decide _ _ _ _), rfl, ?_⟩
    · rintro ⟨_, _, there, _⟩
      cases found.symm.trans there
    · rw [on.here]
      exact .apart (.inr rfl) rfl
  · rcases put : q.delay (c.failedAt s.now) with e | q'
    · have on : GoesOnAs (delayAgain c reason) s (pure ()) s := fun trail => by
        rw [delayAgain_run, SchedulerState.withTrail_queues, found]
        dsimp only
        rw [SchedulerState.withTrail_now, put]
        rfl
      refine .inl ⟨⟨id, q, found, JobQueue.delay_refused_iff.1 ⟨e, put⟩⟩,
        on.sends (sends_pure _ _), ?_⟩
      rw [on.here]
      rfl
    · have on : GoesOnAs (delayAgain c reason) s (decide (c.failedAt s.now) .backoff
          (some ("attempt " ++ toString (c.failedAt s.now).attempts ++ ": " ++ reason)))
          { s with queues := s.queues.put id q' } := fun trail => by
        rw [delayAgain_run, SchedulerState.withTrail_queues, found]
        dsimp only
        rw [SchedulerState.withTrail_now, put]
        rfl
      refine .inr ⟨?_, _, on.sends (sends_decide _ _ _ _), rfl, ?_⟩
      · rintro ⟨_, _, there, closed⟩
        cases found.symm.trans there
        obtain ⟨_, refused⟩ := JobQueue.delay_refused_iff.2 closed
        cases put.symm.trans refused
      · rw [on.here]
        exact .delayed rfl id q' (QueueSet.lookup?_put found q') (JobQueue.holds_delay put)

theorem retryable_key (answers : Answers w c) {env : E} {c' : Candidate}
    (h : retryable w c env = some c') : c'.key = c.key := by
  obtain rfl | ⟨latest, answer, rfl⟩ := retryable_eq_some h
  · rfl
  · exact answers env latest answer

theorem retry_settled (w : Wiring E) (c : Candidate) (reason : String) (s : SchedulerState E) :
    ∃ ds, Sends (retry w c reason) s ds ∧
      Settled w c (ClosedTo w c s) s.queues (retry w c reason s).2.queues ds := by
  rw [retry_run]
  rcases chosen : retryable w c s.env with _ | c'
  · have on : GoesOnAs (retry w c reason) s (decide c .discard (some reason))
        { s with env := (w.client.get c.job.ns c.job.name s.env).2 } := by
      intro trail
      rw [retry_run, show retryable w c (s.withTrail trail).env = none from chosen]
      rfl
    refine ⟨_, on.sends (sends_decide _ _ _ _), .once ?_ _ [] (.apart (.inr rfl) rfl) ?_ ?_⟩
    · rintro ⟨_, there, _⟩
      cases chosen.symm.trans there
    · exact fun _ h => by cases h
    · exact fun _ d h => by rw [List.mem_singleton.1 h]
  · have on : GoesOnAs (retry w c reason) s (delayAgain c' reason)
        { s with env := (w.client.get c.job.ns c.job.name s.env).2 } := by
      intro trail
      rw [retry_run, show retryable w c (s.withTrail trail).env = some c' from chosen]
      rfl
    rcases delayAgain_settled c' reason
        { s with env := (w.client.get c.job.ns c.job.name s.env).2 } with
      ⟨shut, sends, same⟩ | ⟨opened, d, sends, key, settles⟩
    · exact ⟨[], on.sends sends, .silent ⟨c', chosen, shut⟩ same⟩
    · refine ⟨[d], on.sends sends, .once ?_ d [] settles (fun _ h => by cases h) ?_⟩
      · rintro ⟨_, there, shut⟩
        cases chosen.symm.trans there
        exact opened shut
      · intro answers d' h
        rw [List.mem_singleton.1 h, key, retryable_key answers chosen]

/-! ## The cycle -/

/-- The next cycle has the candidate in hand: it takes it from the queues, which are then as given,
or goes on with it while the queues are as given. -/
def InHand (s : SchedulerState E) (c : Candidate) (queues : QueueSet) : Prop :=
  s.suspended = none ∧ s.queues.popNext = some (c, queues) ∨
    (∃ ticket, s.suspended = some ⟨c, ticket⟩) ∧ queues = s.queues

/-- A cycle with a candidate in hand goes on to the retry path, or to a confirmation or another
cycle; until then it sends nothing and leaves the queues alone. -/
inductive Proceeds (w : Wiring E) (c : Candidate) (queues : QueueSet) (m : Scheduling E Outcome)
    (s : SchedulerState E) : Prop where
  | retries (reason : String) (u : SchedulerState E) (same : u.queues = queues)
      (on : GoesOnAs m s (do retry w c reason; return .retrying) u)
  | waits (outcome : (m s).1 = .confirming ∨ (m s).1 = .blocked) (sends : Sends m s [])
      (same : (m s).2.queues = queues)

theorem GoesOnAs.proceeds {m n : Scheduling E Outcome} {queues : QueueSet} (h : GoesOnAs m s n u)
    (p : Proceeds w c queues n u) : Proceeds w c queues m s := by
  cases p with
  | retries reason v same on => exact .retries reason v same fun trail => (h trail).trans (on trail)
  | waits outcome sends same =>
    refine .waits ?_ (h.sends sends) ?_
    · rw [h.here, sends s.trail]; exact outcome
    · rw [h.here, sends s.trail]; exact same

theorem proceeds_afterDispatch (w : Wiring E) (c : Candidate) (a : Acquisition)
    (s : SchedulerState E) : Proceeds w c s.queues (afterDispatch w c a) s := by
  cases a with
  | granted => exact .waits (.inl rfl) (fun trail => by cases trail <;> rfl) rfl
  | waiting ticket => exact .waits (.inr rfl) (fun trail => by cases trail <;> rfl) rfl
  | refused =>
    exact .retries Dispatcher.closedError.message
      { s with env := (w.pipeline.unreserve c s.env).2 } rfl fun _ => rfl

theorem proceeds_dispatch (w : Wiring E) (c : Candidate) (s : SchedulerState E) :
    Proceeds w c s.queues (dispatch w c) s := by
  by_cases spent : s.turn = some 0
  · have on : GoesOnAs (dispatch w c) s (suspend c none) s := fun trail => by
      unfold dispatch
      rw [bind_run, get_run]
      dsimp only
      rw [SchedulerState.withTrail_turn, if_pos spent]
    exact on.proceeds (.waits (.inr rfl) (fun trail => by cases trail <;> rfl) rfl)
  · have on : GoesOnAs (dispatch w c) s (afterDispatch w c (s.dispatcher.dispatch c).1)
        { s with dispatcher := (s.dispatcher.dispatch c).2 } := fun trail => by
      unfold dispatch
      rw [bind_run, get_run]
      dsimp only
      rw [SchedulerState.withTrail_turn, if_neg spent]
      rfl
    exact on.proceeds
      (proceeds_afterDispatch w c _ { s with dispatcher := (s.dispatcher.dispatch c).2 })

theorem proceeds_attempt (w : Wiring E) (c : Candidate) (s : SchedulerState E) :
    Proceeds w c s.queues (attempt w c) s := by
  rcases filter : w.pipeline.filter c s.env with ⟨v, env⟩
  have filtered : GoesOnAs (attempt w c) s _ { s with env } := GoesOnAs.consult _ filter
  by_cases pass : v.isSuccess = true
  · rw [if_pos pass] at filtered
    refine filtered.proceeds ?_
    rcases reserve : w.pipeline.reserve c env with ⟨v', env'⟩
    have reserved := GoesOnAs.consult (s := { s with env })
      (fun reserved : Verdict => if reserved.isSuccess then dispatch w c else do
        retry w c reserved.message
        return .retrying) reserve
    by_cases pass' : v'.isSuccess = true
    · rw [if_pos pass'] at reserved
      exact reserved.proceeds (proceeds_dispatch w c { s with env := env' })
    · rw [if_neg pass'] at reserved
      exact .retries v'.message { s with env := env' } rfl reserved
  · rw [if_neg pass] at filtered
    exact .retries v.message { s with env } rfl filtered

theorem proceeds_cycle {queues : QueueSet} (hand : InHand s c queues) :
    Proceeds w c queues (cycle w) s := by
  rcases hand with ⟨free, pop⟩ | ⟨⟨ticket, held⟩, rfl⟩
  · have on : GoesOnAs (cycle w) s (attempt w c) { s with queues } := fun trail =>
      cycle_of_pop (s := s.withTrail trail) free pop
    exact on.proceeds (proceeds_attempt w c { s with queues })
  · have on : GoesOnAs (cycle w) s (resume w ⟨c, ticket⟩) { s with suspended := none } :=
      fun trail => by
        unfold cycle
        rw [bind_run, get_run]
        dsimp only
        rw [SchedulerState.withTrail_suspended, held]
        rfl
    refine on.proceeds ?_
    cases ticket with
    | none => exact proceeds_dispatch w c { s with suspended := none }
    | some ticket =>
      have polled : GoesOnAs (resume w ⟨c, some ticket⟩) { s with suspended := none }
          (afterDispatch w c (s.dispatcher.poll ticket c).1)
          { s with suspended := none, dispatcher := (s.dispatcher.poll ticket c).2 } :=
        fun _ => rfl
      exact polled.proceeds (proceeds_afterDispatch w c _
        { s with suspended := none, dispatcher := (s.dispatcher.poll ticket c).2 })

/-! ## The confirmation -/

/-- Telling a handler is at most noted, and leaves the queues alone. -/
theorem notifyRelease_sends (w : Wiring E) (c : Candidate) (admitted : Job)
    (s : SchedulerState E) :
    ∃ ds, Sends (notifyRelease w c admitted) s ds ∧
      (∀ d ∈ ds, d.key = c.key ∧ d.action = .release) ∧
      (notifyRelease w c admitted s).2.queues = s.queues := by
  obtain ⟨env, trail, same, -⟩ := notifyRelease_spec w c admitted s
  rw [same]
  unfold notifyRelease
  rcases w.routes with _ | routes
  · exact ⟨[], sends_pure _ _, fun _ h => (by cases h), rfl⟩
  · rcases told : routes.notifyDequeued admitted s.env with ⟨answer, env⟩
    rcases answer with e | _ | _
    · exact ⟨[], (GoesOnAs.consult _ told).sends (sends_pure _ _), fun _ h => (by cases h), rfl⟩
    · exact ⟨[], (GoesOnAs.consult _ told).sends (sends_pure _ _), fun _ h => (by cases h), rfl⟩
    · refine ⟨_, (GoesOnAs.consult _ told).sends (sends_decide _ _ _ _), fun d h => ?_, rfl⟩
      rw [List.mem_singleton.1 h]
      exact ⟨rfl, rfl⟩

/-- A confirmation goes on to the retry path, or settles the candidate itself. -/
theorem confirm_settled (w : Wiring E) (c : Candidate) (s : SchedulerState E) :
    (∃ reason u, u.queues = s.queues ∧ GoesOnAs (confirm w c) s (retry w c reason) u) ∨
      ∃ ds, Sends (confirm w c) s ds ∧
        Settled w c False s.queues (confirm w c s).2.queues ds := by
  rcases put : recordAdmission w.client c.job s.env with ⟨e | admitted, env⟩
  · have failed : GoesOnAs (confirm w c) s _ { s with env } := GoesOnAs.consult _ put
    rcases returned : w.pipeline.unreserve c env with ⟨_, env'⟩
    have undone := GoesOnAs.consult (s := { s with env })
      (fun _ : Unit => if e.isNotFound then decide c .discard (some e.message)
        else retry w c e.message) returned
    have on : GoesOnAs (confirm w c) s _ { s with env := env' } := fun trail =>
      (failed trail).trans (undone trail)
    by_cases gone : e.isNotFound = true
    · rw [if_pos gone] at on
      refine .inr ⟨_, on.sends (sends_decide _ _ _ _), ?_⟩
      rw [on.here]
      refine .once id _ [] (.apart (.inr rfl) rfl) (fun _ h => by cases h) fun _ d h => ?_
      rw [List.mem_singleton.1 h]
    · rw [if_neg gone] at on
      exact .inl ⟨e.message, { s with env := env' }, rfl, on⟩
  · have recorded : GoesOnAs (confirm w c) s _ { s with env } := GoesOnAs.consult _ put
    obtain ⟨rest, told, released, same⟩ := notifyRelease_sends w c admitted
      (decide c .dequeue none { s with env }).2
    refine .inr ⟨_, recorded.sends ((sends_decide _ _ _ _).bind told), ?_⟩
    rw [recorded.here]
    refine .once id _ rest (.apart (.inl rfl) same) (fun d h => (released d h).2) fun _ d h => ?_
    rcases List.mem_cons.1 h with rfl | h
    · rfl
    · exact (released d h).1

end

end Scheduling

/-! ## All that is done for a candidate -/

/-- What the loop does for a candidate it has taken up. -/
inductive Stage where
  | cycle
  | confirm

/-- The action of a stage. -/
def Stage.act (w : Wiring E) (c : Candidate) : Stage → Scheduling E Unit
  | cycle => do let _ ← Scheduling.cycle w
  | confirm => Scheduling.confirm w c

/-- A stage in the treatment of a candidate, with the state it begins in and the queues of that
state without the candidate. -/
structure Passage (E : Type) where
  stage : Stage
  state : SchedulerState E
  queues : QueueSet

namespace Passage

open Scheduling

variable (w : Wiring E) (c : Candidate) (p : Passage E)

/-- The state after a passage. -/
def after : SchedulerState E := (p.stage.act w c p.state).2

/-- The decisions that are recorded in a passage, whatever trail is attached. -/
def Sends (ds : List Decision) : Prop := Scheduling.Sends (p.stage.act w c) p.state ds

/-- A passage that ends on the retry path at a closed queue. -/
def TurnedAway : Prop :=
  ∃ reason u, GoesOnAs (p.stage.act w c) p.state (retry w c reason) u ∧ ClosedTo w c u

variable {w c p} {closed : Prop} {before after : QueueSet} {ds : List Decision}

theorem TurnedAway.sends (h : p.TurnedAway w c) : p.Sends w c [] := by
  obtain ⟨reason, u, on, shut⟩ := h
  obtain ⟨ds, sends, settled⟩ := retry_settled w c reason u
  cases settled with
  | silent => exact on.sends sends
  | once opened => exact absurd shut opened

/-- A passage that settles its candidate is not turned away, because it sends something. -/
theorem settled (sends : p.Sends w c ds) (h : Settled w c closed before after ds)
    (shut : closed → p.TurnedAway w c) : Settled w c (p.TurnedAway w c) before after ds := by
  cases h with
  | silent h same => exact .silent (shut h) same
  | once _ d rest settles others named =>
    exact .once (fun away => by cases away.sends.unique sends) d rest settles others named

theorem settled_of_retry {reason : String} {u : SchedulerState E} (same : u.queues = p.queues)
    (on : GoesOnAs (p.stage.act w c) p.state (retry w c reason) u) :
    ∃ ds, p.Sends w c ds ∧
      Settled w c (p.TurnedAway w c) p.queues (p.after w c).queues ds := by
  obtain ⟨ds, sends, settled⟩ := retry_settled w c reason u
  have left : (p.after w c).queues = (retry w c reason u).2.queues := by
    unfold Passage.after
    rw [on.here, sends p.state.trail]
    rfl
  rw [left, ← same]
  exact ⟨ds, on.sends sends, Passage.settled (on.sends sends) settled fun shut =>
    ⟨reason, u, on, shut⟩⟩

end Passage

namespace Scheduling

/-- How the loop deals with a candidate it has in hand: the passages before the last one, and the
last one. A cycle that waits for a slot is followed by another one, and a confirmation under way is
done, in any later state. -/
inductive Handling (w : Wiring E) (c : Candidate) :
    SchedulerState E → List (Passage E) → Passage E → Prop where
  | retries (s : SchedulerState E) (queues : QueueSet) (hand : InHand s c queues)
      (outcome : (cycle w s).1 = .retrying) : Handling w c s [] ⟨.cycle, s, queues⟩
  | confirms (s : SchedulerState E) (queues : QueueSet) (hand : InHand s c queues)
      (outcome : (cycle w s).1 = .confirming) (later : SchedulerState E) :
      Handling w c s [⟨.cycle, s, queues⟩] ⟨.confirm, later, later.queues⟩
  | waits (s : SchedulerState E) (queues : QueueSet) (hand : InHand s c queues)
      (outcome : (cycle w s).1 = .blocked) (later : SchedulerState E)
      (suspended : later.suspended = (cycle w s).2.suspended) (earlier : List (Passage E))
      (last : Passage E) (rest : Handling w c later earlier last) :
      Handling w c s (⟨.cycle, s, queues⟩ :: earlier) last

section

variable {w : Wiring E} {c : Candidate} {s : SchedulerState E} {queues : QueueSet}

/-- A cycle that does not retry its candidate sends nothing, and the queues stay without it. -/
theorem silent_cycle (hand : InHand s c queues) (outcome : (cycle w s).1 ≠ .retrying) :
    (⟨.cycle, s, queues⟩ : Passage E).Sends w c [] ∧
      ((⟨.cycle, s, queues⟩ : Passage E).after w c).queues = queues := by
  cases proceeds_cycle (w := w) hand with
  | retries reason u same on => exact absurd (congrArg Prod.fst on.here) outcome
  | waits _ sends same => exact ⟨sends.bind (sends_pure () _), same⟩

theorem settled_cycle (hand : InHand s c queues) (outcome : (cycle w s).1 = .retrying) :
    ∃ ds, (⟨.cycle, s, queues⟩ : Passage E).Sends w c ds ∧
      Settled w c ((⟨.cycle, s, queues⟩ : Passage E).TurnedAway w c) queues
        ((⟨.cycle, s, queues⟩ : Passage E).after w c).queues ds := by
  cases proceeds_cycle (w := w) hand with
  | waits other => rcases other with e | e <;> cases outcome.symm.trans e
  | retries reason u same on =>
    have on' : GoesOnAs (Stage.cycle.act w c) s (retry w c reason) u := fun trail => by
      rw [Stage.act, bind_run, on trail]
      rfl
    exact Passage.settled_of_retry (p := ⟨.cycle, s, queues⟩) same on'

theorem settled_confirm (w : Wiring E) (c : Candidate) (s : SchedulerState E) :
    ∃ ds, (⟨.confirm, s, s.queues⟩ : Passage E).Sends w c ds ∧
      Settled w c ((⟨.confirm, s, s.queues⟩ : Passage E).TurnedAway w c) s.queues
        ((⟨.confirm, s, s.queues⟩ : Passage E).after w c).queues ds := by
  rcases confirm_settled w c s with ⟨reason, u, same, on⟩ | ⟨ds, sends, settled⟩
  · exact Passage.settled_of_retry (p := ⟨.confirm, s, s.queues⟩) same on
  · exact ⟨ds, sends, Passage.settled (p := ⟨.confirm, s, s.queues⟩) sends settled False.elim⟩

/-- Only the last passage sends anything, and what it sends settles the candidate. -/
theorem Handling.settled {earlier : List (Passage E)} {last : Passage E}
    (h : Handling w c s earlier last) :
    ∃ sent, List.Forall₂ (Passage.Sends w c) (earlier ++ [last]) sent ∧
      Settled w c (last.TurnedAway w c) last.queues (last.after w c).queues sent.flatten ∧
      ∀ p ∈ earlier, (p.after w c).queues = p.queues := by
  induction h with
  | retries s queues hand outcome =>
    obtain ⟨ds, sends, settled⟩ := settled_cycle hand outcome
    exact ⟨[ds], .cons sends .nil, by rwa [List.flatten_singleton], fun _ h => by cases h⟩
  | confirms s queues hand outcome later =>
    obtain ⟨silent, same⟩ := silent_cycle (w := w) hand
      (by rw [outcome]; exact Outcome.noConfusion)
    obtain ⟨ds, sends, settled⟩ := settled_confirm w c later
    refine ⟨[[], ds], .cons silent (.cons sends .nil), ?_, fun p h => ?_⟩
    · rwa [List.flatten_cons, List.nil_append, List.flatten_singleton]
    · rw [List.mem_singleton.1 h]
      exact same
  | waits s queues hand outcome later suspended earlier last rest ih =>
    obtain ⟨silent, same⟩ := silent_cycle (w := w) hand
      (by rw [outcome]; exact Outcome.noConfusion)
    obtain ⟨sent, sends, settled, kept⟩ := ih
    refine ⟨[] :: sent, .cons silent sends, settled, fun p h => ?_⟩
    rcases List.mem_cons.1 h with rfl | h
    · exact same
    · exact kept p h

/-- In all that the loop does for a candidate, one decision and no more is recorded that settles it,
if and only if the candidate is not turned away by a closed queue. After a delay the queue holds the
candidate; if it was admitted or given up, no passage put it into a queue. -/
theorem settled_once_iff {earlier : List (Passage E)} {last : Passage E}
    (handling : Handling w c s earlier last) :
    ∃ sent, List.Forall₂ (Passage.Sends w c) (earlier ++ [last]) sent ∧
      (sent.flatten.countP (·.action.settles) = 1 ↔ ¬ last.TurnedAway w c) ∧
      ∀ d ∈ sent.flatten,
        (d.action = .backoff → ∃ id q,
          (last.after w c).queues.lookup? d.queue = some (id, q) ∧ q.holds d.key = true) ∧
        (d.action = .dequeue ∨ d.action = .discard →
          ∀ p ∈ earlier ++ [last], (p.after w c).queues = p.queues) ∧
        (Answers w c → d.key = c.key) := by
  obtain ⟨sent, sends, settled, kept⟩ := handling.settled
  refine ⟨sent, sends, settled.countP_iff, fun d hd => ?_⟩
  have stated := settled.settles_or_release hd
  refine ⟨fun delayed => ?_, fun apart p hp => ?_, fun answers => settled.key_eq answers hd⟩
  · rcases stated with settles | released
    · exact settles.held delayed
    · cases delayed.symm.trans released
  · rcases stated with settles | released
    · rcases List.mem_append.1 hp with hp | hp
      · exact kept p hp
      · rw [List.mem_singleton.1 hp]
        exact settles.same apart
    · rcases apart with e | e <;> cases e.symm.trans released

end

end Scheduling

/-! ## A candidate that is admitted -/

namespace Scheduling

open Site

/-- A cycle and a confirmation later the candidate is admitted, by one decision. -/
theorem settled_once_admitted :
    ∃ earlier last, Handling standard (.wanting "x" 2) onRecord earlier last ∧
      ∃ sent, List.Forall₂ (Passage.Sends standard (.wanting "x" 2)) (earlier ++ [last]) sent ∧
        sent.flatten.countP (·.action.settles) = 1 ∧
        ∀ d ∈ sent.flatten, d.action = .dequeue ∨ d.action = .discard →
          ∀ p ∈ earlier ++ [last], (p.after standard (.wanting "x" 2)).queues = p.queues := by
  obtain ⟨queues, pop⟩ := QueueSet.popNext_holding (.wanting "x" 2)
  have first : cycle standard onRecord =
    attempt standard (.wanting "x" 2) { onRecord with queues } := cycle_of_pop rfl pop
  have handling := Handling.confirms (w := standard) onRecord queues (.inl ⟨rfl, pop⟩)
    (by rw [first]; rfl) (cycle standard onRecord).2
  have sends : Sends (confirm standard (.wanting "x" 2)) (cycle standard onRecord).2
      [⟨"n/x", "default", .dequeue, none⟩] := by
    rw [first]
    intro trail
    cases trail <;> rfl
  have stays : ¬ Passage.TurnedAway standard (.wanting "x" 2)
      ⟨.confirm, (cycle standard onRecord).2, (cycle standard onRecord).2.queues⟩ := fun away => by
    cases away.sends.unique sends
  obtain ⟨sent, all, once, each⟩ := settled_once_iff handling
  exact ⟨_, _, handling, sent, all, once.2 stays, fun d h => (each d h).2.1⟩

end Scheduling

/-! ## A candidate that is turned away -/

/-- Closing the queues leaves the candidate to be popped, from a queue that is closed. -/
theorem QueueSet.popNext_close_holding (c : Candidate) : ∃ queues id q,
    (holding c).close.popNext = some (c, queues) ∧ queues.lookup? "a" = some (id, q) ∧
      q.closed = true := by
  unfold close cancel holding
  dsimp only
  rw [List.map_toArray]
  unfold popNext
  rw [visited, show byName _ = [_] from rfl, List.mergeSort_singleton]
  exact ⟨_, _, _, rfl, rfl, rfl⟩

namespace Site

/-- A candidate of the queue `a`. -/
def latecomer : Candidate := .fresh { Job.new "n" "x" "TFJob" with queue := "a" } 0

/-- A site without quotas at which the candidate is ready and its job on record, but all queues are
closed. -/
def closedDown : SchedulerState Site :=
  { withinQuota with
    queues := (QueueSet.holding latecomer).close
    env := { empty with store := JobStore.empty.insert latecomer.job } }

end Site

namespace Scheduling

open Site

/-- The candidate does not pass the filter and comes to its closed queue: it is in no queue then,
and nothing is recorded. -/
theorem unrecorded_at_closed_queue :
    ∃ last, Handling standard latecomer closedDown [] last ∧
      last.Sends standard latecomer [] ∧ (last.after standard latecomer).queues = last.queues := by
  obtain ⟨queues, id, q, pop, found, closed⟩ := QueueSet.popNext_close_holding latecomer
  have first : cycle standard closedDown =
    attempt standard latecomer { closedDown with queues } := cycle_of_pop rfl pop
  have on : GoesOnAs (Stage.cycle.act standard latecomer) closedDown
      (retry standard latecomer (standard.pipeline.filter latecomer closedDown.env).1.message)
      { closedDown with queues } := fun trail => by
    rw [Stage.act, bind_run, cycle_of_pop (s := closedDown.withTrail trail) rfl pop]
    rfl
  obtain ⟨ds, sends, settled⟩ := Passage.settled_of_retry (p := ⟨.cycle, closedDown, queues⟩) rfl on
  cases settled with
  | silent _ same =>
    exact ⟨_, .retries closedDown queues (.inl ⟨rfl, pop⟩) (by rw [first]; rfl), sends, same⟩
  | once opened =>
    exact absurd ⟨_, _, on, latecomer, rfl, id, q, found, closed⟩ opened

end Scheduling

end JobAdmission
