/-
What the reservations of a pipeline were asked. Any wiring has a traced version, whose environment
carries a list of the calls beside what it holds already; a cycle of the traced wiring is a cycle
of the wiring, with its calls noted down (`cycle_traced`).
-/
import JobAdmission.Scheduler.Cycle
import Mathlib.Data.List.Forall2

namespace JobAdmission

/-- A call of one of the reservations of a pipeline, by its place among them. -/
inductive Asked where
  | reserve (place : Nat) (c : Candidate) (accepted : Bool)
  | unreserve (place : Nat) (c : Candidate)
deriving DecidableEq

variable {E S T α β : Type}

/-! ## Noting down -/

/-- An action that notes nothing down. -/
def unnoted (m : StateM E α) : StateM (E × List Asked) α := fun env =>
  ((m env.1).1, ((m env.1).2, env.2))

/-- A reservation that notes its calls down under a place. -/
def Reservation.traced (r : Reservation E) (place : Nat) : Reservation (E × List Asked) where
  reserve c env :=
    ((r.reserve c env.1).1, ((r.reserve c env.1).2,
      env.2 ++ [.reserve place c (r.reserve c env.1).1.isSuccess]))
  unreserve c env :=
    ((r.unreserve c env.1).1, ((r.unreserve c env.1).2, env.2 ++ [.unreserve place c]))

namespace Pipeline

/-- Reservations that note their calls down, the first of them under the given place. -/
def tracedFrom : Nat → List (String × Reservation E) →
    List (String × Reservation (E × List Asked))
  | _, [] => []
  | place, r :: rest => (r.1, r.2.traced place) :: tracedFrom (place + 1) rest

def traced (p : Pipeline E) : Pipeline (E × List Asked) where
  queueOrder := p.queueOrder
  jobOrders := p.jobOrders
  filters := p.filters.map fun f => (f.1, fun c => unnoted (f.2 c))
  reservations := tracedFrom 0 p.reservations

end Pipeline

def ReleaseHandler.traced (h : ReleaseHandler E) : ReleaseHandler (E × List Asked) where
  dequeued j := unnoted (h.dequeued j)
  release j := unnoted (h.release j)

def Wiring.traced (w : Wiring E) : Wiring (E × List Asked) where
  pipeline := w.pipeline.traced
  client := {
    get := fun ns name => unnoted (w.client.get ns name)
    update := fun j => unnoted (w.client.update j) }
  routes := w.routes.map fun r => ⟨r.handlers.map ReleaseHandler.traced⟩
  idleEvery := w.idleEvery

namespace SchedulerState

/-- The state with another environment. -/
def withEnv (s : SchedulerState E) (env : T) : SchedulerState T where
  now := s.now
  queues := s.queues
  dispatcher := s.dispatcher
  suspended := s.suspended
  turn := s.turn
  stopped := s.stopped
  trail := s.trail
  env := env

/-- The state with nothing noted down yet. -/
def traced (s : SchedulerState E) : SchedulerState (E × List Asked) := s.withEnv (s.env, [])

/-- The state without what was noted down. -/
def plain (s : SchedulerState (E × List Asked)) : SchedulerState E := s.withEnv s.env.1

section

variable (s : SchedulerState (E × List Asked))

@[simp] theorem plain_now : s.plain.now = s.now := rfl

@[simp] theorem plain_queues : s.plain.queues = s.queues := rfl

@[simp] theorem plain_suspended : s.plain.suspended = s.suspended := rfl

end

end SchedulerState

/-! ## A traced run is the run -/

/-- The first action does to the state behind `f` what the second does, with the same result. -/
def Simulates (f : S → T) (m : StateM S α) (m' : StateM T α) : Prop :=
  ∀ s, m' (f s) = ((m s).1, f (m s).2)

namespace Simulates

variable {f : S → T}

theorem pure (a : α) : Simulates f (Pure.pure a) (Pure.pure a) := fun _ => rfl

theorem bind {m : StateM S α} {m' : StateM T α} {k : α → StateM S β} {k' : α → StateM T β}
    (h : Simulates f m m') (hk : ∀ a, Simulates f (k a) (k' a)) :
    Simulates f (m >>= k) (m' >>= k') := by
  intro s
  show k' (m' (f s)).1 (m' (f s)).2 = _
  rw [h s]
  exact hk _ _

/-- Actions that read the state first. -/
theorem get {k : S → StateM S α} {k' : T → StateM T α}
    (h : ∀ s, k' (f s) (f s) = ((k s s).1, f (k s s).2)) :
    Simulates f (MonadState.get >>= k) (MonadState.get >>= k') := h

end Simulates

theorem simulates_unnoted (m : StateM E α) : Simulates Prod.fst (unnoted m) m := fun _ => rfl

namespace Pipeline

open List

theorem simulates_askInTurn {asks : List (Consultation S)} {asks' : List (Consultation T)}
    {f : S → T} (h : Forall₂ (fun a a' => ∀ c, Simulates f (a c) (a' c)) asks asks')
    (c : Candidate) : Simulates f (askInTurn asks c) (askInTurn asks' c) := by
  induction h with
  | nil => exact Simulates.pure _
  | cons ha _ ih =>
    refine (ha c).bind fun v => ?_
    split
    · exact ih
    · exact Simulates.pure _

theorem simulates_askAll {asks : List (Consultation S)} {asks' : List (Consultation T)}
    {f : S → T} (h : Forall₂ (fun a a' => ∀ c, Simulates f (a c) (a' c)) asks asks')
    (c : Candidate) : Simulates f (askAll asks c) (askAll asks' c) := by
  induction h with
  | nil => exact Simulates.pure _
  | cons ha _ ih => exact (ha c).bind fun _ => ih

theorem simulates_filter (p : Pipeline E) (c : Candidate) :
    Simulates Prod.fst (p.traced.filter c) (p.filter c) := by
  refine simulates_askInTurn ?_ c
  unfold traced
  induction p.filters with
  | nil => exact .nil
  | cons x rest ih => exact .cons (fun c => simulates_unnoted (x.2 c)) ih

theorem simulates_reserve (p : Pipeline E) (c : Candidate) :
    Simulates Prod.fst (p.traced.reserve c) (p.reserve c) := by
  refine simulates_askInTurn ?_ c
  unfold traced
  -- the places only matter to the notes
  generalize 0 = place
  induction p.reservations generalizing place with
  | nil => exact .nil
  | cons r rest ih => exact .cons (fun _ _ => rfl) (ih (place + 1))

theorem simulates_unreserve (p : Pipeline E) (c : Candidate) :
    Simulates Prod.fst (p.traced.unreserve c) (p.unreserve c) := by
  refine simulates_askAll ?_ c
  unfold traced
  generalize 0 = place
  induction p.reservations generalizing place with
  | nil => exact .nil
  | cons r rest ih => exact .cons (fun _ _ => rfl) (ih (place + 1))

end Pipeline

namespace Scheduling

open SchedulerState

theorem simulates_consult {m : StateM (E × List Asked) α} {m' : StateM E α}
    (h : Simulates Prod.fst m m') : Simulates plain (consult m) (consult m') := by
  intro s
  unfold consult
  rw [show m' (plain s).env = _ from h s.env]
  rfl

theorem simulates_delayAgain (c : Candidate) (reason : String) :
    Simulates plain (delayAgain c reason) (delayAgain c reason : Scheduling E Unit) := by
  refine Simulates.get fun s => ?_
  simp only [plain_queues, plain_now]
  rcases s.queues.lookup? (c.failedAt s.now).job.queueName with _ | ⟨id, q⟩
  · rfl
  · dsimp only
    rcases q.delay (c.failedAt s.now) with _ | q' <;> rfl

theorem simulates_retry (w : Wiring E) (c : Candidate) (reason : String) :
    Simulates plain (retry w.traced c reason) (retry w c reason) := by
  refine (simulates_consult (simulates_unnoted _)).bind fun r => ?_
  rcases r with e | latest
  · dsimp only
    split
    · exact fun _ => rfl
    · exact simulates_delayAgain c reason
  · dsimp only
    split
    · exact fun _ => rfl
    · exact simulates_delayAgain _ reason

theorem simulates_afterDispatch (w : Wiring E) (c : Candidate) (a : Acquisition) :
    Simulates plain (afterDispatch w.traced c a) (afterDispatch w c a) := by
  cases a with
  | granted => exact fun _ => rfl
  | waiting ticket => exact fun _ => rfl
  | refused =>
    refine (simulates_consult (Pipeline.simulates_unreserve w.pipeline c)).bind fun _ => ?_
    exact (simulates_retry w c _).bind fun _ => Simulates.pure _

theorem simulates_dispatch (w : Wiring E) (c : Candidate) :
    Simulates plain (dispatch w.traced c) (dispatch w c) := by
  refine Simulates.get fun s => ?_
  by_cases h : s.turn = some 0
  · rw [if_pos (show s.plain.turn = some 0 from h), if_pos h]
    rfl
  · rw [if_neg (show ¬ s.plain.turn = some 0 from h), if_neg h]
    exact simulates_afterDispatch w c (s.dispatcher.dispatch c).1
      { s with dispatcher := (s.dispatcher.dispatch c).2 }

theorem simulates_attempt (w : Wiring E) (c : Candidate) :
    Simulates plain (attempt w.traced c) (attempt w c) := by
  refine (simulates_consult (Pipeline.simulates_filter w.pipeline c)).bind fun v => ?_
  split
  · refine (simulates_consult (Pipeline.simulates_reserve w.pipeline c)).bind fun v' => ?_
    split
    · exact simulates_dispatch w c
    · exact (simulates_retry w c _).bind fun _ => Simulates.pure _
  · exact (simulates_retry w c _).bind fun _ => Simulates.pure _

/-- A cycle of the traced wiring is a cycle of the wiring, but for what is noted down. -/
theorem simulates_cycle (w : Wiring E) : Simulates plain (cycle w.traced) (cycle w) := by
  refine Simulates.get fun s => ?_
  simp only [plain_suspended]
  rcases s.suspended with _ | ⟨c, _ | ticket⟩
  · refine (Simulates.get fun s => ?_ : Simulates plain (start w.traced) (start w)) s
    simp only [plain_queues]
    rcases s.queues.popNext with _ | ⟨c, queues⟩
    · rfl
    · exact simulates_attempt w c { s with queues }
  · exact simulates_dispatch w c { s with suspended := none }
  · exact simulates_afterDispatch w c (s.dispatcher.poll ticket c).1
      { s with suspended := none, dispatcher := (s.dispatcher.poll ticket c).2 }

end Scheduling

end JobAdmission
