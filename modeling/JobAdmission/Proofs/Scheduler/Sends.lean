/-
What actions record in the trail. An action does not look at the trail, so that there is one list of
decisions that it sends to whatever trail is attached (`Sends.unique`), and actions in a row send
their lists in a row.
-/
import JobAdmission.Proofs.Audit
import JobAdmission.Proofs.Scheduler.Exits

namespace JobAdmission

variable {E α β : Type}

/-! ## Trails -/

/-- The scheduler with another trail. -/
def SchedulerState.withTrail (s : SchedulerState E) (trail : Option AuditTrail) :
    SchedulerState E := { s with trail }

section

variable (s : SchedulerState E) (trail : Option AuditTrail)

@[simp]
theorem SchedulerState.withTrail_queues : (s.withTrail trail).queues = s.queues := rfl

@[simp]
theorem SchedulerState.withTrail_now : (s.withTrail trail).now = s.now := rfl

@[simp]
theorem SchedulerState.withTrail_turn : (s.withTrail trail).turn = s.turn := rfl

@[simp]
theorem SchedulerState.withTrail_suspended : (s.withTrail trail).suspended = s.suspended := rfl

end

namespace Scheduling

/-! ## Sending -/

/-- Whatever trail is attached, these decisions are recorded in it, and nothing else that is done
depends on the trail. -/
def Sends (m : Scheduling E α) (s : SchedulerState E) (ds : List Decision) : Prop :=
  ∀ trail, m (s.withTrail trail) =
    ((m s).1, (m s).2.withTrail (trail.map (·.recordAll ds)))

/-- Whatever trail is attached, the one action does from the one state what the other does from the
other. -/
def GoesOnAs (m : Scheduling E α) (s : SchedulerState E) (n : Scheduling E α)
    (u : SchedulerState E) : Prop :=
  ∀ trail, m (s.withTrail trail) = n (u.withTrail trail)

section

variable {m n : Scheduling E α} {s u : SchedulerState E} {ds ds' : List Decision}

/-- There is only one list of decisions that an action sends. -/
theorem Sends.unique (h : Sends m s ds) (h' : Sends m s ds') : ds = ds' := by
  -- a trail with room for both shows what was recorded in it
  have same := (h (some (.new (ds.length + ds'.length)))).symm.trans (h' _)
  have trails := congrArg (fun r => r.2.trail.map AuditTrail.decisions) same
  change some (AuditTrail.recordAll _ ds).decisions = some (AuditTrail.recordAll _ ds').decisions
    at trails
  rw [AuditTrail.recordAll_of_room (by simp [AuditTrail.new]),
    AuditTrail.recordAll_of_room (by simp [AuditTrail.new])] at trails
  exact Option.some.inj trails

theorem GoesOnAs.here (h : GoesOnAs m s n u) : m s = n (u.withTrail s.trail) := h s.trail

theorem GoesOnAs.sends (h : GoesOnAs m s n u) (sends : Sends n u ds) : Sends m s ds := by
  intro trail
  rw [h.here, h trail, sends, sends s.trail]
  rfl

theorem Sends.bind {f : α → Scheduling E β} (h : Sends m s ds)
    (h' : Sends (f (m s).1) (m s).2 ds') : Sends (m >>= f) s (ds ++ ds') := by
  intro trail
  rw [bind_run, bind_run, h trail, h']
  cases trail with
  | none => rfl
  | some t => rw [Option.map_some, Option.map_some, Option.map_some, AuditTrail.recordAll_append]

theorem GoesOnAs.consult {act : StateM E α} {a : α} {env : E} (f : α → Scheduling E β)
    (e : act s.env = (a, env)) :
    GoesOnAs (Scheduling.consult act >>= f) s (f a) { s with env } := by
  intro trail
  unfold Scheduling.consult
  rw [bind_run, show act (s.withTrail trail).env = (a, env) from e]
  rfl

theorem sends_pure (a : α) (s : SchedulerState E) : Sends (pure a : Scheduling E α) s [] := by
  intro trail
  cases trail <;> rfl

theorem sends_decide (c : Candidate) (action : Action) (message : Option String)
    (s : SchedulerState E) :
    Sends (decide c action message) s [⟨c.key, c.job.queueName, action, message⟩] := by
  intro trail
  cases trail <;> rfl

end

end Scheduling

end JobAdmission
