/-
No job is admitted twice. A candidate that was taken from its queue is in no queue, so its job may
be queued again while its confirmation is under way; but its key is in the ledger until the
confirmation fails, and the quota plugin refuses a key that it holds. So the confirmations under way
and those that succeeded have keys of their own, all of them in the ledger, as long as no event
gives a reservation back.
-/
import JobAdmission.Proofs.Feed.Steps
import JobAdmission.Proofs.Scheduler.Booked
import JobAdmission.Proofs.Scheduler.DefaultQueue
import JobAdmission.Proofs.Scheduler.NoOvercommit
import Mathlib.Data.List.Perm.Basic

namespace JobAdmission

variable {E : Type}

/-! ## Keys in the ledger -/

namespace Ledger

/-- The ledger holds some candidates, each under a key of its own. -/
structure Holds (l : Ledger) (cs : List Candidate) : Prop where
  distinct : (cs.map (·.key)).Nodup
  reserved : ∀ c ∈ cs, l.isReserved c.key = true

variable {l l' : Ledger} {c : Candidate} {cs cs' : List Candidate}

theorem holds_nil (l : Ledger) : l.Holds [] := ⟨.nil, fun _ hc => by cases hc⟩

theorem Holds.perm (h : l.Holds cs) (p : cs.Perm cs') : l.Holds cs' where
  distinct := (p.map _).nodup_iff.1 h.distinct
  reserved c hc := h.reserved c (p.mem_iff.2 hc)

theorem Holds.grown (h : l.Holds cs)
    (grown : ∀ key, l.isReserved key = true → l'.isReserved key = true) : l'.Holds cs :=
  ⟨h.distinct, fun c hc => grown _ (h.reserved c hc)⟩

/-- A candidate is entered whose key was free. -/
theorem Holds.reserve (h : l.Holds cs) (free : l.isReserved c.key = false) :
    (l.reserve c).2.Holds (c :: cs) where
  distinct := by
    rw [List.map_cons, List.nodup_cons]
    refine ⟨fun hm => ?_, h.distinct⟩
    obtain ⟨other, ho, same⟩ := List.mem_map.1 hm
    have := h.reserved other ho
    rw [same, free] at this
    cases this
  reserved c' hc' := by
    rw [isReserved_reserve]
    rcases List.mem_cons.1 hc' with rfl | hc'
    · simp
    · rw [h.reserved c' hc', Bool.or_true]

/-- A candidate is struck, and the others stay, whose keys are not its key. -/
theorem Holds.unreserve (h : l.Holds (c :: cs)) : (l.unreserve c).Holds cs where
  distinct := (List.nodup_cons.1 h.distinct).2
  reserved c' hc' := by
    have other : c.key ≠ c'.key := by
      intro same
      exact (List.nodup_cons.1 h.distinct).1 (List.mem_map.2 ⟨c', hc', same.symm⟩)
    rw [isReserved_unreserve, h.reserved c' (List.mem_cons_of_mem _ hc')]
    simpa using other

end Ledger

namespace Pipeline

/-- All reservations were asked if they all accepted. -/
theorem acceptedBy_of_isSuccess {asks : List (Consultation E)} {c : Candidate} {env : E}
    (h : (askInTurn asks c env).1.isSuccess = true) : acceptedBy asks c env = asks.length := by
  induction asks generalizing env with
  | nil => rfl
  | cons ask rest ih =>
    rw [askInTurn_cons] at h
    unfold acceptedBy
    split at h
    · rename_i accepted
      rw [if_pos accepted, ih h, List.length_cons]
    · rename_i refused
      exact absurd h refused

end Pipeline

namespace Wiring.Books

open Pipeline

variable {w : Wiring E} {slot : LedgerSlot E} {place : Nat} {c : Candidate} {cs : List Candidate}
  {env : E}

theorem grown_reserve (books : w.Books slot place) (c : Candidate) (env : E) (key : String)
    (h : (slot.get env).isReserved key = true) :
    (slot.get (w.pipeline.reserve c env).2).isReserved key = true := by
  have entered := entered_reserve books.lawful books.reservations c env
  change Entered _ _ _ _ _ (slot.get (w.pipeline.reserve c env).2) at entered
  obtain ⟨_, _, after⟩ | ⟨_, after⟩ := entered
  · rw [after, Ledger.isReserved_reserve, h, Bool.or_true]
  · rw [after, h]

theorem holds_reserve (books : w.Books slot place) (h : (slot.get env).Holds cs)
    (success : (w.pipeline.reserve c env).1.isSuccess = true) :
    (slot.get (w.pipeline.reserve c env).2).Holds (c :: cs) := by
  have entered := entered_reserve books.lawful books.reservations c env
  rw [acceptedBy_of_isSuccess success, List.length_map] at entered
  change Entered _ _ _ _ _ (slot.get (w.pipeline.reserve c env).2) at entered
  obtain ⟨_, free, after⟩ | ⟨none, _⟩ := entered
  · rw [after]
    exact h.reserve free
  · exact absurd ⟨place, books.place_lt, books.quota⟩ none

theorem holds_unreserve (books : w.Books slot place) (h : (slot.get env).Holds (c :: cs)) :
    (slot.get (w.pipeline.unreserve c env).2).Holds cs := by
  rw [books.ledger_unreserve]
  exact h.unreserve

end Wiring.Books

/-! ## Steps -/

/-- The candidates that hold their reservations: those whose confirmations are under way, and the
one of a suspended cycle. -/
def SchedulerState.underway (s : SchedulerState E) : List Candidate :=
  s.dispatcher.tasks ++ (s.suspended.map (·.candidate)).toList

/-- A happening that leaves the ledger to the scheduler: the world does not touch it, and no event
gives a reservation back. -/
def Happening.LeavesLedger (slot : LedgerSlot E) : Happening E → Prop
  | .job event => ¬ event.GivesBack
  | .world change => ∀ env, slot.get (change env) = slot.get env
  | _ => True

namespace Scheduling

/-- The candidate whose admission is put on record when something happens, if there is one. -/
def recorded (w : Wiring E) (s : SchedulerState E) : Happening E → Option Candidate
  | .confirm place =>
    s.dispatcher.tasks[place]?.filter fun c => (recordAdmission w.client c.job s.env).1.isOk
  | _ => none

/-- The candidates whose admissions are put on record in a run, one for each time. -/
def admitted (w : Wiring E) : SchedulerState E → List (Happening E) → List Candidate
  | _, [] => []
  | s, x :: run => (recorded w s x).toList ++ admitted w (happen w s x) run

end Scheduling

section

variable {w : Wiring E} {slot : LedgerSlot E} {place : Nat} {s t : SchedulerState E}
  {c : Candidate} {others : List Candidate}

theorem SchedulerState.underway_free (free : s.suspended = none) :
    s.underway = s.dispatcher.tasks := by
  unfold SchedulerState.underway
  rw [free]
  exact List.append_nil _

theorem Retried.underway (h : Retried w c s t) : t.underway = s.underway := by
  unfold SchedulerState.underway
  rw [h.dispatcher, h.suspended]

/-- A candidate in hand is dispatched. -/
theorem DispatchExit.holds {o : Outcome} (exit : DispatchExit w c s o t)
    (books : w.Books slot place) (free : s.suspended = none)
    (h : (slot.get s.env).Holds (c :: (others ++ s.underway))) :
    (slot.get t.env).Holds (others ++ t.underway) := by
  rw [s.underway_free free] at h
  -- while it waits or is confirmed it is the last of those under way
  have gained : t.underway = s.dispatcher.tasks ++ [c] → t.env = s.env →
      (slot.get t.env).Holds (others ++ t.underway) := by
    intro gained env
    rw [gained, env, ← List.append_assoc]
    exact h.perm (List.perm_append_singleton c _).symm
  cases exit with
  | blocked _ env _ _ tasks suspended =>
    obtain ⟨ticket, suspended⟩ := suspended
    refine gained ?_ env
    unfold SchedulerState.underway
    rw [tasks, suspended]
    rfl
  | confirming _ env _ _ tasks suspended =>
    refine gained ?_ env
    rw [t.underway_free (suspended.trans free), tasks]
  | undone u _ env _ _ tasks suspended retried =>
    rw [books.spares.retried retried, retried.underway, u.underway_free (suspended.trans free),
      tasks, env]
    exact books.holds_unreserve h

/-- A confirmation puts the admission of the candidate in hand on record, or gives it back. -/
theorem ConfirmExit.holds (exit : ConfirmExit w c s t) (books : w.Books slot place)
    (h : (slot.get s.env).Holds (c :: (others ++ s.underway))) :
    (slot.get t.env).Holds (others ++
      (if (Scheduling.recordAdmission w.client c.job s.env).1.isOk then some c else none).toList ++
        t.underway) := by
  cases exit with
  | recorded admitted env env' trail ok told =>
    rw [ok, books.spares.told told, books.spares.put ok]
    refine h.perm ?_
    rw [← List.cons_append]
    exact (List.perm_append_singleton c others).symm.append_right _
  | gone e env trail failed missing =>
    rw [← books.spares.put failed] at h
    rw [failed]
    show Ledger.Holds _ (others ++ [] ++ _)
    rw [List.append_nil]
    exact books.holds_unreserve h
  | undone e env _ failed refusal retried =>
    rw [← books.spares.put failed] at h
    rw [failed, books.spares.retried retried, retried.underway]
    show Ledger.Holds _ (others ++ [] ++ _)
    rw [List.append_nil]
    exact books.holds_unreserve h

namespace Scheduling

theorem holds_cycle (books : w.Books slot place)
    (h : (slot.get s.env).Holds (others ++ s.underway)) :
    (slot.get (cycle w s).2.env).Holds (others ++ (cycle w s).2.underway) := by
  have exit := cycle_exit w s
  generalize (cycle w s).1 = o, (cycle w s).2 = t at exit ⊢
  cases exit with
  | idle => exact h
  | unfiltered _ c queues v env _ pop filter _ retried =>
    rw [books.spares.retried retried, retried.underway, books.spares.filtered filter]
    exact h
  | refused _ c queues v v' env env' _ pop filter _ reserve _ retried =>
    rw [books.spares.retried retried, retried.underway]
    have grown := books.grown_reserve c env
    rw [reserve, books.spares.filtered filter] at grown
    exact h.grown grown
  | reserved free c queues v v' env env' _ _ pop filter _ reserve pass exit =>
    refine exit.holds books free ?_
    rw [← books.spares.filtered filter] at h
    have entered := books.holds_reserve (c := c) h (by rw [reserve]; exact pass)
    rw [reserve] at entered
    exact entered
  | resumed c ticket held _ _ exit =>
    refine exit.holds books rfl (h.perm ?_)
    -- the candidate of the suspended cycle is in hand again
    unfold SchedulerState.underway
    rw [held, ← List.append_assoc]
    exact (List.perm_append_singleton c _).trans (by simp)

theorem recorded_confirm (w : Wiring E) (s : SchedulerState E) (at_place : Nat) :
    recorded w s (.confirm at_place) = s.dispatcher.tasks[at_place]?.filter fun c =>
      (recordAdmission w.client c.job s.env).1.isOk := rfl

theorem holds_confirmAt (books : w.Books slot place) (at_place : Nat)
    (h : (slot.get s.env).Holds (others ++ s.underway)) :
    (slot.get (confirmAt w at_place s).2.env).Holds
      (others ++ (recorded w s (.confirm at_place)).toList ++
        (confirmAt w at_place s).2.underway) := by
  rw [recorded_confirm]
  rcases confirmAt_exit w at_place s with ⟨idle, same⟩ | ⟨c, dispatcher, t, taken, exit, same⟩
  · have none : s.dispatcher.tasks[at_place]? = none := Option.map_eq_none_iff.1 idle
    rw [same, none]
    show Ledger.Holds _ (others ++ [] ++ _)
    rw [List.append_nil]
    exact h
  · obtain ⟨_, task, e⟩ := Option.map_eq_some_iff.1 taken
    cases e
    rw [same, task, Option.filter_some]
    obtain ⟨bound, rfl⟩ := List.getElem?_eq_some_iff.1 task
    refine exit.holds books (h.perm (List.Perm.trans ?_ List.perm_middle))
    exact ((List.getElem_cons_eraseIdx_perm bound).symm.append_right _).append_left _

/-! ## Runs -/

theorem holds_happen (books : w.Books slot place) {x : Happening E} (leaves : x.LeavesLedger slot)
    (h : (slot.get s.env).Holds (others ++ s.underway)) :
    (slot.get (happen w s x).env).Holds
      (others ++ (recorded w s x).toList ++ (happen w s x).underway) := by
  -- but for a confirmation nothing is put on record
  have unrecorded : recorded w s x = none →
      (slot.get (happen w s x).env).Holds (others ++ (happen w s x).underway) →
      (slot.get (happen w s x).env).Holds
        (others ++ (recorded w s x).toList ++ (happen w s x).underway) := by
    intro none held
    rw [none, Option.toList_none, List.append_nil]
    exact held
  cases x with
  | job event =>
    refine unrecorded rfl ?_
    have fed := applyJobEvent_fed w event s
    show (slot.get (applyJobEvent w event s).2.env).Holds
      (others ++ (applyJobEvent w event s).2.underway)
    have same : (applyJobEvent w event s).2.underway = s.underway := by
      unfold SchedulerState.underway
      rw [fed.dispatcher, fed.suspended]
    rw [same]
    obtain env | ⟨c, env⟩ | ⟨back, _⟩ := fed.env
    · rw [env]
      exact h
    · rw [env]
      exact h.grown (books.grown_reserve c s.env)
    · exact absurd back leaves
  | queue event =>
    refine unrecorded rfl ?_
    obtain ⟨queues, same⟩ := applyQueueEvent_queues event s
    show (slot.get (applyQueueEvent event s).2.env).Holds
      (others ++ (applyQueueEvent event s).2.underway)
    rw [same]
    exact h
  | cycle => exact unrecorded rfl (holds_cycle books h)
  | confirm at_place => exact holds_confirmAt books at_place h
  | world change =>
    refine unrecorded rfl ?_
    show (slot.get (change s.env)).Holds _
    rw [leaves s.env]
    exact h
  | _ => exact unrecorded rfl h

theorem holds_after (books : w.Books slot place) {run : List (Happening E)}
    (leaves : ∀ x ∈ run, x.LeavesLedger slot)
    (h : (slot.get s.env).Holds (others ++ s.underway)) :
    (slot.get (after w s run).env).Holds
      (others ++ admitted w s run ++ (after w s run).underway) := by
  induction run generalizing s others with
  | nil =>
    show Ledger.Holds _ (others ++ [] ++ _)
    rw [List.append_nil]
    exact h
  | cons x run ih =>
    have next := ih (fun x hx => leaves x (List.mem_cons_of_mem _ hx))
      (holds_happen books (leaves x List.mem_cons_self) h)
    rw [List.append_assoc others] at next
    exact next

/-- In every run in which no event gives a reservation back, the confirmations under way and the
admissions put on record so far have keys of their own, all of them in the ledger. -/
theorem admitted_once (books : w.Books slot place) (idle : s.dispatcher.tasks = [])
    (free : s.suspended = none) {run : List (Happening E)}
    (leaves : ∀ x ∈ run, x.LeavesLedger slot) :
    ((admitted w s run ++ (after w s run).dispatcher.tasks).map (·.key)).Nodup ∧
      ∀ c ∈ admitted w s run ++ (after w s run).dispatcher.tasks,
        (slot.get (after w s run).env).isReserved c.key = true := by
  have none : s.underway = [] := (s.underway_free free).trans idle
  have start : (slot.get s.env).Holds ([] ++ s.underway) := by
    rw [none]
    exact Ledger.holds_nil _
  have held := holds_after books leaves start
  rw [List.nil_append] at held
  have sub : List.Sublist (admitted w s run ++ (after w s run).dispatcher.tasks)
      (admitted w s run ++ (after w s run).underway) :=
    (List.sublist_append_left _ _).append_left _
  exact ⟨(sub.map _).nodup held.distinct, fun c hc => held.reserved c (sub.subset hc)⟩

end Scheduling

end

/-! ## A candidate that is confirmed -/

namespace Site

theorem books_standard : standard.Books sharedLedger 0 where
  lawful := lawful_sharedLedger
  filters f hf c := by
    rw [List.mem_singleton.1 hf]
    exact fun _ => rfl
  reservations r hr := .inl (by rw [List.mem_singleton.1 hr])
  get := kept_read
  quota := ⟨QuotaPlugin.name, rfl⟩
  update := kept_write
  notify _ e := by cases e

/-- A site at which a candidate is ready whose job is on record. -/
def onRecord : SchedulerState Site :=
  { withinQuota with env :=
    { withinQuota.env with store := JobStore.empty.insert (Candidate.wanting "x" 2).job } }

theorem cycle_onRecord : ∃ queues, Scheduling.happen standard onRecord .cycle =
    (Scheduling.attempt standard (.wanting "x" 2) { onRecord with queues }).2 := by
  obtain ⟨queues, pop⟩ := QueueSet.popNext_holding (.wanting "x" 2)
  exact ⟨queues, congrArg Prod.snd (Scheduling.cycle_of_pop rfl pop)⟩

/-- A site with three processors at which a job is on record that asks for one. -/
def announcing : Site :=
  { recording (Candidate.wanting "x" 1).job with quotas := Quota.threeProcessors }

end Site

namespace Scheduling

open Site

/-- A job is added again while its confirmation is under way, and its reservation is refused in the
next cycle: it is admitted once, and its key stays in the ledger. -/
theorem admitted_once_redelivered :
    let job := (Candidate.wanting "x" 1).job
    let s := idling (alone (.new (QueueDef.new "default" 0) Priority.jobOrder .standard false)) 0
      announcing
    let run := [.job (.added job), .cycle, .job (.added job), .cycle, .confirm 0]
    (admitted standard s run).map (·.key) = ["n/x"] ∧
      ((admitted standard s run ++ (after standard s run).dispatcher.tasks).map (·.key)).Nodup ∧
      ∀ c ∈ admitted standard s run ++ (after standard s run).dispatcher.tasks,
        (after standard s run).env.ledger.isReserved c.key = true := by
  intro job s run
  have vacant := JobQueue.vacant_new (QueueDef.new "default" 0) Priority.jobOrder .standard false
  obtain ⟨q, vacant, first⟩ := after_added_cycle (s := s) job rfl vacant rfl rfl rfl rfl
  let t := (attempt standard (.fresh job 0) (idling (alone q) 0 announcing)).2
  change after standard s [.job (.added job), .cycle] = t at first
  obtain ⟨q', -, second⟩ := after_added_cycle (s := t) job rfl vacant rfl rfl rfl rfl
  -- the filter lets the job pass again, but its key is taken
  have refused : (attempt standard (.fresh job t.now) { t with queues := alone q' }).2 =
      (retry standard (.fresh job t.now) "queue unit n/x already reserved"
        { t with queues := alone q' }).2 := rfl
  have kept := retried standard (.fresh job t.now) "queue unit n/x already reserved"
    { t with queues := alone q' }
  rw [← refused, ← second] at kept
  have whole : admitted standard s run = (recorded standard (after standard t
      [.job (.added job), .cycle]) (.confirm 0)).toList := by
    simp only [run, admitted, recorded, Option.toList_none, List.nil_append, List.append_nil]
    rw [← first]
    rfl
  refine ⟨?_, admitted_once books_standard rfl rfl fun x hx => ?_⟩
  · rw [whole]
    unfold recorded
    dsimp only
    rw [kept.dispatcher, kept.env]
    rfl
  · simp only [run, List.mem_cons, List.not_mem_nil, or_false] at hx
    rcases hx with rfl | rfl | rfl | rfl | rfl
    · exact id
    · trivial
    · exact id
    · trivial
    · trivial

end Scheduling

end JobAdmission
