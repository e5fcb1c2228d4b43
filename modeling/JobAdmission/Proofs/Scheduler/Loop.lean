/-
The scheduling loop as a run. Whatever the loop does is a cycle, the oldest confirmation under way,
a turn or task time, and at its ends the background flushes are started and told to stop. So a run
of the loop is a run like any other, what every run keeps is kept at each moment of it, and nobody
in it touches the ledger or the record past the scheduler. The task time of that run is the span
that the loop was given.
-/
import JobAdmission.Proofs.Scheduler.Backoff
import JobAdmission.Scheduler.Loop
import Mathlib.Algebra.Ring.Nat

namespace JobAdmission

variable {E : Type}

/-- What the loop does. -/
def Happening.OfLoop : Happening E → Prop
  | .cycle | .elapse _ | .start | .cancel | .turn _ | .stop => True
  | .confirm place => place = 0
  | _ => False

/-- The task time that passes. -/
def Happening.taskTime : Happening E → Nat
  | .elapse span => span
  | _ => 0

theorem Happening.OfLoop.leavesLedger {x : Happening E} (h : x.OfLoop) (slot : LedgerSlot E) :
    x.LeavesLedger slot := by
  cases x with
  | job | world => cases h
  | _ => trivial

theorem Happening.OfLoop.files {x : Happening E} (h : x.OfLoop) (store : Slot E JobStore) :
    x.Files store := by
  cases x with
  | world => cases h
  | _ => trivial

theorem Happening.OfLoop.not_mentions {x : Happening E} (h : x.OfLoop) (key : String) :
    ¬ x.Mentions key := by
  cases x with
  | job => cases h
  | _ => exact id

namespace Scheduling

/-- An action does to every scheduler what some run of the loop does to it, in so much task time. -/
def Loops {α : Type} (w : Wiring E) (span : Nat) (act : Scheduling E α) : Prop :=
  ∀ s, ∃ run : List (Happening E), (∀ x ∈ run, x.OfLoop) ∧ (run.map (·.taskTime)).sum = span ∧
    (act s).2 = after w s run

section

variable {w : Wiring E} {span more : Nat} {α β : Type}

/-! ## Actions in a row -/

theorem Loops.pure (a : α) : Loops w 0 (pure a : Scheduling E α) := fun _ => ⟨[], nofun, rfl, rfl⟩

theorem Loops.get {next : SchedulerState E → Scheduling E β} (h : ∀ s, Loops w span (next s)) :
    Loops w span (get >>= next) := fun s => h s s

theorem Loops.bind {act : Scheduling E α} {next : α → Scheduling E β} (h : Loops w span act)
    (h' : ∀ a, Loops w more (next a)) : Loops w (span + more) (act >>= next) := by
  intro s
  obtain ⟨run, parts, time, same⟩ := h s
  obtain ⟨rest, parts', time', same'⟩ := h' (act s).1 (act s).2
  refine ⟨run ++ rest, List.forall_mem_append.2 ⟨parts, parts'⟩, ?_, ?_⟩
  · rw [List.map_append, List.sum_append, time, time']
  · rw [bind_run, same', same, after_append]

/-- An action in no task time, and then another. -/
theorem Loops.andThen {act : Scheduling E α} {next : α → Scheduling E β} (h : Loops w 0 act)
    (h' : ∀ a, Loops w span (next a)) : Loops w span (act >>= next) := by
  have both := h.bind h'
  rwa [Nat.zero_add] at both

theorem loops_of_happen {act : Scheduling E α} {x : Happening E} (ofLoop : x.OfLoop)
    (same : ∀ s, (act s).2 = happen w s x) : Loops w x.taskTime act :=
  fun s => ⟨[x], by simpa using ofLoop, by simp, same s⟩

/-! ## What the loop does -/

theorem loops_cycle : Loops w 0 (cycle w) := loops_of_happen (x := .cycle) trivial fun _ => rfl

theorem loops_elapse (span : Nat) : Loops w span (elapse span) :=
  loops_of_happen (x := .elapse span) trivial fun _ => rfl

theorem loops_beginTurn (slots : Nat) : Loops w 0 (beginTurn slots) :=
  loops_of_happen (x := .turn (some slots)) trivial fun _ => rfl

theorem loops_confirmAt : Loops w 0 (confirmAt w 0) :=
  loops_of_happen (x := .confirm 0) rfl fun _ => rfl

theorem loops_confirmUpTo (n : Nat) : Loops w 0 (confirmUpTo w n) := by
  induction n with
  | zero => exact .pure 0
  | succ n ih =>
    refine loops_confirmAt.andThen fun some => ?_
    cases some with
    | false => exact .pure 0
    | true => exact ih.andThen fun _ => .pure _

theorem loops_confirmAll : Loops w 0 (confirmAll w) := .get fun _ => loops_confirmUpTo _

theorem loops_giveWay : Loops w 0 (giveWay w) :=
  (loops_elapse 0).andThen fun _ => loops_confirmAll.andThen fun _ => loops_beginTurn turnLength

theorem loops_untilIdle (n : Nat) : Loops w 0 (untilIdle w n) := by
  induction n with
  | zero => exact .pure ()
  | succ n ih =>
    refine loops_cycle.andThen fun outcome => ?_
    cases outcome with
    | idle => exact .pure ()
    | blocked => exact loops_giveWay.andThen fun _ => ih
    | confirming | retrying => exact ih

theorem loops_look : Loops w 0 (look w) :=
  .get fun _ => (loops_untilIdle _).andThen fun _ => loops_giveWay

/-- The pauses between the looks, and what is left of the span after the last, make up the span. -/
theorem loops_lookFor (span : Nat) : Loops w span (lookFor w span) := by
  induction span using Nat.strong_induction_on with
  | h span ih =>
    rw [lookFor]
    refine loops_look.andThen fun _ => ?_
    split
    · rename_i pause
      have rest := ih (span - w.idleEvery) (by omega)
      have paused := (loops_elapse w.idleEvery).bind fun _ =>
        (loops_beginTurn (turnLength - 1)).andThen fun _ => rest
      rwa [Nat.add_sub_cancel' pause.2.le] at paused
    · exact loops_elapse span

/-- The loop is a run of cycles, confirmations, turns and task time, which is the span. -/
theorem loops_run (w : Wiring E) (span : Nat) : Loops w (min span longestWait) (run w span) := by
  have started : Loops w 0 (modify fun s => { s with queues := s.queues.start }) :=
    loops_of_happen (x := .start) trivial fun _ => rfl
  have stopped : Loops w 0
      (modify fun s => { s with queues := s.queues.cancel, stopped := true }) :=
    fun s => ⟨[.cancel, .stop], by simp [Happening.OfLoop], rfl, rfl⟩
  have outside : Loops w 0 (modify fun s => { s with turn := none }) :=
    loops_of_happen (x := .turn none) trivial fun _ => rfl
  have ended := stopped.andThen fun _ => loops_giveWay.andThen fun _ => outside
  refine started.andThen fun _ => (loops_beginTurn turnLength).andThen fun _ => .get fun s => ?_
  dsimp only
  split
  · exact (loops_elapse _).bind fun _ => ended
  · exact (loops_lookFor _).bind fun _ => ended

theorem loops_settledCycle : Loops w 0 (settledCycle w) :=
  loops_cycle.andThen fun o => loops_confirmAll.andThen fun _ => .pure o

theorem loops_cycles {next : Scheduling E Outcome} (h : Loops w 0 next) (n : Nat) :
    Loops w 0 (cycles next n) := by
  induction n with
  | zero => exact .pure []
  | succ n ih =>
    refine h.andThen fun o => ?_
    split
    · exact ih.andThen fun _ => .pure _
    · exact .pure _

/-! ## The loop among the runs -/

/-- The loop after a run is a longer run. -/
theorem run_after (w : Wiring E) (s : SchedulerState E) (before : List (Happening E))
    (span : Nat) : ∃ loop : List (Happening E), (∀ x ∈ loop, x.OfLoop) ∧
      (loop.map (·.taskTime)).sum = min span longestWait ∧
      (run w span (after w s before)).2 = after w s (before ++ loop) := by
  obtain ⟨loop, parts, time, same⟩ := loops_run w span (after w s before)
  refine ⟨loop, parts, time, ?_⟩
  rw [same, after_append]

variable {slot : LedgerSlot E} {Sound : E → Prop} {s : SchedulerState E}

theorem move_of_ofLoop {x : Happening E} (h : x.OfLoop) : Move w slot Sound s (happen w s x) := by
  cases x with
  | cycle => exact .cycle
  | confirm place => exact .confirm place
  | elapse span => exact .elapse span
  | start => exact .start
  | cancel => exact .cancel
  | turn slots => exact .turn slots
  | stop => exact .stop
  | _ => cases h

theorem moves_of_ofLoop {loop : List (Happening E)} (parts : ∀ x ∈ loop, x.OfLoop) :
    Relation.ReflTransGen (Move w slot Sound) s (after w s loop) := by
  induction loop using List.reverseRecOn with
  | nil => exact .refl
  | append_singleton loop x ih =>
    rw [after_concat]
    have before := ih fun y hy => parts y (List.mem_append_left _ hy)
    exact before.tail (move_of_ofLoop (parts x List.mem_concat_self))

/-- The loop is a sequence of moves. -/
theorem moves_run (w : Wiring E) (span : Nat) (s : SchedulerState E) :
    Relation.ReflTransGen (Move w slot Sound) s (run w span s).2 := by
  obtain ⟨loop, parts, -, same⟩ := loops_run w span s
  rw [same]
  exact moves_of_ofLoop parts

/-! ## What the loop keeps -/

variable {place : Nat} {others : List Candidate} {store : Slot E JobStore} {rules : QueueRules}
  {key : String}

/-- The candidates admitted before the loop, those it admits and those under way after it have keys
of their own, all of them in the ledger. -/
theorem holds_run (books : w.Books slot place) (span : Nat)
    (h : (slot.get s.env).Holds (others ++ s.underway)) :
    ∃ loop : List (Happening E), (run w span s).2 = after w s loop ∧
      (slot.get (run w span s).2.env).Holds
        (others ++ admitted w s loop ++ (run w span s).2.underway) := by
  obtain ⟨loop, parts, -, same⟩ := loops_run w span s
  refine ⟨loop, same, ?_⟩
  rw [same]
  exact holds_after books (fun x hx => (parts x hx).leavesLedger slot) h

theorem orderly_run (files : w.Files store) (span : Nat) (h : s.Orderly store rules) :
    (run w span s).2.Orderly store rules := by
  obtain ⟨loop, parts, -, same⟩ := loops_run w span s
  rw [same]
  exact orderly_after files (fun x hx => (parts x hx).files store) h

/-- The loop learns of no key by itself. -/
theorem unknown_run (files : w.Files store) (span : Nat) (orderly : s.Orderly store rules)
    (unknown : ¬ s.Knows key) : ¬ (run w span s).2.Knows key := by
  obtain ⟨loop, parts, -, same⟩ := loops_run w span s
  rw [same]
  exact unknown_later files orderly unknown (fun x hx => (parts x hx).files store)
    fun x hx => (parts x hx).not_mentions key

end

end Scheduling

end JobAdmission
