/-
The scheduling loop in task time. The loop makes cycles until no queue has a ready job, pauses, and
looks again. Confirmations and background flushes get their turn whenever the loop gives way: when
it pauses, when a cycle waits for a slot, and when the loop was granted as many slots as a turn
allows. The clock stands still while the loop runs.
-/
import JobAdmission.Scheduler.Cycle

namespace JobAdmission.Scheduling

variable {E : Type}

/-- How many slots the loop is granted in a turn. -/
def turnLength : Nat := 128

/-- Begin a turn of so many slots. -/
def beginTurn (slots : Nat) : Scheduling E Unit := modify fun s => { s with turn := some slots }

/-- Give way: do what is due of the background flushes, and the confirmations under way. -/
def giveWay (w : Wiring E) : Scheduling E Unit := do
  elapse 0
  let _ ← confirmAll w
  beginTurn turnLength

/-- Make cycles until no queue has a ready job, at most `n` of them. -/
def untilIdle (w : Wiring E) : Nat → Scheduling E Unit
  | 0 => pure ()
  | n + 1 => do
    match ← cycle w with
    | .idle => pure ()
    | .blocked => do
      giveWay w
      untilIdle w n
    | _ => untilIdle w n

/-- One look at the queues. A flush may bring a candidate back once during a look, and an attempt
is made in up to three cycles: it may be suspended at the end of a turn and again for a slot. So six
times the number of candidates bounds the number of cycles. -/
def look (w : Wiring E) : Scheduling E Unit := do
  let s ← get
  untilIdle w (6 * s.queues.heldCount + 1)
  giveWay w

/-- Look at the queues now and after every pause for a span of task time. Coming back from a pause
takes the place of one slot in the turn. -/
def lookFor (w : Wiring E) (span : Nat) : Scheduling E Unit := do
  look w
  if _h : 0 < w.idleEvery ∧ w.idleEvery < span then
    elapse w.idleEvery
    beginTurn (turnLength - 1)
    lookFor w (span - w.idleEvery)
  else elapse span
termination_by span
decreasing_by omega

/-- Run the loop for a span of task time, at most the longest wait, then stop it for good and let
the confirmations finish. A loop that was stopped before does not start again, and one that is
stopped at once makes no cycle. -/
def run (w : Wiring E) (span : Nat) : Scheduling E Unit := do
  let span := min span longestWait
  modify fun s => { s with queues := s.queues.start }
  beginTurn turnLength
  if (← get).stopped || span == 0 then elapse span else lookFor w span
  modify fun s => { s with queues := s.queues.cancel, stopped := true }
  giveWay w
  modify fun s => { s with turn := none }

/-- The inspection form of a scheduler. -/
def shown (w : Wiring E) (s : SchedulerState E) : String :=
  Text.openRecord "Scheduler"
    [("framework", w.pipeline.shown), ("dispatcher", s.dispatcher.shown),
      ("idle_interval", Text.timeSpan w.idleEvery)]

end JobAdmission.Scheduling
