/-
How long a job waits after a failed attempt: a first window that doubles with every further
failure, up to a limit. Spans of time are nanoseconds, and no span exceeds `maxSpan`.
-/
import JobAdmission.Job.Basic

namespace JobAdmission

/-- Nanoseconds in a millisecond. -/
def nanosPerMilli : Nat := 1000000

/-- The longest span of time: `2 ^ 64` seconds less a nanosecond. -/
def maxSpan : Nat := .pow 2 64 * .pow 10 9 - 1

/-- The longest wait in task time: thirty years of 365 days. A longer one ends after it. -/
def longestWait : Nat := 30 * 365 * 24 * 60 * 60 * 1000 * nanosPerMilli

/-- Windows between attempts. -/
structure RetryPolicy where
  /-- The window after the first failure. -/
  initial : Nat
  limit : Nat
deriving DecidableEq, Repr

namespace RetryPolicy

/-- One second, doubling up to four. -/
def standard : RetryPolicy := ⟨1000 * nanosPerMilli, 4000 * nanosPerMilli⟩

/-- A window doubled a number of times. It stays at the limit once there, and a window that
doubling leaves as it is needs no more of it. -/
def doubled (limit : Nat) : Nat → Nat → Nat
  | 0, window => min window limit
  | n + 1, window =>
    let next := min (2 * window) maxSpan
    if next ≥ limit then limit
    else if next = window then min window limit
    else doubled limit n next

/-- The window after a number of failed attempts; none counts as one. -/
def window (p : RetryPolicy) (attempts : Nat) : Nat :=
  doubled p.limit (attempts - 1) p.initial

/-- When the window of a candidate ends. -/
def deadline (p : RetryPolicy) (c : Candidate) : Nat := c.since + p.window c.attempts

end RetryPolicy

/-- The times that all queues of a set share. -/
structure QueueTiming where
  retry : RetryPolicy
  /-- The time between two background flushes. -/
  flushEvery : Nat
deriving DecidableEq, Repr

/-- The wait from one background flush to the next. -/
def QueueTiming.flushWait (t : QueueTiming) : Nat := min t.flushEvery longestWait

/-- Standard windows, flushed every second. -/
def QueueTiming.standard : QueueTiming := ⟨.standard, 1000 * nanosPerMilli⟩

end JobAdmission
