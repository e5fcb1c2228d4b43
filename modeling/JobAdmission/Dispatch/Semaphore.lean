/-
A counting semaphore whose callers wait in line. Permits that come back go to the first in line,
who may collect them bit by bit; whoever has all that was asked for leaves the line and holds them
until picking them up. Closing refuses every call that has not picked up its permits yet, and these
come back when the call is told so.
-/

namespace JobAdmission

/-- A call that waits for permits. -/
structure Waiter where
  ticket : Nat
  /-- How many permits were asked for. -/
  need : Nat
  /-- How many of them it has. -/
  got : Nat
deriving DecidableEq, Repr

/-- Permits and the calls that wait for them. -/
structure Semaphore where
  /-- The permits that nobody has. -/
  free : Nat
  closed : Bool
  /-- The calls that lack permits, first come first. -/
  line : List Waiter
  /-- The calls that have all their permits and have not picked them up. -/
  served : List Waiter
  /-- The ticket of the next call that has to wait. -/
  nextTicket : Nat
deriving DecidableEq, Repr

/-- What a call for permits comes to. -/
inductive Acquisition where
  | granted
  | waiting (ticket : Nat)
  | refused
deriving DecidableEq, Repr

namespace Semaphore

/-- A semaphore with some permits. -/
def new (permits : Nat) : Semaphore :=
  { free := permits, closed := false, line := [], served := [], nextTicket := 0 }

/-- Ask for permits. A call that cannot have them all takes those that are free and waits. -/
def acquire (s : Semaphore) (need : Nat) : Acquisition × Semaphore :=
  if s.closed then (.refused, s)
  else if need ≤ s.free then (.granted, { s with free := s.free - need })
  else
    let w : Waiter := { ticket := s.nextTicket, need, got := s.free }
    (.waiting w.ticket,
      { s with free := 0, line := s.line ++ [w], nextTicket := s.nextTicket + 1 })

/-- Hand permits to the calls in line. The results are the permits left over, the calls that have
all of theirs now, and the line that remains. -/
def hand : Nat → List Waiter → Nat × List Waiter × List Waiter
  | n, [] => (n, [], [])
  | n, w :: rest =>
    if w.need - w.got ≤ n then
      let (left, served, line) := hand (n - (w.need - w.got)) rest
      (left, { w with got := w.need } :: served, line)
    else (0, [], { w with got := w.got + n } :: rest)

/-- Give permits back. -/
def release (s : Semaphore) (n : Nat) : Semaphore :=
  if s.closed then { s with free := s.free + n }
  else
    let (left, served, line) := hand n s.line
    { s with free := s.free + left, served := s.served ++ served, line }

/-- Look at a waiting call again. -/
def poll (s : Semaphore) (ticket : Nat) : Acquisition × Semaphore :=
  if s.closed then
    let back := ((s.line ++ s.served).find? (·.ticket == ticket)).elim 0 (·.got)
    (.refused, { s with
      free := s.free + back
      line := s.line.filter (·.ticket != ticket)
      served := s.served.filter (·.ticket != ticket) })
  else if s.served.any (·.ticket == ticket) then
    (.granted, { s with served := s.served.filter (·.ticket != ticket) })
  else (.waiting ticket, s)

/-- Refuse every call from now on. -/
def close (s : Semaphore) : Semaphore := { s with closed := true }

end Semaphore

end JobAdmission
