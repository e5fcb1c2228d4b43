/-
The scheduling cycle. A cycle takes the first candidate of the first queue that has one, asks the
filters and then the reservations, and dispatches the confirmation of a candidate that passes both.
A confirmation puts the admission on record. Every failure leads to `retry`, which delays the
candidate unless its job is gone or was admitted elsewhere.
-/
import JobAdmission.Scheduler.Basic

namespace JobAdmission.Scheduling

variable {E : Type}

/-- The note put on an admitted job. -/
def admissionNote : String := "Dequeued because schedule successfully"

/-! ## Retrying -/

/-- Count a failed attempt of a candidate and delay it in its queue. Without a queue it is given
up. -/
def delayAgain (c : Candidate) (reason : String) : Scheduling E Unit := do
  let s ← get
  let c := c.failedAt s.now
  match s.queues.lookup? c.job.queueName with
  | none => decide c .discard (some reason)
  | some (id, q) =>
    match q.delay c with
    | .ok q =>
      set { s with queues := s.queues.put id q }
      decide c .backoff (some ("attempt " ++ toString c.attempts ++ ": " ++ reason))
    | .error _ => pure ()

/-- Handle a candidate that could not be admitted: look its job up on record, give it up if the job
is gone or admitted, and delay it otherwise. If the look-up fails the known version is kept. -/
def retry (w : Wiring E) (c : Candidate) (reason : String) : Scheduling E Unit := do
  match ← consult (w.client.get c.job.ns c.job.name) with
  | .ok latest =>
    if latest.phase = .dequeued then decide c .discard (some reason)
    else delayAgain (c.replace latest) reason
  | .error e =>
    if e.isNotFound then decide c .discard (some reason) else delayAgain c reason

/-! ## Confirming -/

/-- Put the admission of a job on record, on top of what is on record now. -/
def recordAdmission (client : JobClient E) (j : Job) : StateM E (Except AdmissionError Job) := do
  match ← client.get j.ns j.name with
  | .error e => return .error e
  | .ok latest =>
    let admitted := { latest with phase := .dequeued, note := some admissionNote }
    match ← client.update admitted with
    | .error e => return .error e
    | .ok () => return .ok admitted

/-- Tell the handler of an admitted job. -/
def notifyRelease (w : Wiring E) (c : Candidate) (admitted : Job) : Scheduling E Unit := do
  match w.routes with
  | none => pure ()
  | some routes =>
    match ← consult (routes.notifyDequeued admitted) with
    | .ok true => decide c .release none
    | _ => pure ()

/-- Confirm the admission of a candidate. If that fails its reservation is given back, and unless
its job is gone it is retried. -/
def confirm (w : Wiring E) (c : Candidate) : Scheduling E Unit := do
  match ← consult (recordAdmission w.client c.job) with
  | .ok admitted =>
    decide c .dequeue none
    notifyRelease w c admitted
  | .error e =>
    consult (w.pipeline.unreserve c)
    if e.isNotFound then decide c .discard (some e.message) else retry w c e.message

/-- Do one of the confirmations under way. Says whether there is one at that place. -/
def confirmAt (w : Wiring E) (place : Nat) : Scheduling E Bool := do
  match (← get).dispatcher.take? place with
  | none => return false
  | some (c, dispatcher) =>
    modify fun s => { s with dispatcher }
    confirm w c
    modify fun s => { s with dispatcher := s.dispatcher.giveBack }
    return true

/-- Do a number of confirmations, oldest first, as far as there are any. Says how many. -/
def confirmUpTo (w : Wiring E) : Nat → Scheduling E Nat
  | 0 => pure 0
  | n + 1 => do
    if ← confirmAt w 0 then return (← confirmUpTo w n) + 1 else return 0

/-- Do all confirmations under way. Says how many there were. -/
def confirmAll (w : Wiring E) : Scheduling E Nat := do
  confirmUpTo w (← get).dispatcher.tasks.length

/-! ## The cycle -/

/-- Note that a call for a slot was granted. -/
def spendTurn : Scheduling E Unit := modify fun s => { s with turn := s.turn.map (· - 1) }

/-- Stop a cycle before its candidate got a slot. -/
def suspend (c : Candidate) (ticket : Option Nat) : Scheduling E Outcome := do
  modify fun s => { s with suspended := some ⟨c, ticket⟩ }
  return .blocked

/-- Go on after the call for a slot. A candidate that is refused one gives its reservation back. -/
def afterDispatch (w : Wiring E) (c : Candidate) : Acquisition → Scheduling E Outcome
  | .granted => do
    spendTurn
    return .confirming
  | .waiting ticket => suspend c (some ticket)
  | .refused => do
    consult (w.pipeline.unreserve c)
    retry w c Dispatcher.closedError.message
    return .retrying

/-- Call for a slot for the confirmation of a candidate, or wait with the call if the turn of the
loop is over. -/
def dispatch (w : Wiring E) (c : Candidate) : Scheduling E Outcome := do
  let s ← get
  if s.turn = some 0 then suspend c none
  else
    let (a, dispatcher) := s.dispatcher.dispatch c
    set { s with dispatcher }
    afterDispatch w c a

/-- Ask the plugins about a candidate and dispatch its confirmation. -/
def attempt (w : Wiring E) (c : Candidate) : Scheduling E Outcome := do
  let filtered ← consult (w.pipeline.filter c)
  if filtered.isSuccess then
    let reserved ← consult (w.pipeline.reserve c)
    if reserved.isSuccess then dispatch w c
    else
      retry w c reserved.message
      return .retrying
  else
    retry w c filtered.message
    return .retrying

/-- Take the next candidate, if there is one, and attempt its admission. -/
def start (w : Wiring E) : Scheduling E Outcome := do
  let s ← get
  match s.queues.popNext with
  | none => return .idle
  | some (c, queues) =>
    set { s with queues }
    attempt w c

/-- Go on with a suspended cycle. -/
def resume (w : Wiring E) : Suspension → Scheduling E Outcome
  | ⟨c, none⟩ => dispatch w c
  | ⟨c, some ticket⟩ => do
    let s ← get
    let (a, dispatcher) := s.dispatcher.poll ticket c
    set { s with dispatcher }
    afterDispatch w c a

/-- One cycle. A suspended cycle is resumed before another is started. -/
def cycle (w : Wiring E) : Scheduling E Outcome := do
  let s ← get
  match s.suspended with
  | none => start w
  | some suspension =>
    set { s with suspended := none }
    resume w suspension

/-- One cycle, after which the confirmations under way are done. -/
def settledCycle (w : Wiring E) : Scheduling E Outcome := do
  let o ← cycle w
  let _ ← confirmAll w
  return o

/-- Whether more cycles may follow an outcome at once. -/
def goesOn : Outcome → Bool
  | .idle | .blocked => false
  | _ => true

/-- The outcomes of up to `n` cycles, the last of them the first that is idle or blocked. -/
def cycles (next : Scheduling E Outcome) : Nat → Scheduling E (List Outcome)
  | 0 => pure []
  | n + 1 => do
    let o ← next
    if goesOn o then return o :: (← cycles next n) else return [o]

end JobAdmission.Scheduling
