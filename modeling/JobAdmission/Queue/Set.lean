/-
The named queues of a scheduler. Every queue ever made keeps its place in `queues`, and its place
is its identity: whoever was handed a queue can go on using it after its name was given to another
one. A queue that loses its name is closed, so nothing can be put into a queue that is not visited.
-/
import JobAdmission.Queue.Basic
import JobAdmission.Plugin.Basic

namespace JobAdmission

/-- What the queues of a set have in common. -/
structure QueueRules where
  /-- The order in which the queues are visited. -/
  queueOrder : QueueOrder
  /-- The orders of jobs, by name. -/
  jobOrders : NameMap JobOrder
  timing : QueueTiming
  /-- The order of queues whose definition names none. -/
  defaultPolicy : String

/-- The place of a queue among all that were made. -/
abbrev QueueId := Nat

/-- The queues of a scheduler. -/
structure QueueSet where
  rules : QueueRules
  /-- Every queue ever made. -/
  queues : Array JobQueue
  /-- The queues that have a name now. -/
  ids : NameMap QueueId
  /-- Whether background flushes run, also those of queues made later. -/
  running : Bool
  /-- Whether background flushes were told to stop, also those of queues made later. -/
  cancelled : Bool

namespace QueueSet

/-- A set without queues. -/
def new (rules : QueueRules) : QueueSet :=
  { rules, queues := #[], ids := .empty, running := false, cancelled := false }

/-- The queue of an identity. -/
def queue? (s : QueueSet) (id : QueueId) : Option JobQueue := s.queues[id]?

/-- The identity of the queue of a name. -/
def idOf? (s : QueueSet) (name : String) : Option QueueId := s.ids.get? name

/-- The queue of a name, with its identity. -/
def lookup? (s : QueueSet) (name : String) : Option (QueueId × JobQueue) :=
  (s.idOf? name).bind fun id => (s.queue? id).map fun q => (id, q)

/-- The names in increasing order. -/
def names (s : QueueSet) : List String := s.ids.names

/-- The number of names. -/
def size (s : QueueSet) : Nat := s.ids.size

/-- Put a queue in the place of another version of it. -/
def put (s : QueueSet) (id : QueueId) (q : JobQueue) : QueueSet :=
  { s with queues := s.queues.setIfInBounds id q }

/-- Change the queue of an identity. -/
def modify (s : QueueSet) (id : QueueId) (f : JobQueue → JobQueue) : QueueSet :=
  match s.queue? id with
  | some q => s.put id (f q)
  | none => s

/-- Close the queue of an identity, if there is one. -/
def closeQueue (s : QueueSet) : Option QueueId → QueueSet
  | some id => s.modify id .close
  | none => s

/-- The order of jobs that a definition asks for. -/
def orderOf? (r : QueueRules) (d : QueueDef) : Option JobOrder :=
  r.jobOrders.get? (if d.policy.isEmpty then r.defaultPolicy else d.policy)

/-- Make a queue without giving it a name. -/
def make (s : QueueSet) (d : QueueDef) : Except AdmissionError (QueueId × QueueSet) :=
  match orderOf? s.rules d with
  | none =>
    let policy := if d.policy.isEmpty then s.rules.defaultPolicy else d.policy
    .error (.config ("queue `" ++ d.name ++ "` uses unknown sort policy `" ++ policy ++ "`"))
  | some order =>
    let q := JobQueue.new d order s.rules.timing s.cancelled
    let q := if s.running then q.start else q
    .ok (s.queues.size, { s with queues := s.queues.push q })

/-- Make a queue and give it its name. A queue that had the name is closed. -/
def add (s : QueueSet) (d : QueueDef) : Except AdmissionError QueueSet := do
  let (id, s) ← s.make d
  let replaced := s.idOf? d.name
  return { s with ids := s.ids.insert d.name id }.closeQueue replaced

/-- Move everything from one queue to another. Says how many candidates were moved. -/
def drain (s : QueueSet) (source target : QueueId) : Nat × QueueSet :=
  match s.queue? source with
  | none => (0, s)
  | some q =>
    let (held, q) := q.takeAll
    let s := s.put source q
    match s.queue? target with
    | none => (0, s)
    | some t =>
      let (n, t) := t.receiveAll held
      (n, s.put target t)

/-- Make a queue in the place of another one, whose jobs move into it with the record of their
attempts. A third queue that had the new name is closed. If the old name is unknown the queue is
just added. -/
def update (s : QueueSet) (old new : QueueDef) : Except AdmissionError QueueSet := do
  let (id, s) ← s.make new
  let previous := s.idOf? old.name
  let rest := s.ids.erase old.name
  let shadowed := rest.get? new.name
  let s := { s with ids := rest.insert new.name id }.closeQueue shadowed
  match previous with
  | none => return s
  | some p => return ((s.closeQueue (some p)).drain p id).2

/-- Take the name off a queue and close it. Says whether there was one. -/
def delete (s : QueueSet) (name : String) : Bool × QueueSet :=
  match s.idOf? name with
  | none => (false, s)
  | some id => (true, { s with ids := s.ids.erase name }.closeQueue (some id))

/-- The named queues in the order of their names. -/
def byName (s : QueueSet) : List (QueueId × JobQueue) :=
  s.ids.values.filterMap fun id => (s.queue? id).map fun q => (id, q)

/-- Whether the first queue may stand before the second: it precedes it, or is not preceded by
it. -/
def mayPrecede (s : QueueSet) (a b : QueueId × JobQueue) : Bool :=
  s.rules.queueOrder a.2.definition b.2.definition ||
    !s.rules.queueOrder b.2.definition a.2.definition

/-- The named queues in the order in which they are visited. Those that the order of queues does
not tell apart stay in the order of their names. -/
def visited (s : QueueSet) : List (QueueId × JobQueue) := s.byName.mergeSort s.mayPrecede

/-- Take the first candidate of the first queue that has one. -/
def popNext (s : QueueSet) : Option (Candidate × QueueSet) :=
  s.visited.findSome? fun (id, q) =>
    match q.pop with
    | .ok (c, q) => some (c, s.put id q)
    | .error _ => none

/-- The queues of all names changed. -/
def mapNamed (s : QueueSet) (f : JobQueue → JobQueue) : QueueSet :=
  s.ids.values.foldl (fun s id => s.modify id f) s

/-- Start the background flush of every queue, and of those made later. -/
def start (s : QueueSet) : QueueSet := { s with running := true }.mapNamed .start

/-- Tell every background flush to stop, also those of queues made later. -/
def cancel (s : QueueSet) : QueueSet :=
  { s with cancelled := true, queues := s.queues.map .stop }

/-- Stop every background flush and close every queue. -/
def close (s : QueueSet) : QueueSet := ({ s with running := false }.cancel).mapNamed .close

/-- Let task time pass for every queue while the clock shows `now`. -/
def elapse (s : QueueSet) (now span : Nat) : QueueSet :=
  { s with queues := s.queues.map fun q => q.elapse now span }

/-- How many candidates the queues with a name hold. -/
def heldCount (s : QueueSet) : Nat :=
  s.byName.foldl (fun n e => n + e.2.readyCount + e.2.delayedCount) 0

/-- The inspection form of a set. -/
def shown (s : QueueSet) : String :=
  Text.openRecord "MultiSchedulingQueue"
    [("queues", Text.listing (s.names.map Text.quoted)),
      ("default_policy", Text.quoted s.rules.defaultPolicy)]

end QueueSet

end JobAdmission
