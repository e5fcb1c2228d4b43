/-
Queues on their own: any number of them beside a clock, driven by any sequence of calls, of moves
of everything one queue holds to another, and of movements of the clock.
-/
import JobAdmission.Proofs.Queue.Each
import JobAdmission.Proofs.Run

namespace JobAdmission

/-- The calls that may change what a queue holds. -/
inductive QueueCall where
  | submit (job : Job)
  | delay (c : Candidate)
  | update (old new : Job)
  | remove (job : Job)
  | removeKey (key : String)
  | pop
  | flush
  | close

/-- The queue after a call at a time of the clock. A call that is refused changes nothing. -/
def QueueCall.run (call : QueueCall) (now : Nat) (q : JobQueue) : JobQueue :=
  match call with
  | submit job => (q.submit now job).toOption.getD q
  | delay c => (q.delay c).toOption.getD q
  | update old new => (q.update old new).2
  | remove job => (q.remove job.key).2
  | removeKey key => (q.remove key).2
  | pop => (q.pop.toOption.map (·.2)).getD q
  | flush => (q.flush now).2
  | close => q.close

/-- Queues and the clock they read. -/
structure QueueBench where
  now : Nat
  set : QueueSet

/-- One step of a bench. -/
inductive BenchStep where
  | call (id : QueueId) (call : QueueCall)
  | drain (source target : QueueId)
  | clock (now : Nat)

namespace QueueBench

/-- Queues that hold nothing, each with its own definition, order and times. -/
def new (rules : QueueRules) (queues : List (QueueDef × JobOrder × QueueTiming)) : QueueBench :=
  { now := 0
    set := { QueueSet.new rules with
      queues := (queues.map fun q => JobQueue.new q.1 q.2.1 q.2.2 false).toArray } }

def step (b : QueueBench) : BenchStep → QueueBench
  | .call id call => { b with set := b.set.modify id (call.run b.now) }
  | .drain source target => { b with set := (b.set.drain source target).2 }
  | .clock now => { b with now }

def run (b : QueueBench) (steps : List BenchStep) : QueueBench := steps.foldl step b

theorem each_new {P : JobQueue → Prop}
    (h : ∀ d order timing, P (JobQueue.new d order timing false)) (rules : QueueRules)
    (queues : List (QueueDef × JobOrder × QueueTiming)) : (new rules queues).set.Each P := by
  intro id q e
  unfold new QueueSet.queue? at e
  dsimp only at e
  rw [List.getElem?_toArray, List.getElem?_map] at e
  obtain ⟨⟨d, order, timing⟩, _, rfl⟩ := Option.map_eq_some_iff.1 e
  exact h d order timing

end QueueBench

end JobAdmission
