/-
Draining one queue into another. An open target takes over every key that it does not hold, each
candidate in the same kind of heap and with the record of its attempts, and what it held stays as it
was; a closed one takes nothing. The count that a drain answers is not always the number by which
the target grew: a delayed candidate whose key the target holds is not taken, but it is counted.
-/
import JobAdmission.Proofs.Queue.Heaps

namespace JobAdmission

namespace JobQueue

open KeyedHeap

variable {q t : JobQueue} {c : Candidate}

/-! ## A whole delivery -/

/-- Whether a queue is open and holds the key of a candidate already. -/
def shares (q : JobQueue) (c : Candidate) : Bool := !q.closed && q.holds c.key

theorem not_shares_of_takes (free : q.takes c = true) : ¬ q.shares c = true := by
  unfold shares
  rw [(takes_eq_true_iff.1 free).2, Bool.not_eq_true]
  exact Bool.and_false _

/-- What draining the first queue into the second makes of the two. -/
structure Drained (q t q' t' : JobQueue) : Prop where
  /-- The source holds nothing, and is otherwise as it was. -/
  source : q' = { q with ready := .empty, delayed := .empty }
  /-- The target is as it was, but for what it holds. -/
  target : t.OnlyHeaps t'
  /-- Each heap of the target holds what it held, and what the heap of the same kind held under
  keys that were free. -/
  moved : ∀ kind, (t'.heap kind).toList.Perm
    ((q.heap kind).toList.filter t.takes ++ (t.heap kind).toList)
  keys : ∀ key, t'.holds key = true ↔
    t.holds key = true ∨ t.closed = false ∧ q.holds key = true

/-- The keys after a delivery, read off the candidates. -/
theorem keys_of_moved {t' : JobQueue} (hq : q.Indexed) (ht : t.Indexed) (ht' : t'.Indexed)
    (moved : ∀ kind, (t'.heap kind).toList.Perm
      ((q.heap kind).toList.filter t.takes ++ (t.heap kind).toList)) (key : String) :
    t'.holds key = true ↔ t.holds key = true ∨ t.closed = false ∧ q.holds key = true := by
  constructor
  · intro held
    obtain ⟨kind, c, hc, rfl⟩ := (holds_iff ht').1 held
    rcases List.mem_append.1 ((moved kind).mem_iff.1 hc) with taken | old
    · obtain ⟨there, free⟩ := List.mem_filter.1 taken
      exact .inr ⟨(takes_eq_true_iff.1 free).1, (holds_iff hq).2 ⟨kind, c, there, rfl⟩⟩
    · exact .inl ((holds_iff ht).2 ⟨kind, c, old, rfl⟩)
  · intro held
    by_cases old : t.holds key = true
    · obtain ⟨kind, c, hc, same⟩ := (holds_iff ht).1 old
      exact (holds_iff ht').2
        ⟨kind, c, (moved kind).mem_iff.2 (List.mem_append.2 (.inr hc)), same⟩
    · obtain ⟨opened, there⟩ := held.resolve_left old
      obtain ⟨kind, c, hc, rfl⟩ := (holds_iff hq).1 there
      have free : t.takes c = true := takes_eq_true_iff.2 ⟨opened, Bool.eq_false_iff.2 old⟩
      exact (holds_iff ht').2 ⟨kind, c,
        (moved kind).mem_iff.2 (List.mem_append.2 (.inl (List.mem_filter.2 ⟨hc, free⟩))), rfl⟩

/-- The growth after a delivery, read off the candidates. -/
theorem heldCount_of_moved {t' : JobQueue} (moved : ∀ kind, (t'.heap kind).toList.Perm
    ((q.heap kind).toList.filter t.takes ++ (t.heap kind).toList)) :
    t'.heldCount =
      q.ready.toList.countP t.takes + q.delayed.toList.countP t.takes + t.heldCount := by
  rw [heldCount_eq, heldCount_eq, (moved .ready).length_eq, (moved .delayed).length_eq,
    List.length_append, List.length_append, ← List.countP_eq_length_filter,
    ← List.countP_eq_length_filter]
  exact Nat.add_add_add_comm ..

/-- Of the delayed candidates an open queue counts those that it takes, and those whose keys it
holds. -/
theorem countP_delayed (t : JobQueue) (cs : List Candidate) :
    cs.countP (t.counts .delayed) = cs.countP t.takes + cs.countP t.shares := by
  induction cs with
  | nil => rfl
  | cons c cs ih =>
    rw [List.countP_cons, List.countP_cons, List.countP_cons, ih]
    unfold counts takes shares
    cases t.closed <;> cases t.holds c.key <;> simp <;> omega

theorem Sound.drained (hq : q.Sound) (ht : t.Sound) :
    q.Drained t q.takeAll.2 (t.receiveAll q.takeAll.1).2 ∧
      (t.receiveAll q.takeAll.1).1 + t.heldCount =
        (t.receiveAll q.takeAll.1).2.heldCount + q.delayed.toList.countP t.shares := by
  obtain ⟨ready, e, sound, p⟩ := receive_putInto ht .ready hq.ready.keys_nodup
  obtain ⟨delayed, e', sound', p'⟩ := receive_putInto sound .delayed hq.delayed.keys_nodup
  -- no key of a delayed candidate came in with the ready ones
  have takes : ∀ d ∈ q.delayed.toList, (t.withHeap ready .ready).takes d = t.takes d :=
    fun d hd => takes_withHeap ht.toIndexed sound.toIndexed p fun c hc same =>
      hq.oneHeap d.key ⟨hq.ready.contains_iff.2 ⟨c, (List.mem_filter.1 hc).1, same⟩,
        hq.delayed.contains_iff.2 ⟨d, hd, rfl⟩⟩
  rw [List.filter_congr takes] at p'
  have whole : t.receiveAll q.takeAll.1 =
      (q.ready.toList.countP t.takes + q.delayed.toList.countP (t.counts .delayed),
        { t with ready, delayed }) := by
    change receive JobQueue.requeue t q.ready.toList = _ at e
    change receive JobQueue.delay { t with ready } q.delayed.toList = _ at e'
    unfold JobQueue.receiveAll JobQueue.takeAll
    rw [e]
    dsimp only
    exact congrArg (fun r : Nat × JobQueue => (_ + r.1, r.2)) e'
  rw [whole]
  have moved : ∀ kind, (({ t with ready, delayed } : JobQueue).heap kind).toList.Perm
      ((q.heap kind).toList.filter t.takes ++ (t.heap kind).toList)
    | .ready => p
    | .delayed => p'
  refine ⟨⟨rfl, rfl, moved, keys_of_moved hq.toIndexed ht.toIndexed sound'.toIndexed moved⟩, ?_⟩
  rw [countP_delayed, heldCount_of_moved moved]
  dsimp only
  omega

end JobQueue

/-- Draining a queue into another one, where neither holds a key in both of its heaps: the target
takes over all keys that were free, in the same kind of heap, and no other queue is touched. What is
answered is the growth of the target and, beyond that, the number of the delayed candidates that
were passed over, so it is the growth exactly if there were none. -/
theorem QueueSet.drain_counts_growth_iff (s : QueueSet) {source target : QueueId}
    {q t : JobQueue} (apart : source ≠ target) (hs : s.queue? source = some q)
    (ht : s.queue? target = some t) (hq : q.Reachable) (ht' : t.Reachable) (one : q.OneHeap)
    (one' : t.OneHeap) :
    let r := s.drain source target
    ∃ q' t', r.2.queue? source = some q' ∧ r.2.queue? target = some t' ∧
      (∀ id, id ≠ source → id ≠ target → r.2.queue? id = s.queue? id) ∧
      q.Drained t q' t' ∧
      r.1 + t.heldCount = t'.heldCount + q.delayed.toList.countP t.shares ∧
      (r.1 + t.heldCount = t'.heldCount ↔ ∀ c ∈ q.delayed.toList, ¬ t.shares c = true) := by
  intro r
  obtain ⟨drained, counted⟩ := JobQueue.Sound.drained ⟨hq.indexed, one⟩ ⟨ht'.indexed, one'⟩
  have after := queue?_drain hs ht apart
  have answer : r.1 = (t.receiveAll q.takeAll.1).1 :=
    congrArg Prod.fst (drain_of_queue? hs ht apart)
  refine ⟨q.takeAll.2, (t.receiveAll q.takeAll.1).2, ?_, ?_, fun id hid hid' => ?_, drained, ?_, ?_⟩
  · exact (after source).trans ((if_neg apart).trans (if_pos rfl))
  · exact (after target).trans (if_pos rfl)
  · exact (after id).trans ((if_neg hid').trans (if_neg hid))
  · rw [answer, counted]
  · rw [answer, counted, Nat.add_eq_left, List.countP_eq_zero]

/-- A queue that holds a ready and a delayed job takes over another ready and another delayed job,
and keeps its own version of a ready job that both hold. What is answered is the growth. -/
theorem QueueSet.drain_into_filled :
    let q := (JobQueue.new (QueueDef.new "a" 0) Priority.jobOrder .standard false).after
      [.call 0 (.submit (Job.new "n" "v" "TFJob")), .call 0 (.submit (Job.new "n" "x" "TFJob")),
        .call 0 (.delay (.fresh (Job.new "n" "y" "TFJob") 0))]
    let t := (JobQueue.new (QueueDef.new "b" 0) Priority.jobOrder .standard false).after
      [.call 0 (.submit (Job.new "n" "x" "Job")),
        .call 0 (.delay (.fresh (Job.new "n" "z" "TFJob") 0))]
    let s := { QueueSet.new ⟨Priority.queueOrder, .empty, .standard, Priority.name⟩ with
      queues := #[q, t] }
    (q.OneHeap ∧ t.OneHeap) ∧ ∃ q' t', (s.drain 0 1).2.queue? 0 = some q' ∧
      (s.drain 0 1).2.queue? 1 = some t' ∧ q'.heldCount = 0 ∧
      t'.ready.toList.Perm
        [.fresh (Job.new "n" "v" "TFJob") 0, .fresh (Job.new "n" "x" "Job") 0] ∧
      t'.delayed.toList.Perm
        [.fresh (Job.new "n" "y" "TFJob") 0, .fresh (Job.new "n" "z" "TFJob") 0] ∧
      (s.drain 0 1).1 = 2 ∧ t.heldCount = 2 ∧ t'.heldCount = 4 := by
  intro q t s
  have source := JobQueue.filled (QueueDef.new "a" 0) Priority.jobOrder .standard false
    [(0, Job.new "n" "v" "TFJob"), (0, Job.new "n" "x" "TFJob")] [(0, Job.new "n" "y" "TFJob")]
    (by decide)
  have target := JobQueue.filled (QueueDef.new "b" 0) Priority.jobOrder .standard false
    [(0, Job.new "n" "x" "Job")] [(0, Job.new "n" "z" "TFJob")] (by decide)
  change q.Filled _ _ _ at source
  change t.Filled _ _ _ at target
  obtain ⟨q', t', left, there, -, drained, -, counted⟩ := drain_counts_growth_iff s
    (show (0 : QueueId) ≠ 1 by decide) (show s.queue? 0 = some q from rfl)
    (show s.queue? 1 = some t from rfl) ⟨_, _, _, _, _, rfl⟩ ⟨_, _, _, _, _, rfl⟩
    source.sound.oneHeap target.sound.oneHeap
  have taken (j : Nat × Job) :
      t.takes (.fresh j.2 j.1) = decide (j.2.key ∉ ["n/x", "n/z"]) := by
    rw [Bool.eq_iff_iff, target.takes_iff, decide_eq_true_iff]
    simp [Job.key, Job.keyOf, Job.new, Candidate.fresh, eq_comm]
  have ready : t'.ready.toList.Perm
      [.fresh (Job.new "n" "v" "TFJob") 0, .fresh (Job.new "n" "x" "Job") 0] :=
    (drained.moved .ready).trans
      ((JobQueue.filter_arrivals taken source.ready).append target.ready)
  have delayed : t'.delayed.toList.Perm
      [.fresh (Job.new "n" "y" "TFJob") 0, .fresh (Job.new "n" "z" "TFJob") 0] :=
    (drained.moved .delayed).trans
      ((JobQueue.filter_arrivals taken source.delayed).append target.delayed)
  have grown : (s.drain 0 1).1 + t.heldCount = t'.heldCount := counted.2 fun c hc => by
    cases List.mem_singleton.1 (source.delayed.mem_iff.1 hc)
    exact JobQueue.not_shares_of_takes ((taken (0, Job.new "n" "y" "TFJob")).trans (by decide))
  have before : t.heldCount = 2 := target.heldCount
  have after : t'.heldCount = 4 := JobQueue.heldCount_of_perm ready delayed
  refine ⟨⟨source.sound.oneHeap, target.sound.oneHeap⟩, q', t', left, there, ?_, ready, delayed,
    by omega, before, after⟩
  rw [drained.source]
  rfl

/-- A delayed job of a key that the target holds is counted, though nothing was moved. -/
theorem QueueSet.drain_counts_held_job :
    let q := (JobQueue.new (QueueDef.new "a" 0) Priority.jobOrder .standard false).after
      [.call 0 (.delay (.fresh (Job.new "n" "x" "TFJob") 0))]
    let t := (JobQueue.new (QueueDef.new "b" 0) Priority.jobOrder .standard false).after
      [.call 0 (.submit (Job.new "n" "x" "TFJob"))]
    let s := { QueueSet.new ⟨Priority.queueOrder, .empty, .standard, Priority.name⟩ with
      queues := #[q, t] }
    q.OneHeap ∧ t.OneHeap ∧ (s.drain 0 1).1 = 1 ∧ t.heldCount = 1 ∧
      ((s.drain 0 1).2.queue? 1).map JobQueue.heldCount = some 1 := by
  intro q t s
  have source := JobQueue.filled (QueueDef.new "a" 0) Priority.jobOrder .standard false
    [] [(0, Job.new "n" "x" "TFJob")] (by decide)
  have target := JobQueue.filled (QueueDef.new "b" 0) Priority.jobOrder .standard false
    [(0, Job.new "n" "x" "TFJob")] [] (by decide)
  change q.Filled _ _ _ at source
  change t.Filled _ _ _ at target
  have ready : q.ready.toList = [] := List.perm_nil.1 source.ready
  have delayed : q.delayed.toList = [.fresh (Job.new "n" "x" "TFJob") 0] :=
    List.perm_singleton.1 source.delayed
  have one : t.heldCount = 1 := target.heldCount
  have shared : t.holds (Candidate.fresh (Job.new "n" "x" "TFJob") 0).key = true :=
    (target.keys _).2 ⟨_, List.mem_singleton_self _, rfl⟩
  have untaken : ¬ t.takes (.fresh (Job.new "n" "x" "TFJob") 0) = true := fun taken =>
    Bool.eq_false_iff.1 (JobQueue.takes_eq_true_iff.1 taken).2 shared
  have passed : t.shares (.fresh (Job.new "n" "x" "TFJob") 0) = true := by
    unfold JobQueue.shares
    rw [target.opened, shared]
    rfl
  obtain ⟨drained, counted⟩ := source.sound.drained target.sound
  have grown := JobQueue.heldCount_of_moved drained.moved
  rw [ready, delayed, List.countP_cons_of_neg untaken, List.countP_nil] at grown
  rw [delayed, List.countP_cons_of_pos passed, List.countP_nil] at counted
  have first : s.queue? 0 = some q := rfl
  have second : s.queue? 1 = some t := rfl
  have answer := drain_of_queue? first second (by decide)
  have after := queue?_drain first second (by decide) 1
  rw [if_pos rfl] at after
  refine ⟨source.sound.oneHeap, target.sound.oneHeap, ?_, one, ?_⟩
  · rw [answer]
    dsimp only
    omega
  · rw [after, Option.map_some, grown, one]

end JobAdmission
