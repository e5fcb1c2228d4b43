/-
A job waits in one place. Queues on their own are driven by any sequence of calls, moves from one
queue to another and movements of the clock, from queues that hold nothing. No key is ever held by
both heaps of a queue as long as no update gives a held job a key that the other heap holds; and
such an update is the only thing that breaks this, at once and in every state.
-/
import JobAdmission.Proofs.Queue.Bench
import JobAdmission.Proofs.Queue.Items
import JobAdmission.Plugin.InTree

namespace JobAdmission

namespace JobQueue

open KeyedHeap

/-- No key is held by both heaps. -/
def OneHeap (q : JobQueue) : Prop :=
  ∀ key, ¬ (q.ready.contains key = true ∧ q.delayed.contains key = true)

/-- An update would give a job that one heap holds a key that the other heap holds. -/
def Clash (q : JobQueue) (old new : Job) : Prop :=
  q.ready.contains old.key = true ∧ q.delayed.contains new.key = true ∨
    q.delayed.contains old.key = true ∧ q.ready.contains new.key = true

/-- What every call keeps: the heaps find what they hold, and no key is held twice. -/
structure Sound (q : JobQueue) : Prop extends Indexed q where
  oneHeap : q.OneHeap

theorem contains_empty (key : String) :
    (KeyedHeap.empty : KeyedHeap Candidate).contains key = false :=
  Std.HashMap.contains_empty

theorem sound_new (d : QueueDef) (order : JobOrder) (timing : QueueTiming) (stopped : Bool) :
    (new d order timing stopped).Sound := by
  refine ⟨indexed_new d order timing stopped, fun key h => ?_⟩
  have : (KeyedHeap.empty : KeyedHeap Candidate).contains key = true := h.1
  rw [contains_empty] at this
  cases this

/-! ## One operation -/

theorem Sound.requeue {q q' : JobQueue} (h : q.Sound) {c : Candidate} (e : q.requeue c = .ok q') :
    q'.Sound := by
  obtain ⟨ready, rfl, _, free, _, ri, p⟩ := requeue_eq_ok h.toIndexed e
  refine ⟨⟨ri, h.delayed⟩, fun key hk => ?_⟩
  rcases (h.ready.contains_of_added ri p key).1 hk.1 with rfl | hr
  · have : q.delayed.contains c.key = true := hk.2
    rw [free] at this
    cases this
  · exact h.oneHeap key ⟨hr, hk.2⟩

theorem Sound.delay {q q' : JobQueue} (h : q.Sound) {c : Candidate} (e : q.delay c = .ok q') :
    q'.Sound := by
  obtain ⟨_, ⟨_, rfl⟩ | ⟨delayed, rfl, free, di, p⟩⟩ := delay_eq_ok h.toIndexed e
  · exact h
  · refine ⟨⟨h.ready, di⟩, fun key hk => ?_⟩
    rcases (h.delayed.contains_of_added di p key).1 hk.2 with rfl | hd
    · have : q.ready.contains c.key = true := hk.1
      unfold holds at free
      rw [this] at free
      cases free
    · exact h.oneHeap key ⟨hk.1, hd⟩

theorem Indexed.update {q : JobQueue} (h : q.Indexed) (old new : Job) :
    (q.update old new).2.Indexed := by
  rcases update_cases q old new with ⟨c, done, ready, hf, e, eu⟩ |
    ⟨_, c, done, delayed, hf, e, eu⟩ | ⟨_, _, eu⟩
  · rw [eu]; exact ⟨(contains_replaceIn h.ready hf e).1, h.delayed⟩
  · rw [eu]; exact ⟨h.ready, (contains_replaceIn h.delayed hf e).1⟩
  · rw [eu]; exact h

theorem contains_of_find? {h : KeyedHeap Candidate} (hi : h.Indexed) {key : String} {c : Candidate}
    (hf : h.find? key = some c) : h.contains key = true := by
  rw [hi.contains_eq, hf]; rfl

theorem not_contains_of_find? {h : KeyedHeap Candidate} (hi : h.Indexed) {key : String}
    (hf : h.find? key = none) : ¬ h.contains key = true := by
  rw [hi.contains_eq, hf]; simp

/-- Where the keys of one heap change by a replacement, it shares no key with the other heap
exactly if the other does not hold the new key. -/
theorem disjoint_replaced {a a' b : KeyedHeap Candidate} {old new : String}
    (one : ∀ key, ¬ (a.contains key = true ∧ b.contains key = true))
    (keys : ∀ key, a'.contains key = true ↔ key = new ∨ key ≠ old ∧ a.contains key = true) :
    (∀ key, ¬ (a'.contains key = true ∧ b.contains key = true)) ↔ ¬ b.contains new = true := by
  constructor
  · intro one' hb
    exact one' new ⟨(keys _).2 (.inl rfl), hb⟩
  · rintro free key ⟨ha, hb⟩
    rcases (keys key).1 ha with rfl | ⟨_, ha⟩
    · exact free hb
    · exact one key ⟨ha, hb⟩

/-- An update breaks the invariant exactly if it is a clash. -/
theorem oneHeap_update_iff {q : JobQueue} (h : q.Sound) (old new : Job) :
    (q.update old new).2.OneHeap ↔ ¬ q.Clash old new := by
  -- the cases are those of the update: the old key is ready, or delayed, or not held
  rcases update_cases q old new with ⟨c, done, ready, hf, e, eu⟩ |
    ⟨hr, c, done, delayed, hf, e, eu⟩ | ⟨hr, hd, eu⟩
  · have held := contains_of_find? h.ready hf
    have clash : q.Clash old new ↔ q.delayed.contains new.key = true :=
      ⟨fun hc => hc.elim And.right fun hc => absurd ⟨held, hc.1⟩ (h.oneHeap _),
        fun hc => .inl ⟨held, hc⟩⟩
    rw [eu, clash]
    exact disjoint_replaced h.oneHeap (contains_replaceIn h.ready hf e).2
  · have held := contains_of_find? h.delayed hf
    have absent := not_contains_of_find? h.ready hr
    have clash : q.Clash old new ↔ q.ready.contains new.key = true :=
      ⟨fun hc => hc.elim (fun hc => absurd hc.1 absent) And.right, fun hc => .inr ⟨held, hc⟩⟩
    have other := disjoint_replaced (fun key hk => h.oneHeap key hk.symm)
      (contains_replaceIn h.delayed hf e).2
    rw [eu, clash, ← other]
    exact forall_congr' fun key => not_congr and_comm
  · have no_ready := not_contains_of_find? h.ready hr
    have no_delayed := not_contains_of_find? h.delayed hd
    rw [eu]
    refine iff_of_true h.oneHeap ?_
    rintro (hc | hc)
    · exact no_ready hc.1
    · exact no_delayed hc.1

theorem Sound.remove {q : JobQueue} (h : q.Sound) (key : String) : (q.remove key).2.Sound := by
  rcases remove_cases h.toIndexed key with ⟨c, ready, _, ri, p, e⟩ |
    ⟨_, c, delayed, _, di, p, e⟩ | ⟨_, _, e⟩
  · rw [e]
    exact ⟨⟨ri, h.delayed⟩, fun k hk =>
      h.oneHeap k ⟨((h.ready.contains_of_taken ri p k).1 hk.1).2, hk.2⟩⟩
  · rw [e]
    exact ⟨⟨h.ready, di⟩, fun k hk =>
      h.oneHeap k ⟨hk.1, ((h.delayed.contains_of_taken di p k).1 hk.2).2⟩⟩
  · rw [e]; exact h

theorem Sound.pop {q q' : JobQueue} (h : q.Sound) {c : Candidate} (e : q.pop = .ok (c, q')) :
    q'.Sound := by
  obtain ⟨ready, rfl, ri, p⟩ := pop_eq_ok h.toIndexed e
  exact ⟨⟨ri, h.delayed⟩, fun k hk =>
    h.oneHeap k ⟨((h.ready.contains_of_taken ri p k).1 hk.1).2, hk.2⟩⟩

/-- Candidates are flushed one at a time, each taken out of one heap before it is put into the
other. -/
theorem Sound.flushUpTo (now fuel : Nat) {q : JobQueue} (h : q.Sound) :
    (q.flushUpTo now fuel).2.Sound := by
  induction fuel generalizing q with
  | zero => exact h
  | succ fuel ih =>
    unfold JobQueue.flushUpTo
    rcases hp : q.delayed.peek? with _ | head
    · exact h
    · dsimp only
      split
      · exact h
      · obtain ⟨delayed, e, di, p⟩ := pop_spec q.byDeadline h.delayed hp
        rw [e]
        dsimp only
        have taken := h.delayed.contains_of_taken di p
        rcases ep : q.ready.push q.order head with err | ready
        · refine ih (q := { q with delayed }) ⟨⟨h.ready, di⟩, fun key hk => ?_⟩
          exact h.oneHeap key ⟨hk.1, ((taken key).1 hk.2).2⟩
        · obtain ⟨_, ri, rp⟩ := push_eq_ok h.ready ep
          -- the pushed key left the delayed heap, and was not pushed if it was ready
          refine ih (q := { q with ready, delayed }) ⟨⟨ri, di⟩, fun key hk => ?_⟩
          obtain ⟨hne, hd⟩ := (taken key).1 hk.2
          rcases (h.ready.contains_of_added ri rp key).1 hk.1 with hkey | hr
          · exact hne hkey
          · exact h.oneHeap key ⟨hr, hd⟩

theorem Sound.takeAll {q : JobQueue} : q.takeAll.2.Sound := by
  refine ⟨⟨indexed_empty, indexed_empty⟩, fun key hk => ?_⟩
  have : (KeyedHeap.empty : KeyedHeap Candidate).contains key = true := hk.1
  rw [contains_empty] at this
  cases this

theorem Sound.receiveAll {q : JobQueue} (h : q.Sound) (held : List Candidate × List Candidate) :
    (q.receiveAll held).2.Sound := by
  have ready : (receive JobQueue.requeue q held.1).2.Sound :=
    receive_induction h fun _ _ _ _ hq e => Sound.requeue hq e
  exact receive_induction ready fun _ _ _ _ hq (e : JobQueue.delay _ _ = _) => Sound.delay hq e

theorem stable_sound : QueueSet.Stable Sound where
  new := sound_new
  start q h := by
    unfold start
    split
    · exact h
    · exact ⟨⟨h.ready, h.delayed⟩, h.oneHeap⟩
  stop _ h := ⟨⟨h.ready, h.delayed⟩, h.oneHeap⟩
  close _ h := ⟨⟨h.ready, h.delayed⟩, h.oneHeap⟩
  takeAll _ _ := Sound.takeAll
  receiveAll _ _ _ h := h.receiveAll _

end JobQueue

/-! ## Calls -/

namespace QueueCall

/-- A call that is an update onto a key of the other heap. -/
def Clashes (call : QueueCall) (q : JobQueue) : Prop :=
  match call with
  | update old new => q.Clash old new
  | _ => False

theorem sound_submit {q : JobQueue} (h : q.Sound) (now : Nat) (job : Job) :
    ((submit job).run now q).Sound := by
  show ((q.submit now job).toOption.getD q).Sound
  unfold JobQueue.submit
  rcases e : q.requeue (.fresh job now) with err | q'
  · exact h
  · exact h.requeue e

theorem sound_delay {q : JobQueue} (h : q.Sound) (now : Nat) (c : Candidate) :
    ((delay c).run now q).Sound := by
  show ((q.delay c).toOption.getD q).Sound
  rcases e : q.delay c with err | q'
  · exact h
  · exact h.delay e

theorem sound_pop {q : JobQueue} (h : q.Sound) (now : Nat) : (pop.run now q).Sound := by
  show ((q.pop.toOption.map (·.2)).getD q).Sound
  rcases e : q.pop with err | ⟨c, q'⟩
  · exact h
  · exact h.pop e

theorem indexed_run {q : JobQueue} (h : q.Sound) (call : QueueCall) (now : Nat) :
    (call.run now q).Indexed := by
  cases call with
  | submit job => exact (sound_submit h now job).toIndexed
  | delay c => exact (sound_delay h now c).toIndexed
  | update old new => exact h.toIndexed.update old new
  | remove job => exact (h.remove job.key).toIndexed
  | removeKey key => exact (h.remove key).toIndexed
  | pop => exact (sound_pop h now).toIndexed
  | flush => exact (h.flushUpTo now _).toIndexed
  | close => exact ⟨h.ready, h.delayed⟩

/-- The step lemma: of all calls only a clash breaks the invariant. -/
theorem oneHeap_run_iff {q : JobQueue} (h : q.Sound) (call : QueueCall) (now : Nat) :
    (call.run now q).OneHeap ↔ ¬ call.Clashes q := by
  cases call with
  | update old new => exact JobQueue.oneHeap_update_iff h old new
  | submit job => exact iff_of_true (sound_submit h now job).oneHeap id
  | delay c => exact iff_of_true (sound_delay h now c).oneHeap id
  | remove job => exact iff_of_true (h.remove job.key).oneHeap id
  | removeKey key => exact iff_of_true (h.remove key).oneHeap id
  | pop => exact iff_of_true (sound_pop h now).oneHeap id
  | flush => exact iff_of_true (h.flushUpTo now _).oneHeap id
  | close => exact iff_of_true h.oneHeap id

end QueueCall

/-! ## Runs -/

namespace QueueBench

/-- No queue holds a key in both of its heaps. -/
def OneHeap (b : QueueBench) : Prop := b.set.Each JobQueue.OneHeap

/-- A step that is an update onto a key of the other heap of its queue. -/
def Clashes (b : QueueBench) : BenchStep → Prop
  | .call id call => ∃ q, b.set.queue? id = some q ∧ call.Clashes q
  | _ => False

theorem indexed_step {b : QueueBench} (h : b.set.Each JobQueue.Sound) (s : BenchStep) :
    (b.step s).set.Each JobQueue.Indexed := by
  cases s with
  | call id call =>
    intro other q e
    change (b.set.modify id (call.run b.now)).queue? other = some q at e
    rw [QueueSet.queue?_modify] at e
    split at e
    · obtain ⟨q', e', rfl⟩ := Option.map_eq_some_iff.1 e
      exact QueueCall.indexed_run (h other q' e') call b.now
    · exact (h other q e).toIndexed
  | drain source target =>
    exact fun id q e => (h.drain JobQueue.stable_sound source target id q e).toIndexed
  | clock now => exact fun id q e => (h id q e).toIndexed

theorem sound_step {b : QueueBench} (h : b.set.Each JobQueue.Sound) {s : BenchStep}
    (one : (b.step s).OneHeap) : (b.step s).set.Each JobQueue.Sound :=
  fun id q e => ⟨indexed_step h s id q e, one id q e⟩

theorem oneHeap_step_iff {b : QueueBench} (h : b.set.Each JobQueue.Sound) (s : BenchStep) :
    (b.step s).OneHeap ↔ ¬ b.Clashes s := by
  cases s with
  | call id call =>
    constructor
    · rintro one ⟨q, e, clash⟩
      refine (QueueCall.oneHeap_run_iff (h id q e) call b.now).1 (one id _ ?_) clash
      show (b.set.modify id (call.run b.now)).queue? id = _
      rw [QueueSet.queue?_modify, if_pos rfl, e]; rfl
    · intro free other q e
      change (b.set.modify id (call.run b.now)).queue? other = some q at e
      rw [QueueSet.queue?_modify] at e
      split at e
      · rename_i same
        subst same
        obtain ⟨q', e', rfl⟩ := Option.map_eq_some_iff.1 e
        exact (QueueCall.oneHeap_run_iff (h id q' e') call b.now).2 fun clash =>
          free ⟨q', e', clash⟩
      · exact (h other q e).oneHeap
  | drain source target =>
    refine iff_of_true (fun id q e => ?_) id
    exact (h.drain JobQueue.stable_sound source target id q e).oneHeap
  | clock now => exact iff_of_true (fun id q e => (h id q e).oneHeap) id

/-- Queues that start with nothing hold every key in one heap at most, after each step of a run,
exactly if no step of the run is an update onto a key of the other heap. -/
theorem oneHeap_iff_no_clash (rules : QueueRules)
    (queues : List (QueueDef × JobOrder × QueueTiming)) (steps : List BenchStep) :
    (∀ done, done <+: steps → ((new rules queues).run done).OneHeap) ↔
      ∀ done s, done ++ [s] <+: steps → ¬ ((new rules queues).run done).Clashes s := by
  have start : (new rules queues).set.Each JobQueue.Sound :=
    each_new (fun d order timing => JobQueue.sound_new d order timing false) rules queues
  exact good_along_iff (P := fun b : QueueBench => b.set.Each JobQueue.Sound)
    (R := fun b s => ¬ b.Clashes s) start (fun _ h id q e => (h id q e).oneHeap)
    (fun _ _ _ h one => sound_step h one) (fun _ s _ h => oneHeap_step_iff h s)

end QueueBench

/-- Two jobs of different keys put into a queue that holds nothing, the one among the ready and the
other among the delayed. -/
theorem JobQueue.run_submit_delay {q : JobQueue} (h : q.Sound) (ho : q.closed = false)
    (hf : ∀ key, q.holds key = false) {x y : Job} (hne : x.key ≠ y.key) (now : Nat) :
    ∃ ready delayed, (QueueCall.delay (.fresh y now)).run now ((QueueCall.submit x).run now q) =
        { q with ready, delayed } ∧
      ready.Indexed ∧ ready.toList.Perm (.fresh x now :: q.ready.toList) ∧
      delayed.Indexed ∧ delayed.toList.Perm (.fresh y now :: q.delayed.toList) := by
  obtain ⟨ready, e, ri, rp⟩ := requeue_of_free h.toIndexed ho (c := .fresh x now) (hf x.key)
  have keys := h.ready.contains_of_added ri rp
  have first : (QueueCall.submit x).run now q = { q with ready } := by
    show (q.requeue (.fresh x now)).toOption.getD q = _
    rw [e]; rfl
  have free : ({ q with ready } : JobQueue).holds y.key = false := by
    obtain ⟨hr, hd⟩ := Bool.or_eq_false_iff.1 (hf y.key)
    refine Bool.or_eq_false_iff.2 ⟨?_, hd⟩
    rw [Bool.eq_false_iff]
    intro hy
    rcases (keys y.key).1 hy with same | held
    · exact hne same
    · rw [hr] at held; cases held
  obtain ⟨delayed, e', di, dp⟩ := delay_of_free (h.requeue e).toIndexed ho
    (c := .fresh y now) free
  have second : (QueueCall.delay (.fresh y now)).run now { q with ready } =
      { q with ready, delayed } := by
    show (JobQueue.delay _ _).toOption.getD _ = _
    rw [e']; rfl
  exact ⟨ready, delayed, (congrArg _ first).trans second, ri, rp, di, dp⟩

/-- To give the first of these jobs the key of the second is a clash. -/
theorem JobQueue.clash_of_two {q : JobQueue} (h : q.Sound) (ho : q.closed = false)
    (hf : ∀ key, q.holds key = false) {x y : Job} (hne : x.key ≠ y.key) (now : Nat) :
    ((QueueCall.delay (.fresh y now)).run now ((QueueCall.submit x).run now q)).Clash x y := by
  obtain ⟨ready, delayed, e, ri, rp, di, dp⟩ := run_submit_delay h ho hf hne now
  rw [e]
  exact .inl ⟨(h.ready.contains_of_added ri rp _).2 (.inl rfl),
    (h.delayed.contains_of_added di dp _).2 (.inl rfl)⟩

/-- A ready job that takes over the key of a delayed one is held by both heaps under it. -/
theorem QueueBench.renamed_job_in_both_heaps :
    ¬ ((new ⟨Priority.queueOrder, .empty, .standard, Priority.name⟩
        [(QueueDef.new "a" 0, Priority.jobOrder, .standard)]).run
      [.call 0 (.submit (Job.new "n" "x" "TFJob")),
        .call 0 (.delay (.fresh (Job.new "n" "y" "TFJob") 0)),
        .call 0 (.update (Job.new "n" "x" "TFJob") (Job.new "n" "y" "TFJob"))]).OneHeap := by
  intro one
  have start := JobQueue.sound_new (QueueDef.new "a" 0) Priority.jobOrder .standard false
  have sound := QueueCall.sound_delay (QueueCall.sound_submit start 0 (Job.new "n" "x" "TFJob")) 0
    (.fresh (Job.new "n" "y" "TFJob") 0)
  have clash := JobQueue.clash_of_two start rfl (fun key => Bool.or_eq_false_iff.2
    ⟨JobQueue.contains_empty key, JobQueue.contains_empty key⟩)
    (x := Job.new "n" "x" "TFJob") (y := Job.new "n" "y" "TFJob") (by decide) 0
  exact (JobQueue.oneHeap_update_iff sound _ _).1 (one 0 _ rfl) clash

end JobAdmission
