/-
What a flush moves. The delayed heap is in the order of the ends of the windows, whatever was done
to the queue, so nothing behind a candidate whose window is still open has ended: the flush may
stop there. Every candidate whose window has ended leaves the delayed heap, and none is lost on the
way where no key is held by both heaps. No other operation lets a delayed candidate become ready.
-/
import JobAdmission.Proofs.Queue.Next
import JobAdmission.Proofs.Queue.Retired

namespace JobAdmission

/-- Whether the window of a candidate has ended at a time. -/
def RetryPolicy.ended (p : RetryPolicy) (now : Nat) (c : Candidate) : Bool := p.deadline c ≤ now

namespace KeyedHeap

variable {α : Type} [Keyed α] {h : KeyedHeap α}

omit [Keyed α] in
theorem toList_of_peek?_none (front : h.peek? = none) : h.toList = [] := by
  have nothing : h.items.size = 0 := by simpa [peek?] using front
  exact List.eq_nil_of_length_eq_zero (by simpa [toList] using nothing)

/-- A heap with an item in front gives it out. -/
theorem pop_ne_error {less : α → α → Bool} (hi : h.Indexed) {a : α} (front : h.peek? = some a)
    (err : AdmissionError) : h.pop less ≠ .error err := by
  obtain ⟨rest, e, -⟩ := pop_spec less hi front
  rw [e]
  nofun

end KeyedHeap

namespace JobQueue

open KeyedHeap

variable {q q' : JobQueue} {c head : Candidate} {delayed : KeyedHeap Candidate} {now : Nat}

/-! ## One candidate -/

/-- The candidate that a flush takes is the one in front, and the rest stays in order. -/
theorem pop_delayed (hi : q.delayed.Indexed) (ho : q.delayed.Ordered q.byDeadline)
    (front : q.delayed.peek? = some head) (popped : q.delayed.pop q.byDeadline = .ok (c, delayed)) :
    c = head ∧ delayed.Indexed ∧ delayed.Ordered q.byDeadline ∧
      q.delayed.toList.Perm (c :: delayed.toList) ∧ delayed.size + 1 = q.delayed.size := by
  obtain ⟨rest, e, -⟩ := pop_spec q.byDeadline hi front
  rw [popped] at e
  cases e
  obtain ⟨di, dp⟩ := KeyedHeap.pop_eq_ok hi popped
  exact ⟨rfl, di, ho.pop q.strictWeak_byDeadline popped, dp, size_pop popped⟩

/-- Where the window of the candidate in front is open, so are all others. -/
theorem not_ended_of_front (ho : q.delayed.Ordered q.byDeadline)
    (front : q.delayed.peek? = some head) (opened : q.timing.retry.deadline head > now) :
    ∀ c ∈ q.delayed.toList, q.timing.retry.ended now c = false := by
  intro c hc
  have later := ho.peek_first q.strictWeak_byDeadline front c hc
  unfold byDeadline at later
  unfold RetryPolicy.ended
  simp only [decide_eq_false_iff_not] at later ⊢
  omega

/-! ## The whole flush -/

/-- With fuel for every delayed candidate, those whose window is open are left, and no others. -/
theorem delayed_flushUpTo (hi : q.Indexed) (ho : q.delayed.Ordered q.byDeadline) {fuel : Nat}
    (enough : q.delayedCount ≤ fuel) :
    (flushUpTo now fuel q).2.delayed.toList.Perm
      (q.delayed.toList.filter fun c => !q.timing.retry.ended now c) := by
  fun_induction JobQueue.flushUpTo now fuel q with
  | case1 q =>
    have nothing : q.delayed.toList = [] :=
      List.eq_nil_of_length_eq_zero (Nat.le_zero.1 enough)
    rw [nothing]
    exact .refl _
  | case2 fuel q front =>
    rw [toList_of_peek?_none front]
    exact .refl _
  | case3 fuel q head front opened =>
    rw [List.filter_eq_self.2 fun c hc => by rw [not_ended_of_front ho front opened c hc]; rfl]
  | case4 fuel q head front _ err refused =>
    exact absurd refused (pop_ne_error hi.delayed front err)
  | case5 fuel q head front ended c delayed popped ready pushed n q' flushed ih =>
    obtain ⟨rfl, di, do', dp, size⟩ := pop_delayed hi.delayed ho front popped
    obtain ⟨-, ri, -⟩ := push_eq_ok hi.ready pushed
    have rest := ih ⟨ri, di⟩ do' (show delayed.size ≤ fuel by unfold delayedCount at enough; omega)
    rw [flushed] at rest
    refine rest.trans (List.Perm.trans ?_ (dp.filter _).symm)
    rw [List.filter_cons_of_neg (by simpa [RetryPolicy.ended] using ended)]
  | case6 fuel q head front ended c delayed popped err refused ih =>
    obtain ⟨rfl, di, do', dp, size⟩ := pop_delayed hi.delayed ho front popped
    have rest := ih ⟨hi.ready, di⟩ do'
      (show delayed.size ≤ fuel by unfold delayedCount at enough; omega)
    refine rest.trans (List.Perm.trans ?_ (dp.filter _).symm)
    rw [List.filter_cons_of_neg (by simpa [RetryPolicy.ended] using ended)]

/-- A flush at `now` came back with `r`: exactly the delayed candidates whose window has ended are
ready, as they were, and their number is reported; nothing else has changed. -/
structure FlushedExactly (q : JobQueue) (now : Nat) (r : Nat × JobQueue) : Prop where
  ready : r.2.ready.toList.Perm
    (q.delayed.toList.filter (q.timing.retry.ended now) ++ q.ready.toList)
  delayed : r.2.delayed.toList.Perm
    (q.delayed.toList.filter fun c => !q.timing.retry.ended now c)
  count : r.1 = (q.delayed.toList.filter (q.timing.retry.ended now)).length
  rest : r.2 = { q with ready := r.2.ready, delayed := r.2.delayed }

/-- A flush that finds nothing ended. -/
theorem flushedExactly_none (none : ∀ c ∈ q.delayed.toList, q.timing.retry.ended now c = false) :
    q.FlushedExactly now (0, q) := by
  have nothing : q.delayed.toList.filter (q.timing.retry.ended now) = [] :=
    List.filter_eq_nil_iff.2 fun c hc => by rw [none c hc]; exact Bool.false_ne_true
  refine ⟨?_, ?_, ?_, rfl⟩
  · rw [nothing]
    exact .refl _
  · rw [List.filter_eq_self.2 fun c hc => by rw [none c hc]; rfl]
  · rw [nothing]
    rfl

/-- Where no key is held by both heaps, no candidate is refused by the ready heap. -/
theorem flushedExactly_flushUpTo (sound : q.Sound) (ho : q.delayed.Ordered q.byDeadline)
    {fuel : Nat} (enough : q.delayedCount ≤ fuel) :
    q.FlushedExactly now (flushUpTo now fuel q) := by
  have left := @delayed_flushUpTo q now sound.toIndexed ho fuel enough
  fun_induction JobQueue.flushUpTo now fuel q with
  | case1 q =>
    have nothing : q.delayed.toList = [] :=
      List.eq_nil_of_length_eq_zero (Nat.le_zero.1 enough)
    exact flushedExactly_none fun c hc => by rw [nothing] at hc; cases hc
  | case2 fuel q front =>
    exact flushedExactly_none fun c hc => by rw [toList_of_peek?_none front] at hc; cases hc
  | case3 fuel q head front opened => exact flushedExactly_none (not_ended_of_front ho front opened)
  | case4 fuel q head front _ err refused =>
    exact absurd refused (pop_ne_error sound.delayed front err)
  | case5 fuel q head front ended c delayed popped ready pushed n q' flushed ih =>
    obtain ⟨rfl, di, do', dp, size⟩ := pop_delayed sound.delayed ho front popped
    obtain ⟨-, ri, rp⟩ := push_eq_ok sound.ready pushed
    have due : q.timing.retry.ended now c = true := by simpa [RetryPolicy.ended] using ended
    have one : ({ q with ready, delayed } : JobQueue).OneHeap := by
      intro key held
      obtain ⟨other, hd⟩ := (sound.delayed.contains_of_taken di dp key).1 held.2
      rcases (sound.ready.contains_of_added ri rp key).1 held.1 with same | hr
      · exact other same
      · exact sound.oneHeap key ⟨hr, hd⟩
    have fuel_le : delayed.size ≤ fuel := by unfold delayedCount at enough; omega
    have rest := ih ⟨⟨ri, di⟩, one⟩ do' fuel_le (delayed_flushUpTo ⟨ri, di⟩ do' fuel_le)
    rw [flushed] at rest
    have moved := dp.filter (q.timing.retry.ended now)
    rw [List.filter_cons_of_pos due] at moved
    refine ⟨?_, left, ?_, rest.rest⟩
    · -- the candidate was put before what was ready, and the others before it
      refine (rest.ready.trans (List.Perm.append_left _ rp)).trans ?_
      refine List.perm_middle.trans ?_
      exact moved.symm.append_right _
    · rw [moved.length_eq, List.length_cons, ← rest.count]
  | case6 fuel q head front ended c delayed popped err refused ih =>
    -- a refused candidate is ready already, and it was delayed
    obtain ⟨-, -, -, dp, -⟩ := pop_delayed sound.delayed ho front popped
    have held : q.delayed.contains c.key = true :=
      sound.delayed.contains_iff.2 ⟨c, dp.mem_iff.2 List.mem_cons_self, rfl⟩
    have also : q.ready.contains c.key = true :=
      (push_refused_iff q.order q.ready c).1 ⟨err, refused⟩
    exact absurd ⟨also, held⟩ (sound.oneHeap c.key)

/-! ## The other operations -/

theorem heaps_start (q : JobQueue) : q.start.ready = q.ready ∧ q.start.delayed = q.delayed := by
  unfold start
  split <;> exact ⟨rfl, rfl⟩

/-- When task time passes a flush is done at most. -/
theorem heaps_elapse (q : JobQueue) (now span : Nat) :
    (q.elapse now span).ready = q.ready ∧ (q.elapse now span).delayed = q.delayed ∨
      (q.elapse now span).ready = (q.flush now).2.ready ∧
        (q.elapse now span).delayed = (q.flush now).2.delayed := by
  unfold elapse
  split
  · exact .inl ⟨rfl, rfl⟩
  · split
    · exact .inl ⟨rfl, rfl⟩
    · split
      · exact .inr ⟨rfl, rfl⟩
      · exact .inl ⟨rfl, rfl⟩

theorem heaps_remove (q : JobQueue) (key : String) :
    (q.remove key).2.ready = q.ready ∨ (q.remove key).2.delayed = q.delayed := by
  unfold remove
  split
  · exact .inr rfl
  · split <;> exact .inl rfl

/-- A call that is not a flush leaves one of the heaps alone, so it moves nothing between them. -/
theorem heaps_run {call : QueueCall} (other : call ≠ .flush) (now : Nat) (q : JobQueue) :
    (call.run now q).ready = q.ready ∨ (call.run now q).delayed = q.delayed := by
  cases call with
  | submit job =>
    refine .inr ?_
    show ((q.submit now job).toOption.getD q).delayed = _
    rcases e : q.submit now job with err | q'
    · rfl
    · obtain ⟨ready, rfl, -⟩ := requeue_eq_push e
      rfl
  | delay c =>
    refine .inl ?_
    show ((q.delay c).toOption.getD q).ready = _
    rcases e : q.delay c with err | q'
    · rfl
    · obtain ⟨-, ⟨-, rfl⟩ | ⟨delayed, rfl, -⟩⟩ := delay_eq_push e <;> rfl
  | update old new =>
    show (q.update old new).2.ready = _ ∨ (q.update old new).2.delayed = _
    rcases update_cases q old new with ⟨_, _, _, -, -, e⟩ | ⟨-, _, _, _, -, -, e⟩ | ⟨-, -, e⟩
    · rw [e]
      exact .inr rfl
    · rw [e]
      exact .inl rfl
    · rw [e]
      exact .inl rfl
  | remove job => exact heaps_remove q job.key
  | removeKey key => exact heaps_remove q key
  | pop =>
    refine .inr ?_
    show ((q.pop.toOption.map (·.2)).getD q).delayed = _
    unfold pop
    rcases q.ready.pop q.order with err | ⟨c, ready⟩ <;> rfl
  | flush => exact absurd rfl other
  | close => exact .inl rfl

/-- Of what is delivered only the ready candidates become ready. -/
theorem subperm_receiveAll (hi : q.Indexed) (held : List Candidate × List Candidate) :
    (q.receiveAll held).2.ready.toList.Subperm (held.1 ++ q.ready.toList) := by
  have ready : ∀ (cs : List Candidate) {q : JobQueue}, q.Indexed →
      (receive requeue q cs).2.ready.toList.Subperm (cs ++ q.ready.toList) := by
    intro cs
    induction cs with
    | nil => exact fun _ => .refl _
    | cons c cs ih =>
      intro q hi
      rw [receive_cons]
      rcases e : q.requeue c with err | q'
      · exact (ih hi).trans (List.sublist_cons_self c _).subperm
      · obtain ⟨ready, rfl, -, -, -, ri, p⟩ := requeue_eq_ok hi e
        have rest := ih (q := { q with ready }) ⟨ri, hi.delayed⟩
        exact rest.trans ((p.append_left cs).trans List.perm_middle).subperm
  have delayed : (q.receiveAll held).2.ready = (receive requeue q held.1).2.ready :=
    receive_induction (P := fun r => r.ready = (receive requeue q held.1).2.ready) rfl
      fun r r' c _ same e => by
        obtain ⟨-, ⟨-, rfl⟩ | ⟨delayed, rfl, -⟩⟩ := delay_eq_push e <;> exact same
  rw [delayed]
  exact ready held.1 hi

end JobQueue

/-- Whatever can be done to a queue. -/
inductive QueueAct where
  | call (now : Nat) (call : QueueCall)
  | start
  | stop
  | elapse (now span : Nat)
  /-- All that it holds is taken out. -/
  | give
  /-- What another queue held is put in, its ready candidates and its delayed ones. -/
  | receive (held : List Candidate × List Candidate)

namespace QueueAct

def run : QueueAct → JobQueue → JobQueue
  | call now made, q => made.run now q
  | start, q => q.start
  | stop, q => q.stop
  | elapse now span, q => q.elapse now span
  | give, q => q.takeAll.2
  | receive held, q => (q.receiveAll held).2

/-- A flush, or time for the background flush. -/
def Flushes : QueueAct → Prop
  | .call _ .flush | .elapse _ _ => True
  | _ => False

/-- The ready candidates that come from another queue. -/
def brings : QueueAct → List Candidate
  | receive held => held.1
  | _ => []

end QueueAct

namespace JobQueue

/-- The queue after a run. -/
def after (q : JobQueue) (acts : List QueueAct) : JobQueue := acts.foldl (fun q act => act.run q) q

variable {q : JobQueue}

/-- What lasts is kept by every run, if it is kept by whatever is delivered. -/
theorem Lasting.after {P : JobQueue → Prop} (lasting : Lasting P)
    (delivered : ∀ (q : JobQueue) held, P q → P (q.receiveAll held).2) (h : P q)
    (acts : List QueueAct) : P (q.after acts) := by
  refine List.foldlRecOn acts _ (motive := P) h fun q hq act _ => ?_
  cases act with
  | call now call =>
    have puts : call.Puts (fun _ => True) now :=
      (RegistryStep.call now 0 call).puts_of_all fun _ => trivial
    exact (lasting.keeping _).run hq puts
  | start => exact lasting.start q hq
  | stop => exact lasting.stop q hq
  | elapse now span => exact lasting.elapse q now span hq
  | give => exact lasting.takeAll q hq
  | receive held => exact delivered q held hq

/-- What becomes ready otherwise than by a flush was not delayed: one of the heaps is left alone,
or what is ready was ready before, here or in the queue that it comes from. -/
theorem ready_of_not_flushes (hi : q.Indexed) {act : QueueAct} (other : ¬ act.Flushes) :
    (act.run q).ready = q.ready ∨ (act.run q).delayed = q.delayed ∨
      (act.run q).ready.toList.Subperm (act.brings ++ q.ready.toList) := by
  cases act with
  | call now call =>
    have not_flush : call ≠ .flush := by
      rintro rfl
      exact other trivial
    exact (heaps_run not_flush now q).imp_right .inl
  | start => exact .inl (heaps_start q).1
  | stop => exact .inl rfl
  | elapse now span => exact absurd trivial other
  | give => exact .inr (.inr (List.nil_subperm))
  | receive held => exact .inr (.inr (subperm_receiveAll hi held))

/-- Whatever was done to a queue: a flush moves exactly the delayed candidates whose window has
ended, as long as the heaps share no key; nothing but a flush lets a delayed candidate become ready;
and as task time passes a flush is done at most. -/
theorem flush_moves_ended (definition : QueueDef) (order : JobOrder) (timing : QueueTiming)
    (stopped : Bool) (acts : List QueueAct) :
    let q := (JobQueue.new definition order timing stopped).after acts
    (q.OneHeap → ∀ now, q.FlushedExactly now (q.flush now)) ∧
    (∀ act : QueueAct, ¬ act.Flushes → (act.run q).ready = q.ready ∨
      (act.run q).delayed = q.delayed ∨
      (act.run q).ready.toList.Subperm (act.brings ++ q.ready.toList)) ∧
    ∀ now span, (q.elapse now span).ready = q.ready ∧ (q.elapse now span).delayed = q.delayed ∨
      (q.elapse now span).ready = (q.flush now).2.ready ∧
        (q.elapse now span).delayed = (q.flush now).2.delayed := by
  intro q
  have indexed : q.Indexed := lasting_indexed.after (fun _ held h => h.receiveAll held)
    (indexed_new definition order timing stopped) acts
  have ordered : q.InOrder := lasting_inOrder.after (fun _ held h => h.receiveAll held)
    (inOrder_new definition order timing stopped) acts
  exact ⟨fun one _ => flushedExactly_flushUpTo ⟨indexed, one⟩ ordered.delayed (Nat.le_refl _),
    fun _ other => ready_of_not_flushes indexed other, heaps_elapse q⟩

/-- Of a ready and a delayed job the delayed one is moved at the end of its window, and not
before. -/
theorem flush_at_end_of_window :
    let q := (JobQueue.new (QueueDef.new "a" 0) Priority.jobOrder .standard false).after
      [.call 0 (.submit (Job.new "n" "x" "TFJob")),
        .call 0 (.delay (.fresh (Job.new "n" "y" "TFJob") 0))]
    ((q.flush (1000 * nanosPerMilli - 1)).1 = 0 ∧ (q.flush (1000 * nanosPerMilli)).1 = 1) ∧
      (q.flush (1000 * nanosPerMilli)).2.ready.toList.Perm
        [.fresh (Job.new "n" "y" "TFJob") 0, .fresh (Job.new "n" "x" "TFJob") 0] := by
  intro q
  have start := sound_new (QueueDef.new "a" 0) Priority.jobOrder .standard false
  have sound : q.Sound := QueueCall.sound_delay
    (QueueCall.sound_submit start 0 (Job.new "n" "x" "TFJob")) 0
    (.fresh (Job.new "n" "y" "TFJob") 0)
  obtain ⟨ready, delayed, e, -, rp, -, dp⟩ := run_submit_delay start rfl (fun key =>
    Bool.or_eq_false_iff.2 ⟨contains_empty key, contains_empty key⟩)
    (x := Job.new "n" "x" "TFJob") (y := Job.new "n" "y" "TFJob") (by decide) 0
  change q = _ at e
  have held : q.delayed.toList = [.fresh (Job.new "n" "y" "TFJob") 0] ∧
      q.ready.toList = [.fresh (Job.new "n" "x" "TFJob") 0] ∧ q.timing = .standard := by
    rw [e]
    exact ⟨List.perm_singleton.1 dp, List.perm_singleton.1 rp, rfl⟩
  have moves : ∀ now, q.FlushedExactly now (q.flush now) :=
    (flush_moves_ended (QueueDef.new "a" 0) Priority.jobOrder .standard false
      [.call 0 (.submit (Job.new "n" "x" "TFJob")),
        .call 0 (.delay (.fresh (Job.new "n" "y" "TFJob") 0))]).1 sound.oneHeap
  have early := (moves (1000 * nanosPerMilli - 1)).count
  have due := (moves (1000 * nanosPerMilli)).count
  have ready := (moves (1000 * nanosPerMilli)).ready
  rw [held.1, held.2.2] at early due ready
  rw [held.2.1] at ready
  exact ⟨⟨early, due⟩, ready⟩

end JobQueue

end JobAdmission
