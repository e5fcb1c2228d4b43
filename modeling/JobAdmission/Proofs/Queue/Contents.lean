/-
What queues hold. Queues only pass candidates on: whatever is true of every candidate that is put
in, and of every candidate with a new version of its job, is true of every candidate that is held,
given out or moved.
-/
import JobAdmission.Plugin.InTree
import JobAdmission.Proofs.Heap.Index
import JobAdmission.Proofs.Queue.Each
import JobAdmission.Proofs.Queue.Items

namespace JobAdmission

namespace KeyedHeap

variable {α : Type} [Keyed α]

/-- Every item of the heap has the property, whether or not the heap finds it. -/
def All (P : α → Prop) (h : KeyedHeap α) : Prop := ∀ a ∈ h.toList, P a

variable {P : α → Prop} {less : α → α → Bool} {h h' : KeyedHeap α} {a : α} {key : String}

omit [Keyed α] in
theorem all_empty : (empty : KeyedHeap α).All P := fun a ha => by cases ha

theorem All.reordered (all : h.All P) (r : Reordered h h') : h'.All P :=
  fun a ha => all a (r.perm.mem_iff.1 ha)

theorem All.push (all : h.All P) (ha : P a) (e : h.push less a = .ok h') : h'.All P := by
  unfold KeyedHeap.push at e
  split at e
  · cases e
  · cases e
    refine All.reordered (fun b hb => ?_) (siftUp_reordered less _ _)
    change b ∈ (h.items.push a).toList at hb
    rw [Array.toList_push, List.mem_append, List.mem_singleton] at hb
    rcases hb with hb | rfl
    · exact all b hb
    · exact ha

theorem All.update (all : h.All P) (ha : P a) (e : h.update less a = .ok h') : h'.All P := by
  unfold KeyedHeap.update at e
  split at e
  · cases e
  · split at e
    · rename_i slot _ hs
      cases e
      refine All.reordered (fun b hb => ?_) (restore_reordered less _ slot)
      change b ∈ (h.items.set slot a).toList at hb
      rw [Array.toList_set] at hb
      rcases List.mem_or_eq_of_mem_set hb with hb | rfl
      · exact all b hb
      · exact ha
    · cases e

theorem All.removeAt (all : h.All P) (less : α → α → Bool) {slot : Nat} (hs : slot < h.items.size) :
    P (h.removeAt less slot hs).1 ∧ (h.removeAt less slot hs).2.All P := by
  have perm := perm_swap_pop h.items hs
  -- what remains are the other items, whatever the index makes of them
  have rest : ∀ index, (⟨(h.items.swap slot (h.items.size - 1)).pop, index⟩ : KeyedHeap α).All P :=
    fun index b hb => all b (perm.mem_iff.2 (List.mem_cons_of_mem _ hb))
  have taken : P h.items[slot] := all _ (perm.mem_iff.2 List.mem_cons_self)
  unfold KeyedHeap.removeAt
  dsimp only
  split
  · exact ⟨taken, (rest _).reordered (restore_reordered less _ slot)⟩
  · exact ⟨taken, rest _⟩

theorem All.remove (all : h.All P) (e : h.remove less key = .ok (a, h')) : h'.All P := by
  unfold KeyedHeap.remove at e
  split at e
  · cases e
  · split at e
    · rename_i hs
      have removed := all.removeAt less hs
      rw [Except.ok.inj e] at removed
      exact removed.2
    · cases e

theorem All.pop (all : h.All P) (e : h.pop less = .ok (a, h')) : P a ∧ h'.All P := by
  unfold KeyedHeap.pop at e
  split at e
  · rename_i hs
    have removed := all.removeAt less hs
    rw [Except.ok.inj e] at removed
    exact removed
  · cases e

end KeyedHeap

namespace JobQueue

/-- Every candidate that the queue holds has the property. -/
structure Holding (C : Candidate → Prop) (q : JobQueue) : Prop where
  ready : q.ready.All C
  delayed : q.delayed.All C

/-- Every job that the queue holds has the property. -/
structure Only (P : Job → Prop) (q : JobQueue) : Prop where
  ready : q.ready.All fun c => P c.job
  delayed : q.delayed.All fun c => P c.job

section

variable {C : Candidate → Prop} {q q' : JobQueue} {c : Candidate}

theorem holding_new (d : QueueDef) (order : JobOrder) (timing : QueueTiming) (stopped : Bool) :
    (new d order timing stopped).Holding C :=
  ⟨KeyedHeap.all_empty, KeyedHeap.all_empty⟩

theorem Holding.requeue (h : q.Holding C) (hc : C c) (e : q.requeue c = .ok q') :
    q'.Holding C := by
  obtain ⟨ready, rfl, -, -, pushed⟩ := requeue_eq_push e
  exact ⟨h.ready.push hc pushed, h.delayed⟩

theorem Holding.delay (h : q.Holding C) (hc : C c) (e : q.delay c = .ok q') : q'.Holding C := by
  obtain ⟨-, ⟨-, rfl⟩ | ⟨delayed, rfl, -, pushed⟩⟩ := delay_eq_push e
  · exact h
  · exact ⟨h.ready, h.delayed.push hc pushed⟩

theorem all_replaceIn {less : JobOrder} {heap heap' : KeyedHeap Candidate} {key : String}
    {job : Job} {done : Bool} (h : heap.All C) (hj : ∀ c : Candidate, C (c.replace job))
    (e : replaceIn less heap key job = some (done, heap')) : heap'.All C := by
  unfold replaceIn at e
  obtain ⟨current, _, e⟩ := Option.map_eq_some_iff.1 e
  dsimp only at e
  split at e
  · split at e
    · rename_i eu
      cases e
      exact h.update (hj current) eu
    · cases e; exact h
  · -- the old version goes, if it can be found, before the new one comes
    rcases removed : heap.remove less key with err | ⟨gone, rest⟩
    · rw [removed] at e
      dsimp only at e
      split at e
      · rename_i ep
        cases e
        exact h.push (hj current) ep
      · cases e
        exact h
    · rw [removed] at e
      dsimp only at e
      split at e
      · rename_i ep
        cases e
        exact (h.remove removed).push (hj current) ep
      · cases e
        exact h.remove removed

theorem Holding.update (h : q.Holding C) (old : Job) {job : Job}
    (hj : ∀ c : Candidate, C (c.replace job)) : (q.update old job).2.Holding C := by
  unfold JobQueue.update
  split
  · rename_i e
    exact ⟨all_replaceIn h.ready hj e, h.delayed⟩
  · split
    · rename_i e
      exact ⟨h.ready, all_replaceIn h.delayed hj e⟩
    · exact h

theorem Holding.remove (h : q.Holding C) (key : String) : (q.remove key).2.Holding C := by
  unfold JobQueue.remove
  split
  · rename_i e
    exact ⟨h.ready.remove e, h.delayed⟩
  · split
    · rename_i e
      exact ⟨h.ready, h.delayed.remove e⟩
    · exact h

theorem Holding.pop (h : q.Holding C) (e : q.pop = .ok (c, q')) : q'.Holding C ∧ C c := by
  unfold JobQueue.pop at e
  rcases ep : q.ready.pop q.order with err | ⟨d, ready⟩
  · rw [ep] at e; cases e
  · rw [ep] at e
    cases e
    obtain ⟨hc, hr⟩ := h.ready.pop ep
    exact ⟨⟨hr, h.delayed⟩, hc⟩

/-! ## Flushing and moving -/

theorem Holding.flushUpTo (h : q.Holding C) (now fuel : Nat) :
    (flushUpTo now fuel q).2.Holding C := by
  fun_induction JobQueue.flushUpTo now fuel q with
  | case1 => exact h
  | case2 => exact h
  | case3 => exact h
  | case4 => exact h
  | case5 fuel q head _ _ c delayed popped ready pushed n q' flushed ih =>
    obtain ⟨hc, hd⟩ := h.delayed.pop popped
    have := ih ⟨h.ready.push hc pushed, hd⟩
    rw [flushed] at this
    exact this
  | case6 fuel q head _ _ c delayed popped _ _ ih => exact ih ⟨h.ready, (h.delayed.pop popped).2⟩

theorem Holding.elapse (h : q.Holding C) (now span : Nat) : (q.elapse now span).Holding C := by
  have flushed := h.flushUpTo now q.delayedCount
  unfold JobQueue.elapse
  split
  · exact ⟨h.ready, h.delayed⟩
  · split
    · exact h
    · split
      · exact ⟨flushed.ready, flushed.delayed⟩
      · exact ⟨h.ready, h.delayed⟩

theorem stable_holding : QueueSet.Stable (Holding C) where
  new := holding_new
  start q h := by
    unfold start
    split
    · exact h
    · exact ⟨h.ready, h.delayed⟩
  stop _ h := ⟨h.ready, h.delayed⟩
  close _ h := ⟨h.ready, h.delayed⟩
  takeAll _ _ := ⟨KeyedHeap.all_empty, KeyedHeap.all_empty⟩
  receiveAll q t hq ht := by
    have ready : (receive JobQueue.requeue t q.ready.toList).2.Holding C :=
      receive_induction ht fun _ _ c hc h e => h.requeue (hq.ready c hc) e
    exact receive_induction ready fun _ _ c hc h (e : JobQueue.delay _ _ = _) =>
      h.delay (hq.delayed c hc) e

end

/-! ## Properties of the jobs -/

section

variable {P : Job → Prop} {q q' : JobQueue} {c : Candidate}

theorem only_iff_holding : q.Only P ↔ q.Holding fun c => P c.job :=
  ⟨fun h => ⟨h.ready, h.delayed⟩, fun h => ⟨h.ready, h.delayed⟩⟩

theorem Only.requeue (h : q.Only P) (hc : P c.job) (e : q.requeue c = .ok q') : q'.Only P :=
  only_iff_holding.2 ((only_iff_holding.1 h).requeue hc e)

theorem Only.delay (h : q.Only P) (hc : P c.job) (e : q.delay c = .ok q') : q'.Only P :=
  only_iff_holding.2 ((only_iff_holding.1 h).delay hc e)

theorem Only.update (h : q.Only P) (old : Job) {job : Job} (hj : P job) :
    (q.update old job).2.Only P :=
  only_iff_holding.2 ((only_iff_holding.1 h).update old fun _ => hj)

theorem Only.remove (h : q.Only P) (key : String) : (q.remove key).2.Only P :=
  only_iff_holding.2 ((only_iff_holding.1 h).remove key)

theorem Only.pop (h : q.Only P) (e : q.pop = .ok (c, q')) : q'.Only P ∧ P c.job :=
  ((only_iff_holding.1 h).pop e).imp only_iff_holding.2 id

theorem Only.flush (h : q.Only P) (now : Nat) : (q.flush now).2.Only P :=
  only_iff_holding.2 ((only_iff_holding.1 h).flushUpTo now _)

theorem Only.elapse (h : q.Only P) (now span : Nat) : (q.elapse now span).Only P :=
  only_iff_holding.2 ((only_iff_holding.1 h).elapse now span)

theorem stable_only : QueueSet.Stable (Only P) := by
  rw [show Only P = Holding fun c => P c.job from funext fun _ => propext only_iff_holding]
  exact stable_holding

end

end JobQueue

/-! ## One candidate -/

namespace QueueSet

/-- Queues in which one candidate is ready. -/
def holding (c : Candidate) : QueueSet :=
  { QueueSet.new ⟨Priority.queueOrder, .empty, .standard, Priority.name⟩ with
    queues := #[{ JobQueue.new (QueueDef.new "a" 0) Priority.jobOrder .standard false with
      ready := ⟨#[c], (∅ : Std.HashMap String Nat).insert c.key 0⟩ }]
    ids := NameMap.empty.insert "a" 0 }

theorem popNext_holding (c : Candidate) :
    ∃ queues, (holding c).popNext = some (c, queues) := by
  unfold popNext
  rw [show (holding c).visited = (holding c).byName from List.mergeSort_singleton _]
  exact ⟨_, rfl⟩

theorem each_holding {P : Job → Prop} {c : Candidate} (hc : P c.job) :
    (holding c).Each (JobQueue.Only P) := by
  intro id q e
  rcases id with _ | id
  · cases e
    refine ⟨fun a ha => ?_, KeyedHeap.all_empty⟩
    rw [List.mem_singleton.1 ha]
    exact hc
  · cases e

end QueueSet

end JobAdmission
