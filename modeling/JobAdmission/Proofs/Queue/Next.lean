/-
Which candidate comes next. The heaps of every queue stay in order whatever is done to it, so a
queue gives out a ready candidate that none of its ready ones precedes. The queues are visited in
the order of the set, and in the order of their names where that does not tell them apart, since
they are sorted by name before they are sorted by the order and the sort is stable. So the next
candidate is one of the first queue that has any.
-/
import JobAdmission.Plugin.InTree
import JobAdmission.Proofs.Queue.Redefinition
import Mathlib.Data.List.Pairwise

namespace JobAdmission

/-! ## Sorting what is sorted already by something else -/

/-- A stable sort by `le` of a list in the order `R`: those that tie stay in the order `R`. -/
theorem pairwise_mergeSort_stable {α : Type} {le : α → α → Bool} {R : α → α → Prop}
    (trans : ∀ a b c, le a b = true → le b c = true → le a c = true)
    (total : ∀ a b, (le a b || le b a) = true) {l : List α} (h : l.Pairwise R) :
    (l.mergeSort le).Pairwise fun a b => le a b = true ∧ (le b a = true → R a b) := by
  induction l with
  | nil => simp
  | cons a l ih =>
    obtain ⟨l₁, l₂, whole, rest, before⟩ := List.mergeSort_cons trans total a l
    have sorted := List.pairwise_mergeSort trans total (a :: l)
    obtain ⟨first, later⟩ := List.pairwise_cons.1 h
    have tail := ih later
    have perm := List.mergeSort_perm l le
    rw [rest] at tail perm
    rw [whole] at sorted ⊢
    obtain ⟨front, back, across⟩ := List.pairwise_append.1 tail
    obtain ⟨-, sortedBack, sortedAcross⟩ := List.pairwise_append.1 sorted
    refine List.pairwise_append.2 ⟨front, List.pairwise_cons.2 ⟨fun b hb => ?_, back⟩,
      fun b hb c hc => ?_⟩
    · have member : b ∈ l := perm.mem_iff.1 (List.mem_append_right _ hb)
      exact ⟨(List.pairwise_cons.1 sortedBack).1 b hb, fun _ => first b member⟩
    · rcases List.mem_cons.1 hc with rfl | hc
      · -- what the sort puts before the new element does not tie with it
        refine ⟨sortedAcross b hb c List.mem_cons_self, fun tie => ?_⟩
        have strict := before b hb
        rw [tie] at strict
        cases strict
      · exact across b hb c hc

/-! ## The order by priority -/

namespace Priority

theorem strictWeak_queueOrder : StrictWeak queueOrder where
  irrefl a := by simp [queueOrder]
  trans a b c := by
    simp only [queueOrder, decide_eq_true_eq, Int32.lt_iff_toInt_lt]
    omega
  incomp_trans a b c := by
    simp only [queueOrder, decide_eq_true_eq, Int32.lt_iff_toInt_lt]
    omega

theorem queueOrder_eq_false {a b : QueueDef} : queueOrder a b = false ↔
    a.priority < b.priority ∨ a.priority = b.priority := by
  unfold queueOrder
  rw [decide_eq_false_iff_not, Int32.lt_iff_toInt_lt, Int32.lt_iff_toInt_lt, ← Int32.toInt_inj]
  omega

theorem jobOrder_eq_true {a b : Candidate} : jobOrder a b = true ↔
    b.job.effectivePriority.toInt < a.job.effectivePriority.toInt ∨
      a.job.effectivePriority.toInt = b.job.effectivePriority.toInt ∧
        a.firstSeen < b.firstSeen := by
  unfold jobOrder
  simp [Int32.lt_iff_toInt_lt, Int32.toInt_inj]

theorem strictWeak_jobOrder : StrictWeak jobOrder where
  irrefl a := by
    rw [jobOrder_eq_true]
    omega
  trans a b c := by
    simp only [jobOrder_eq_true]
    omega
  incomp_trans a b c := by
    simp only [jobOrder_eq_true]
    omega

end Priority

/-! ## Queues in order -/

namespace JobQueue

open KeyedHeap

variable {q q' : JobQueue} {c : Candidate}

theorem inOrder_new (d : QueueDef) (order : JobOrder) (timing : QueueTiming) (stopped : Bool) :
    (new d order timing stopped).InOrder :=
  ⟨fun _ => ordered_empty, ordered_empty⟩

theorem ordered_replaceIn {less : JobOrder} {h h' : KeyedHeap Candidate} {key : String} {job : Job}
    {done : Bool} (weak : StrictWeak less) (ho : h.Ordered less)
    (e : replaceIn less h key job = some (done, h')) : h'.Ordered less := by
  unfold replaceIn at e
  obtain ⟨current, -, e⟩ := Option.map_eq_some_iff.1 e
  dsimp only at e
  split at e
  · split at e
    · rename_i updated
      cases e
      exact ho.update weak updated
    · cases e
      exact ho
  · -- the old version goes, if it is found, before the new one comes
    rcases removed : h.remove less key with err | ⟨d, rest⟩ <;> rw [removed] at e <;>
      dsimp only at e
    · split at e
      · rename_i pushed
        cases e
        exact ho.push weak pushed
      · cases e
        exact ho
    · split at e
      · rename_i pushed
        cases e
        exact (ho.remove weak removed).push weak pushed
      · cases e
        exact ho.remove weak removed

theorem InOrder.update (h : q.InOrder) (old new : Job) : (q.update old new).2.InOrder := by
  rcases update_cases q old new with ⟨_, _, ready, -, e, eu⟩ |
    ⟨-, _, _, delayed, -, e, eu⟩ | ⟨-, -, eu⟩
  · rw [eu]
    exact ⟨fun weak => ordered_replaceIn weak (h.ready weak) e, h.delayed⟩
  · rw [eu]
    exact ⟨h.ready, ordered_replaceIn q.strictWeak_byDeadline h.delayed e⟩
  · rw [eu]
    exact h

theorem InOrder.remove (h : q.InOrder) (key : String) : (q.remove key).2.InOrder := by
  unfold JobQueue.remove
  split
  · rename_i removed
    exact ⟨fun weak => (h.ready weak).remove weak removed, h.delayed⟩
  · split
    · rename_i removed
      exact ⟨h.ready, h.delayed.remove q.strictWeak_byDeadline removed⟩
    · exact h

theorem InOrder.pop (h : q.InOrder) (e : q.pop = .ok (c, q')) : q'.InOrder := by
  unfold JobQueue.pop at e
  rcases popped : q.ready.pop q.order with err | ⟨d, ready⟩
  · rw [popped] at e; cases e
  · rw [popped] at e
    cases e
    exact ⟨fun weak => (h.ready weak).pop weak popped, h.delayed⟩

theorem InOrder.flushUpTo (h : q.InOrder) (now fuel : Nat) :
    (flushUpTo now fuel q).2.InOrder := by
  fun_induction JobQueue.flushUpTo now fuel q with
  | case1 => exact h
  | case2 => exact h
  | case3 => exact h
  | case4 => exact h
  | case5 fuel q _ _ _ c delayed popped ready pushed n q' flushed ih =>
    have moved := ih ⟨fun weak => (h.ready weak).push weak pushed,
      h.delayed.pop q.strictWeak_byDeadline popped⟩
    rw [flushed] at moved
    exact moved
  | case6 fuel q _ _ _ c delayed popped _ _ ih =>
    exact ih ⟨h.ready, h.delayed.pop q.strictWeak_byDeadline popped⟩

/-- The heaps of a queue stay in order, whatever is done to it. -/
theorem lasting_inOrder : Lasting InOrder where
  new := inOrder_new
  start q h := by
    unfold start
    split
    · exact h
    · exact ⟨h.ready, h.delayed⟩
  stop _ h := ⟨h.ready, h.delayed⟩
  close _ h := ⟨h.ready, h.delayed⟩
  takeAll _ _ := ⟨fun _ => ordered_empty, ordered_empty⟩
  receiveAll _ _ _ h := h.receiveAll _
  requeue _ _ _ h e := h.requeue e
  delay _ _ _ h e := h.delay e
  update _ old new h := h.update old new
  remove _ key h := h.remove key
  pop _ _ _ h e := h.pop e
  flush _ now h := h.flushUpTo now _
  elapse q now span h := by
    have flushed := h.flushUpTo now q.delayedCount
    unfold JobQueue.elapse
    split
    · exact ⟨h.ready, h.delayed⟩
    · split
      · exact h
      · split
        · exact ⟨flushed.ready, flushed.delayed⟩
        · exact ⟨h.ready, h.delayed⟩

/-- A queue gives nothing out exactly if it has no ready candidate. -/
theorem pop_refused_iff : (∃ err, q.pop = .error err) ↔ q.readyCount = 0 := by
  unfold pop KeyedHeap.pop readyCount size
  by_cases hs : 0 < q.ready.items.size
  · rw [dif_pos hs]
    refine iff_of_false ?_ (Nat.ne_of_gt hs)
    rintro ⟨err, e⟩
    cases e
  · rw [dif_neg hs]
    exact iff_of_true ⟨_, rfl⟩ (Nat.eq_zero_of_not_pos hs)

/-- What a queue gives out no ready candidate precedes. -/
theorem InOrder.pop_first (h : q.InOrder) (hi : q.Indexed) (weak : StrictWeak q.order)
    (e : q.pop = .ok (c, q')) : ∀ d ∈ q.ready.toList, q.order d c = false := by
  unfold JobQueue.pop at e
  rcases front : q.ready.peek? with _ | a
  · rw [pop_of_peek?_none front] at e
    cases e
  · obtain ⟨ready, popped, -, -⟩ := pop_spec q.order hi.ready front
    rw [popped] at e
    cases e
    exact (h.ready weak).peek_first weak front

end JobQueue

/-! ## The order of visits -/

namespace QueueSet

open JobQueue

variable {s t : QueueSet} {c : Candidate}

/-- The first queue comes before the second: by the order of the set, or by name if that does not
put it after. -/
def Before (s : QueueSet) (a b : QueueId × JobQueue) : Prop :=
  s.rules.queueOrder a.2.definition b.2.definition = true ∨
    s.rules.queueOrder b.2.definition a.2.definition = false ∧ a.2.name < b.2.name

theorem Named.pairwise_byName (named : s.Named) :
    s.byName.Pairwise fun a b => a.2.name < b.2.name := by
  unfold byName NameMap.values
  rw [List.filterMap_map]
  refine List.Pairwise.filterMap _ (R := fun a b => a ∈ s.ids.entries ∧ b ∈ s.ids.entries ∧
    a.1 < b.1) ?_ (List.Pairwise.and_mem.1 s.ids.sorted)
  rintro ⟨name, id⟩ ⟨name', id'⟩ ⟨entry, entry', increasing⟩ a ha b hb
  obtain ⟨q, there, rfl⟩ := named name id (NameMap.get?_eq_some_iff.2 entry)
  obtain ⟨q', there', rfl⟩ := named name' id' (NameMap.get?_eq_some_iff.2 entry')
  rw [Function.comp_apply, there] at ha
  rw [Function.comp_apply, there'] at hb
  cases ha
  cases hb
  exact increasing

/-- Queues are visited in the order of the set, and by name where that leaves it open. -/
theorem Named.pairwise_visited (named : s.Named) (weak : StrictWeak s.rules.queueOrder) :
    s.visited.Pairwise s.Before := by
  have le_iff : ∀ a b : QueueId × JobQueue, s.mayPrecede a b = true ↔
      s.rules.queueOrder b.2.definition a.2.definition = false := by
    intro a b
    unfold mayPrecede
    rw [Bool.or_eq_true, Bool.not_eq_true']
    exact ⟨fun h => h.elim weak.asymm id, .inr⟩
  have trans : ∀ a b c, s.mayPrecede a b = true → s.mayPrecede b c = true →
      s.mayPrecede a c = true := by
    intro a b c
    simp only [le_iff]
    exact fun hab hbc => weak.trans_false hbc hab
  have total : ∀ a b, (s.mayPrecede a b || s.mayPrecede b a) = true := by
    intro a b
    rw [Bool.or_eq_true, le_iff, le_iff]
    rcases strict : s.rules.queueOrder b.2.definition a.2.definition with _ | _
    · exact .inl rfl
    · exact .inr (weak.asymm strict)
  have stable := pairwise_mergeSort_stable trans total named.pairwise_byName
  refine stable.imp fun {a b} ⟨le, tie⟩ => ?_
  rcases strict : s.rules.queueOrder a.2.definition b.2.definition with _ | _
  · exact .inr ⟨(le_iff a b).1 le, tie ((le_iff b a).2 strict)⟩
  · exact .inl strict

/-! ## The next candidate -/

/-- Nothing comes next exactly if no visited queue has a ready candidate. -/
theorem popNext_eq_none_iff : s.popNext = none ↔ ∀ e ∈ s.visited, e.2.readyCount = 0 := by
  unfold popNext
  rw [List.findSome?_eq_none_iff]
  refine forall₂_congr fun ⟨id, q⟩ _ => ?_
  rw [← pop_refused_iff]
  dsimp only
  rcases q.pop with err | ⟨c, q'⟩ <;> simp

/-- What comes next is taken from the first of the visited queues with a ready candidate. -/
theorem Named.popNext_first (named : s.Named) (weak : StrictWeak s.rules.queueOrder)
    (e : s.popNext = some (c, t)) : ∃ id q q', (id, q) ∈ s.visited ∧ q.pop = .ok (c, q') ∧
      t = s.put id q' ∧
      ∀ other ∈ s.visited, other.2.readyCount ≠ 0 → other = (id, q) ∨ s.Before (id, q) other := by
  unfold popNext at e
  obtain ⟨passed, ⟨id, q⟩, later, split, taken, nothing⟩ := List.findSome?_eq_some_iff.1 e
  have sorted := named.pairwise_visited weak
  rw [split] at sorted
  dsimp only at taken
  rcases popped : q.pop with err | ⟨d, q'⟩
  · rw [popped] at taken
    cases taken
  · rw [popped] at taken
    cases taken
    refine ⟨id, q, q', by simp [split], popped, rfl, fun ⟨id', r⟩ visited ready => ?_⟩
    rw [split, List.mem_append, List.mem_cons] at visited
    rcases visited with before | same | after
    · -- a queue that was passed over had nothing
      have refused := nothing _ before
      dsimp only at refused
      rcases empty : r.pop with err | ⟨d, r'⟩
      · exact absurd (pop_refused_iff.1 ⟨err, empty⟩) ready
      · rw [empty] at refused
        cases refused
    · exact .inl same
    · exact .inr ((List.pairwise_cons.1 (List.pairwise_append.1 sorted).2.1).1 _ after)

end QueueSet

end JobAdmission
