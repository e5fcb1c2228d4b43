/-
Properties that every operation of a queue keeps, whatever is put in or as long as what is put in
has a property of its own. That the heaps of a queue find what they hold is one of the first kind,
and that all that a queue holds has a property one of the second.
-/
import JobAdmission.Proofs.Queue.Contents
import JobAdmission.Proofs.Queue.OneHeap

namespace JobAdmission

namespace JobQueue

/-- A property that every operation of a queue keeps, whatever is put in. -/
structure Lasting (P : JobQueue → Prop) : Prop extends QueueSet.Stable P where
  requeue : ∀ q q' c, P q → q.requeue c = .ok q' → P q'
  delay : ∀ q q' c, P q → q.delay c = .ok q' → P q'
  update : ∀ q old new, P q → P (q.update old new).2
  remove : ∀ q key, P q → P (q.remove key).2
  pop : ∀ q q' c, P q → q.pop = .ok (c, q') → P q'
  flush : ∀ q now, P q → P (q.flush now).2
  elapse : ∀ q now span, P q → P (q.elapse now span)

/-- A property that every operation of a queue keeps if what is put in has the property `C`. -/
structure Keeping (C : Candidate → Prop) (P : JobQueue → Prop) : Prop
    extends QueueSet.Stable P where
  requeue : ∀ q q' c, C c → P q → q.requeue c = .ok q' → P q'
  delay : ∀ q q' c, C c → P q → q.delay c = .ok q' → P q'
  update : ∀ q old new, P q → P (q.update old new).2
  remove : ∀ q key, P q → P (q.remove key).2
  pop : ∀ q q' c, P q → q.pop = .ok (c, q') → P q'
  flush : ∀ q now, P q → P (q.flush now).2
  elapse : ∀ q now span, P q → P (q.elapse now span)

theorem Lasting.keeping {P : JobQueue → Prop} (lasting : Lasting P) (C : Candidate → Prop) :
    Keeping C P :=
  { lasting with
    requeue := fun q q' c _ => lasting.requeue q q' c
    delay := fun q q' c _ => lasting.delay q q' c }

/-- A queue holds only candidates with a property that those put in have, and those with a new
version of their job. -/
theorem keeping_holding {C : Candidate → Prop}
    (version : ∀ (c : Candidate) job, C (c.replace job)) : Keeping C (Holding C) :=
  { stable_holding with
    requeue := fun _ _ _ hc h e => h.requeue hc e
    delay := fun _ _ _ hc h e => h.delay hc e
    update := fun _ old new h => h.update old fun c => version c new
    remove := fun _ key h => h.remove key
    pop := fun _ _ _ h e => (h.pop e).1
    flush := fun _ now h => h.flushUpTo now _
    elapse := fun _ now span h => h.elapse now span }

section

open KeyedHeap

variable {q q' : JobQueue} {c : Candidate}

theorem Indexed.requeue (h : q.Indexed) (e : q.requeue c = .ok q') : q'.Indexed := by
  obtain ⟨ready, rfl, _, _, _, ri, _⟩ := requeue_eq_ok h e
  exact ⟨ri, h.delayed⟩

theorem Indexed.delay (h : q.Indexed) (e : q.delay c = .ok q') : q'.Indexed := by
  obtain ⟨_, ⟨_, rfl⟩ | ⟨delayed, rfl, _, di, _⟩⟩ := delay_eq_ok h e
  · exact h
  · exact ⟨h.ready, di⟩

theorem Indexed.receiveAll (h : q.Indexed) (held : List Candidate × List Candidate) :
    (q.receiveAll held).2.Indexed := by
  have ready : (receive JobQueue.requeue q held.1).2.Indexed :=
    receive_induction h fun _ _ _ _ h e => Indexed.requeue h e
  exact receive_induction ready fun _ _ _ _ h (e : JobQueue.delay _ _ = _) => Indexed.delay h e

theorem Indexed.remove (h : q.Indexed) (key : String) : (q.remove key).2.Indexed := by
  obtain ⟨_, ready, _, ri, _, e⟩ | ⟨_, _, delayed, _, di, _, e⟩ | ⟨_, _, e⟩ := remove_cases h key
  · rw [e]; exact ⟨ri, h.delayed⟩
  · rw [e]; exact ⟨h.ready, di⟩
  · rw [e]; exact h

theorem Indexed.flushUpTo (h : q.Indexed) (now fuel : Nat) : (flushUpTo now fuel q).2.Indexed := by
  fun_induction JobQueue.flushUpTo now fuel q with
  | case1 => exact h
  | case2 => exact h
  | case3 => exact h
  | case4 => exact h
  | case5 fuel q head _ _ c delayed popped ready pushed n q' flushed ih =>
    obtain ⟨di, _⟩ := KeyedHeap.pop_eq_ok h.delayed popped
    obtain ⟨_, ri, _⟩ := push_eq_ok h.ready pushed
    have := ih ⟨ri, di⟩
    rw [flushed] at this
    exact this
  | case6 fuel q head _ _ c delayed popped _ _ ih =>
    exact ih ⟨h.ready, (KeyedHeap.pop_eq_ok h.delayed popped).1⟩

/-- The heaps of a queue find what they hold, whatever is done to it. -/
theorem lasting_indexed : Lasting Indexed where
  new := indexed_new
  start q h := by
    unfold start
    split
    · exact h
    · exact ⟨h.ready, h.delayed⟩
  stop _ h := ⟨h.ready, h.delayed⟩
  close _ h := ⟨h.ready, h.delayed⟩
  takeAll _ _ := ⟨indexed_empty, indexed_empty⟩
  receiveAll _ _ _ ht := ht.receiveAll _
  requeue _ _ _ h e := h.requeue e
  delay _ _ _ h e := h.delay e
  update _ old new h := h.update old new
  remove _ key h := h.remove key
  pop q q' c h e := by
    obtain ⟨ready, rfl, ri, _⟩ := pop_eq_ok h e
    exact ⟨ri, h.delayed⟩
  flush _ now h := h.flushUpTo now _
  elapse q now span h := by
    have flushed := h.flushUpTo now q.delayedCount
    unfold JobQueue.elapse
    split
    · exact ⟨h.ready, h.delayed⟩
    · split
      · exact h
      · split
        · exact ⟨flushed.ready, flushed.delayed⟩
        · exact ⟨h.ready, h.delayed⟩

end

end JobQueue

theorem QueueSet.Each.close {P : JobQueue → Prop} {s : QueueSet} (h : s.Each P)
    (stable : QueueSet.Stable P) : s.close.Each P := by
  have cancelled := QueueSet.Each.cancel (s := { s with running := false }) h stable
  exact cancelled.mapNamed stable.close

end JobAdmission
