/-
What each operation of a queue does to the candidates that its two heaps hold: which of them are
held afterwards, up to their order in the heap, and that the heaps still find them by their keys.
-/
import JobAdmission.Proofs.Heap.Index
import JobAdmission.Queue.Basic

namespace JobAdmission.JobQueue

open KeyedHeap

/-- Both heaps find what they hold. -/
structure Indexed (q : JobQueue) : Prop where
  ready : q.ready.Indexed
  delayed : q.delayed.Indexed

theorem indexed_new (d : QueueDef) (order : JobOrder) (timing : QueueTiming) (stopped : Bool) :
    (new d order timing stopped).Indexed :=
  ⟨indexed_empty, indexed_empty⟩

/-! ## Putting in -/

theorem requeue_eq_push {q q' : JobQueue} {c : Candidate} (e : q.requeue c = .ok q') :
    ∃ ready, q' = { q with ready } ∧ q.closed = false ∧ q.delayed.contains c.key = false ∧
      q.ready.push q.order c = .ok ready := by
  unfold requeue at e
  split at e
  · cases e
  · rename_i hc
    split at e
    · cases e
    · rename_i hd
      rcases ep : q.ready.push q.order c with err | ready
      · rw [ep] at e; cases e
      · rw [ep] at e
        exact ⟨ready, (Except.ok.inj e).symm, by simpa using hc, by simpa using hd, rfl⟩

theorem delay_eq_push {q q' : JobQueue} {c : Candidate} (e : q.delay c = .ok q') :
    q.closed = false ∧ (q.holds c.key = true ∧ q' = q ∨
      ∃ delayed, q' = { q with delayed } ∧ q.holds c.key = false ∧
        q.delayed.push q.byDeadline c = .ok delayed) := by
  unfold delay at e
  split at e
  · cases e
  · rename_i hc
    refine ⟨by simpa using hc, ?_⟩
    split at e
    · rename_i hh
      exact .inl ⟨hh, (Except.ok.inj e).symm⟩
    · rename_i hh
      rcases ep : q.delayed.push q.byDeadline c with err | delayed
      · rw [ep] at e; cases e
      · rw [ep] at e
        exact .inr ⟨delayed, (Except.ok.inj e).symm, by simpa using hh, rfl⟩

/-- A candidate put among the ready ones was in neither heap, and is then in the first. -/
theorem requeue_eq_ok {q q' : JobQueue} (hi : q.Indexed) {c : Candidate}
    (e : q.requeue c = .ok q') :
    ∃ ready, q' = { q with ready } ∧ q.closed = false ∧ q.delayed.contains c.key = false ∧
      q.ready.contains c.key = false ∧ ready.Indexed ∧
      ready.toList.Perm (c :: q.ready.toList) := by
  obtain ⟨ready, same, opened, absent, ep⟩ := requeue_eq_push e
  obtain ⟨free, ri, rp⟩ := push_eq_ok hi.ready ep
  exact ⟨ready, same, opened, absent, free, ri, rp⟩

/-- A candidate whose attempt failed is passed over if its key is held, and otherwise put among
the delayed ones. -/
theorem delay_eq_ok {q q' : JobQueue} (hi : q.Indexed) {c : Candidate} (e : q.delay c = .ok q') :
    q.closed = false ∧ (q.holds c.key = true ∧ q' = q ∨
      ∃ delayed, q' = { q with delayed } ∧ q.holds c.key = false ∧ delayed.Indexed ∧
        delayed.toList.Perm (c :: q.delayed.toList)) := by
  obtain ⟨opened, passed | ⟨delayed, same, free, ep⟩⟩ := delay_eq_push e
  · exact ⟨opened, .inl passed⟩
  · obtain ⟨_, di, dp⟩ := push_eq_ok hi.delayed ep
    exact ⟨opened, .inr ⟨delayed, same, free, di, dp⟩⟩

/-- A queue refuses a delayed candidate exactly if it is closed. -/
theorem delay_refused_iff {q : JobQueue} {c : Candidate} :
    (∃ e, q.delay c = .error e) ↔ q.closed = true := by
  unfold delay
  split
  · rename_i closed
    exact iff_of_true ⟨_, rfl⟩ closed
  · rename_i opened
    refine iff_of_false ?_ opened
    split
    · rintro ⟨e, h⟩
      cases h
    · rename_i free
      rintro ⟨e, h⟩
      have absent : ¬ q.delayed.contains (Keyed.key c) = true := fun held =>
        free ((Bool.or_eq_true ..).mpr (.inr held))
      unfold KeyedHeap.push at h
      rw [if_neg absent] at h
      cases h

/-- A queue holds a delayed candidate that it did not refuse. -/
theorem holds_delay {q q' : JobQueue} {c : Candidate} (e : q.delay c = .ok q') :
    q'.holds c.key = true := by
  obtain ⟨-, ⟨held, rfl⟩ | ⟨delayed, rfl, -, ep⟩⟩ := delay_eq_push e
  · exact held
  · exact (Bool.or_eq_true ..).mpr (.inr (contains_push ep))

/-- An open queue takes a candidate whose key it does not hold. -/
theorem requeue_of_free {q : JobQueue} (hi : q.Indexed) (ho : q.closed = false) {c : Candidate}
    (hf : q.holds c.key = false) :
    ∃ ready, q.requeue c = .ok { q with ready } ∧ ready.Indexed ∧
      ready.toList.Perm (c :: q.ready.toList) := by
  obtain ⟨hr, hd⟩ := Bool.or_eq_false_iff.1 hf
  obtain ⟨ready, e, ri, p⟩ := push_spec q.order (a := c) hi.ready hr
  refine ⟨ready, ?_, ri, p⟩
  unfold requeue
  rw [ho, hd, e]
  rfl

theorem delay_of_free {q : JobQueue} (hi : q.Indexed) (ho : q.closed = false) {c : Candidate}
    (hf : q.holds c.key = false) :
    ∃ delayed, q.delay c = .ok { q with delayed } ∧ delayed.Indexed ∧
      delayed.toList.Perm (c :: q.delayed.toList) := by
  obtain ⟨_, hd⟩ := Bool.or_eq_false_iff.1 hf
  obtain ⟨delayed, e, di, p⟩ := push_spec q.byDeadline (a := c) hi.delayed hd
  refine ⟨delayed, ?_, di, p⟩
  unfold delay
  rw [ho, hf, e]
  rfl

/-! ## Replacing -/

section

variable {less : JobOrder} {h : KeyedHeap Candidate} {key : String} {job : Job} {old : Candidate}

theorem replaceIn_of_find?_none (hf : h.find? key = none) : replaceIn less h key job = none := by
  unfold replaceIn; rw [hf]; rfl

/-- The new version takes the place of the old one, unless its key is another one that the heap
holds already: then the old one is just gone. -/
theorem replaceIn_spec (hi : h.Indexed) (hf : h.find? key = some old) :
    ∃ done h' rest, replaceIn less h key job = some (done, h') ∧ h'.Indexed ∧
      h.toList.Perm (old :: rest) ∧
      (done = true ∧ h'.toList.Perm (old.replace job :: rest) ∨
        done = false ∧ job.key ≠ key ∧ h.contains job.key = true ∧ h'.toList.Perm rest) := by
  have hk : old.key = key := (hi.find?_eq_some_iff.1 hf).2
  unfold replaceIn
  rw [hf, Option.map_some]
  dsimp only
  split
  · -- under the same key the entry is updated in its place
    rename_i same
    have hf' : h.find? (Keyed.key (old.replace job)) = some old :=
      (congrArg h.find? (show Keyed.key (old.replace job) = key from same)).trans hf
    obtain ⟨h', rest, e, hi', p, p'⟩ := update_spec less hi hf'
    rw [e]
    exact ⟨true, h', rest, rfl, hi', p, .inl ⟨rfl, p'⟩⟩
  · -- under another key the old entry goes first, and the new one comes in if its key is free
    rename_i other
    obtain ⟨rest, e, ri, p⟩ := remove_spec less hi hf
    rw [e]
    dsimp only
    cases hc : rest.contains (Keyed.key (old.replace job)) with
    | false =>
      obtain ⟨h', e', hi', p'⟩ := push_spec less ri hc
      rw [e']
      exact ⟨true, h', rest.toList, rfl, hi', p, .inl ⟨rfl, p'⟩⟩
    | true =>
      rw [push_of_contains hc]
      exact ⟨false, rest, rest.toList, rfl, ri, p, .inr ⟨rfl, other,
        ((hi.contains_of_taken ri p _).1 hc).2, List.Perm.refl _⟩⟩

/-- Whether or not the new version was taken, its key is held, and the old key is not unless it
is the same. -/
theorem contains_replaceIn {done : Bool} {h' : KeyedHeap Candidate} (hi : h.Indexed)
    (hf : h.find? key = some old) (e : replaceIn less h key job = some (done, h')) :
    h'.Indexed ∧ ∀ k, h'.contains k = true ↔ k = job.key ∨ k ≠ key ∧ h.contains k = true := by
  have hk : Keyed.key old = key := (hi.find?_eq_some_iff.1 hf).2
  obtain ⟨done', g, rest, e', gi, p, alternatives⟩ :=
    @replaceIn_spec less h key job old hi hf
  rw [e] at e'
  cases e'
  refine ⟨gi, fun k => ?_⟩
  -- what is left of the heap without the old version holds every key but the old one
  have others : (∃ a ∈ rest, Keyed.key a = k) ↔ k ≠ key ∧ h.contains k = true := by
    have nd := List.nodup_cons.1 ((p.map Keyed.key).nodup_iff.1 hi.keys_nodup)
    rw [hi.contains_iff]
    constructor
    · rintro ⟨a, ha, rfl⟩
      refine ⟨fun ek => nd.1 ?_, a, p.mem_iff.2 (List.mem_cons_of_mem _ ha), rfl⟩
      rw [hk, ← ek]
      exact List.mem_map_of_mem ha
    · rintro ⟨hne, a, ha, rfl⟩
      rcases List.mem_cons.1 (p.mem_iff.1 ha) with rfl | ha
      · exact absurd hk hne
      · exact ⟨a, ha, rfl⟩
  rw [gi.contains_iff]
  rcases alternatives with ⟨_, p'⟩ | ⟨_, hne, held, p'⟩
  · simp only [p'.mem_iff, List.mem_cons, exists_eq_or_imp, others]
    exact or_congr_left eq_comm
  · simp only [p'.mem_iff, others]
    refine ⟨.inr, ?_⟩
    rintro (rfl | both)
    · exact ⟨hne, held⟩
    · exact both

end

/-- The heap that holds a key is the first of the two that does, and only it changes. -/
theorem update_cases (q : JobQueue) (old new : Job) :
    (∃ c done ready, q.ready.find? old.key = some c ∧
      replaceIn q.order q.ready old.key new = some (done, ready) ∧
      q.update old new = (done, { q with ready })) ∨
    (q.ready.find? old.key = none ∧ ∃ c done delayed, q.delayed.find? old.key = some c ∧
      replaceIn q.byDeadline q.delayed old.key new = some (done, delayed) ∧
      q.update old new = (done, { q with delayed })) ∨
    (q.ready.find? old.key = none ∧ q.delayed.find? old.key = none ∧
      q.update old new = (false, q)) := by
  unfold update
  rcases hr : q.ready.find? old.key with _ | c
  · rw [replaceIn_of_find?_none hr]
    rcases hd : q.delayed.find? old.key with _ | c
    · rw [replaceIn_of_find?_none hd]
      exact .inr (.inr ⟨rfl, rfl, rfl⟩)
    · have e : ∃ r, replaceIn q.byDeadline q.delayed old.key new = some r := by
        unfold replaceIn; rw [hd]; exact ⟨_, rfl⟩
      obtain ⟨⟨done, delayed⟩, e⟩ := e
      rw [e]
      exact .inr (.inl ⟨rfl, c, done, delayed, rfl, rfl, rfl⟩)
  · have e : ∃ r, replaceIn q.order q.ready old.key new = some r := by
      unfold replaceIn; rw [hr]; exact ⟨_, rfl⟩
    obtain ⟨⟨done, ready⟩, e⟩ := e
    rw [e]
    exact .inl ⟨c, done, ready, rfl, rfl, rfl⟩

/-! ## Taking out -/

/-- What a removal leaves: the first heap that holds the key gives its candidate up. -/
theorem remove_cases {q : JobQueue} (hi : q.Indexed) (key : String) :
    (∃ c ready, q.ready.find? key = some c ∧ ready.Indexed ∧
      q.ready.toList.Perm (c :: ready.toList) ∧ q.remove key = (true, { q with ready })) ∨
    (q.ready.find? key = none ∧ ∃ c delayed, q.delayed.find? key = some c ∧ delayed.Indexed ∧
      q.delayed.toList.Perm (c :: delayed.toList) ∧ q.remove key = (true, { q with delayed })) ∨
    (q.ready.find? key = none ∧ q.delayed.find? key = none ∧ q.remove key = (false, q)) := by
  unfold remove
  rcases hr : q.ready.find? key with _ | c
  · rw [remove_of_find?_none _ hi.ready hr]
    rcases hd : q.delayed.find? key with _ | c
    · rw [remove_of_find?_none _ hi.delayed hd]
      exact .inr (.inr ⟨rfl, rfl, rfl⟩)
    · obtain ⟨delayed, e, di, p⟩ := remove_spec q.byDeadline hi.delayed hd
      rw [e]
      exact .inr (.inl ⟨rfl, c, delayed, rfl, di, p, rfl⟩)
  · obtain ⟨ready, e, ri, p⟩ := remove_spec q.order hi.ready hr
    rw [e]
    exact .inl ⟨c, ready, rfl, ri, p, rfl⟩

/-- A candidate that is popped was ready. -/
theorem pop_eq_ok {q q' : JobQueue} (hi : q.Indexed) {c : Candidate} (e : q.pop = .ok (c, q')) :
    ∃ ready, q' = { q with ready } ∧ ready.Indexed ∧ q.ready.toList.Perm (c :: ready.toList) := by
  unfold pop at e
  rcases ep : q.ready.pop q.order with err | ⟨d, ready⟩
  · rw [ep] at e; cases e
  · rw [ep] at e
    cases e
    obtain ⟨ri, p⟩ := KeyedHeap.pop_eq_ok hi.ready ep
    exact ⟨ready, rfl, ri, p⟩

/-! ## Moving to another queue -/

/-- What every put that is not refused keeps, a whole delivery keeps. -/
theorem receive_induction {P : JobQueue → Prop}
    {put : JobQueue → Candidate → Except AdmissionError JobQueue} {q : JobQueue}
    {cs : List Candidate} (h : P q)
    (step : ∀ q q' c, c ∈ cs → P q → put q c = .ok q' → P q') : P (receive put q cs).2 := by
  unfold receive
  refine List.foldlRecOn cs _ (motive := fun r : Nat × JobQueue => P r.2) h fun r hr c hc => ?_
  obtain ⟨n, q⟩ := r
  dsimp only
  rcases e : put q c with err | q'
  · exact hr
  · exact step q q' c hc hr e

end JobAdmission.JobQueue
