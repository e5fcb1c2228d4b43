/-
Where a registry keeps a key. At most one of its queues finds something under the key, in one of its
heaps (`Seats`), and this stays so: a redefinition moves what is found to another queue and leaves
it in the same heap, a flush moves it from one heap to the other once its window has ended, and only
what puts in or takes out the key itself does more.
-/
import JobAdmission.Proofs.Queue.Redefinition

namespace JobAdmission

/-- A call that neither puts in nor takes out the key. -/
def QueueCall.Spares (key : String) : QueueCall → Prop
  | .submit job => job.key ≠ key
  | .delay c => c.key ≠ key
  | .update old new => old.key ≠ key ∧ new.key ≠ key
  | .remove job => job.key ≠ key
  | .removeKey other => other ≠ key
  | .pop => False
  | .flush => True
  | .close => True

/-- A step at a time of the clock that neither puts in nor takes out the key. -/
def RegistryStep.Spares (key : String) (now : Nat) : RegistryStep → Prop
  | .call time _ made => time = now ∧ made.Spares key
  | .elapse time _ => time = now
  | .drain _ _ => False
  | .popNext => False
  | _ => True

namespace JobQueue

variable {q : JobQueue} {key : String}

theorem Flushed.trans {p : RetryPolicy} {now : Nat} {a b d : Option Candidate × Option Candidate}
    (h : Flushed p now a b) (h' : Flushed p now b d) : Flushed p now a d := by
  cases h with
  | same => exact h'
  | due c ended =>
    cases h' with
    | same => exact .due c ended

theorem found_takeAll (q : JobQueue) (key : String) : q.takeAll.2.found key = (none, none) := by
  unfold found takeAll
  rw [KeyedHeap.find?_empty]

theorem flushed_run (hi : q.Indexed) (now : Nat)
    (one : (q.found key).1 = none ∨ (q.found key).2 = none) {call : QueueCall}
    (spares : call.Spares key) :
    Flushed q.timing.retry now (q.found key) ((call.run now q).found key) := by
  have same : (call.run now q).found key = q.found key →
      Flushed q.timing.retry now (q.found key) ((call.run now q).found key) := by
    intro e
    rw [e]
    exact .same _
  cases call with
  | submit job =>
    apply same
    show ((q.submit now job).toOption.getD q).found key = _
    rcases e : q.submit now job with err | q'
    · rfl
    · have other : ¬ (Candidate.fresh job now).key = key := spares
      show q'.found key = _
      rw [found_requeue hi e key, if_neg other]
  | delay c =>
    apply same
    show ((q.delay c).toOption.getD q).found key = _
    rcases e : q.delay c with err | q'
    · rfl
    · exact found_delay_of_ne hi e spares
  | update old new => exact same (found_update hi spares.1 spares.2)
  | remove job => exact same (found_remove hi spares)
  | removeKey other => exact same (found_remove hi spares)
  | pop => exact spares.elim
  | flush => exact flushed_flushUpTo hi now q.delayedCount one
  | close => exact same found_close

end JobQueue

namespace QueueSet

open JobQueue

variable {s t : QueueSet} {key : String} {id : QueueId} {q q' : JobQueue} {c : Candidate}
  {seat : Option Candidate × Option Candidate} {p : RetryPolicy} {now : Nat}

/-- What the queue of an identity finds under a key. -/
def foundAt (s : QueueSet) (key : String) (id : QueueId) : Option Candidate × Option Candidate :=
  ((s.queue? id).map (·.found key)).getD (none, none)

/-- At most one queue finds something under the key, in one of its heaps. -/
structure Seats (s : QueueSet) (key : String) (seat : Option Candidate × Option Candidate) :
    Prop where
  home : ∃ home, ∀ id, s.foundAt key id = if id = home then seat else (none, none)
  single : seat.1 = none ∨ seat.2 = none

theorem foundAt_of_queue? (there : s.queue? id = some q) : s.foundAt key id = q.found key := by
  unfold foundAt
  rw [there]
  rfl

theorem foundAt_of_none (absent : s.queue? id = none) : s.foundAt key id = (none, none) := by
  unfold foundAt
  rw [absent]
  rfl

theorem Seats.same (h : s.Seats key seat) (same : ∀ id, t.foundAt key id = s.foundAt key id) :
    t.Seats key seat := by
  obtain ⟨home, at_home⟩ := h.home
  exact ⟨⟨home, fun id => (same id).trans (at_home id)⟩, h.single⟩

/-- Every queue finds nothing or what is found. -/
theorem Seats.foundAt_eq (h : s.Seats key seat) (id : QueueId) :
    s.foundAt key id = seat ∨ s.foundAt key id = (none, none) := by
  obtain ⟨home, at_home⟩ := h.home
  rw [at_home]
  split
  · exact .inl rfl
  · exact .inr rfl

/-- What a queue finds is in one of its heaps. -/
theorem Seats.single_of_queue? (h : s.Seats key seat) (there : s.queue? id = some q) :
    (q.found key).1 = none ∨ (q.found key).2 = none := by
  rw [← foundAt_of_queue? there]
  rcases h.foundAt_eq id with e | e
  · rw [e]
    exact h.single
  · rw [e]
    exact .inl rfl

theorem Seats.free_of_queue? (h : s.Seats key (none, none)) (there : s.queue? id = some q) :
    q.found key = (none, none) := by
  rw [← foundAt_of_queue? there]
  exact or_self_iff.1 (h.foundAt_eq id)

/-- What was found in one place may be found in another. -/
theorem Seats.move (h : s.Seats key seat) {from' to' : QueueId}
    (nothing : s.foundAt key to' = (none, none)) (left : t.foundAt key from' = (none, none))
    (arrived : t.foundAt key to' = s.foundAt key from')
    (kept : ∀ k, k ≠ to' → k ≠ from' → t.foundAt key k = s.foundAt key k) : t.Seats key seat := by
  obtain ⟨home, at_home⟩ := h.home
  by_cases moved : home = from'
  · subst moved
    refine ⟨⟨to', fun k => ?_⟩, h.single⟩
    by_cases hk : k = to'
    · rw [if_pos hk, hk, arrived, at_home, if_pos rfl]
    · rw [if_neg hk]
      by_cases hk' : k = home
      · rw [hk', left]
      · rw [kept k hk hk', at_home, if_neg hk']
  · have away : s.foundAt key from' = (none, none) := by
      rw [at_home, if_neg (fun e => moved e.symm)]
    refine h.same fun k => ?_
    by_cases hk : k = to'
    · rw [hk, arrived, away, nothing]
    · by_cases hk' : k = from'
      · rw [hk', left, away]
      · exact kept k hk hk'

/-- In which of the heaps it is found may change. -/
theorem Seats.flushed (h : s.Seats key seat)
    (moved : ∀ id, Flushed p now (s.foundAt key id) (t.foundAt key id)) :
    ∃ seat', t.Seats key seat' ∧ Flushed p now seat seat' := by
  obtain ⟨home, at_home⟩ := h.home
  have here := moved home
  rw [at_home, if_pos rfl] at here
  refine ⟨t.foundAt key home, ⟨⟨home, fun id => ?_⟩, ?_⟩, here⟩
  · split
    · rename_i e
      rw [e]
    · rename_i e
      have there := moved id
      rw [at_home, if_neg e] at there
      generalize t.foundAt key id = found at there ⊢
      cases there
      rfl
  · have single := h.single
    generalize t.foundAt key home = seat' at here
    cases here with
    | same => exact single
    | due => exact .inr rfl

/-! ## Operations on queues that leave the key where it is -/

theorem foundAt_modify {f : JobQueue → JobQueue} (same : ∀ q, (f q).found key = q.found key)
    (s : QueueSet) (id k : QueueId) : (s.modify id f).foundAt key k = s.foundAt key k := by
  unfold foundAt
  rw [queue?_modify]
  split
  · rcases s.queue? k with _ | q
    · rfl
    · exact same q
  · rfl

theorem foundAt_closeQueue (s : QueueSet) (closing : Option QueueId) (k : QueueId) :
    (s.closeQueue closing).foundAt key k = s.foundAt key k := by
  cases closing with
  | none => rfl
  | some id => exact foundAt_modify (fun _ => found_close) s id k

theorem foundAt_mapNamed {f : JobQueue → JobQueue} (same : ∀ q, (f q).found key = q.found key)
    (s : QueueSet) (k : QueueId) : (s.mapNamed f).foundAt key k = s.foundAt key k := by
  unfold mapNamed
  exact List.foldlRecOn s.ids.values _ (motive := fun t => t.foundAt key k = s.foundAt key k) rfl
    fun t ht id _ => (foundAt_modify same t id k).trans ht

theorem foundAt_cancel (s : QueueSet) (k : QueueId) : s.cancel.foundAt key k = s.foundAt key k := by
  unfold foundAt
  rw [show s.cancel.queue? k = (s.queue? k).map .stop by
    unfold queue? cancel; exact Array.getElem?_map]
  rcases s.queue? k with _ | q <;> rfl

theorem foundAt_push {d : QueueDef} (fresh : Fresh s.rules d q) (k : QueueId) :
    ({ s with queues := s.queues.push q } : QueueSet).foundAt key k = s.foundAt key k := by
  unfold foundAt
  rw [queue?_push]
  split
  · rename_i e
    rw [e, queue?_size, Option.map_some, Option.getD_some, fresh.nothing]
    rfl
  · rfl

theorem Seats.modify (h : s.Seats key seat) {f : JobQueue → JobQueue}
    (moved : ∀ q, s.queue? id = some q → Flushed p now (q.found key) ((f q).found key)) :
    ∃ seat', (s.modify id f).Seats key seat' ∧ Flushed p now seat seat' := by
  refine h.flushed fun k => ?_
  unfold foundAt
  rw [queue?_modify]
  split
  · rename_i e
    subst e
    rcases there : s.queue? id with _ | q
    · exact .same _
    · exact moved q there
  · exact .same _

/-! ## Redefinition -/

/-- What was found in the queue that is replaced is found in the new one. -/
theorem Seats.update (h : s.Seats key seat) (sound : s.Sound) {old new : QueueDef}
    (e : s.update old new = .ok t) : t.Seats key seat := by
  obtain ⟨q, fresh, -, registered, emptied, others⟩ := queue?_update sound.named e
  have nothing : s.foundAt key s.queues.size = (none, none) := foundAt_of_none (queue?_size s)
  have kept : ∀ k, k ≠ s.queues.size → s.idOf? old.name ≠ some k →
      t.foundAt key k = s.foundAt key k := by
    intro k hk hp
    unfold foundAt
    rw [others k hk hp]
    split
    · rcases s.queue? k with _ | r <;> rfl
    · rfl
  rcases previous : s.idOf? old.name with _ | p
  · refine h.same fun k => ?_
    by_cases hk : k = s.queues.size
    · rw [lookup?_of_unknown previous] at registered
      rw [hk, nothing]
      exact (foundAt_of_queue? registered).trans (fresh.nothing key)
    · exact kept k hk (by rw [previous]; simp)
  · obtain ⟨r, there, -⟩ := sound.named old.name p previous
    have left : t.foundAt key p = (none, none) := by
      unfold foundAt
      rw [emptied p previous, there]
      exact found_takeAll r.close key
    -- the new queue finds what the old one found, in the same heap
    have arrived : t.foundAt key s.queues.size = s.foundAt key p := by
      rw [lookup?_of_idOf? previous there] at registered
      rw [foundAt_of_queue? registered, foundAt_of_queue? there]
      exact found_receiveAll_single (sound.indexed p r there) fresh.indexed fresh.opened
        fresh.nothing (h.single_of_queue? there)
    refine h.move nothing left arrived fun k hk hkp => kept k hk ?_
    rw [previous]
    simpa using Ne.symm hkp

/-! ## One step -/

/-- A step that spares the key leaves it where it is, or moves it to the ready ones of its queue. -/
theorem Seats.step (h : s.Seats key seat) (sound : s.Sound) {x : RegistryStep}
    (spares : x.Spares key now) :
    ∃ seat', (s.step x).Seats key seat' ∧ Flushed s.rules.timing.retry now seat seat' := by
  have stays : (∀ k, (s.step x).foundAt key k = s.foundAt key k) →
      ∃ seat', (s.step x).Seats key seat' ∧ Flushed s.rules.timing.retry now seat seat' :=
    fun same => ⟨seat, h.same same, .same seat⟩
  cases x with
  | add d =>
    apply stays
    intro k
    show ((s.add d).toOption.getD s).foundAt key k = _
    rcases e : s.add d with err | t
    · rfl
    · obtain ⟨q, fresh, rfl⟩ := add_eq_ok e
      exact (foundAt_closeQueue _ _ k).trans (foundAt_push fresh k)
  | update old new =>
    refine ⟨seat, ?_, .same seat⟩
    show ((s.update old new).toOption.getD s).Seats key seat
    rcases e : s.update old new with err | t
    · exact h
    · exact h.update sound e
  | delete name =>
    apply stays
    intro k
    show (s.delete name).2.foundAt key k = _
    unfold delete
    split
    · rfl
    · exact foundAt_closeQueue { s with ids := s.ids.erase name } _ k
  | call time id call =>
    obtain ⟨rfl, spared⟩ := spares
    refine h.modify fun q there => ?_
    rw [← (sound.under id q there).2]
    exact flushed_run (sound.indexed id q there) time (h.single_of_queue? there) spared
  | drain source target => exact spares.elim
  | popNext => exact spares.elim
  | start =>
    exact stays fun k => foundAt_mapNamed (fun _ => found_start) { s with running := true } k
  | cancel => exact stays (foundAt_cancel s)
  | close =>
    refine stays fun k => ?_
    exact (foundAt_mapNamed (fun _ => found_close) _ k).trans
      (foundAt_cancel { s with running := false } k)
  | elapse time span =>
    cases spares
    refine h.flushed fun k => ?_
    unfold foundAt
    rw [show (s.step (.elapse now span)).queue? k = (s.queue? k).map (·.elapse now span) by
      show (s.elapse now span).queue? k = _; unfold queue? elapse; exact Array.getElem?_map]
    rcases there : s.queue? k with _ | q
    · exact .same _
    · rw [← (sound.under k q there).2]
      exact flushed_elapse (sound.indexed k q there) now span (h.single_of_queue? there)

theorem Seats.after (h : s.Seats key seat) (sound : s.Sound) {run : List RegistryStep}
    (spares : ∀ x ∈ run, x.Spares key now) :
    ∃ seat', (s.after run).Seats key seat' ∧ Flushed s.rules.timing.retry now seat seat' := by
  induction run generalizing s seat with
  | nil => exact ⟨seat, h, .same seat⟩
  | cons x run ih =>
    obtain ⟨first, rest⟩ := List.forall_mem_cons.1 spares
    obtain ⟨between, there, moved⟩ := h.step sound first
    obtain ⟨seat', arrived, moved'⟩ := ih there (sound.step x) rest
    rw [(descends_step s x).rules] at moved'
    exact ⟨seat', arrived, moved.trans moved'⟩

/-! ## Putting in and taking out -/

theorem foundAt_put (there : s.queue? id = some q) (q' : JobQueue) (k : QueueId) :
    (s.put id q').foundAt key k = if k = id then q'.found key else s.foundAt key k := by
  obtain ⟨bound, -⟩ := Array.getElem?_eq_some_iff.1 there
  unfold foundAt
  rw [queue?_put]
  by_cases h : id = k
  · rw [if_pos ⟨h, bound⟩, if_pos h.symm]
    rfl
  · rw [if_neg (fun both => h both.1), if_neg (Ne.symm h)]

/-- A queue that finds under the key what it found leaves it where it is. -/
theorem Seats.put (h : s.Seats key seat) (there : s.queue? id = some q)
    (same : q'.found key = q.found key) : (s.put id q').Seats key seat := by
  refine h.same fun k => ?_
  rw [foundAt_put there]
  split
  · rename_i e
    rw [e, same, foundAt_of_queue? there]
  · rfl

/-- Where nothing was found, only the changed queue finds something. -/
theorem Seats.put_first (h : s.Seats key (none, none)) (there : s.queue? id = some q)
    (found : q'.found key = seat) (single : seat.1 = none ∨ seat.2 = none) :
    (s.put id q').Seats key seat := by
  refine ⟨⟨id, fun k => ?_⟩, single⟩
  rw [foundAt_put there]
  split
  · exact found
  · exact or_self_iff.1 (h.foundAt_eq k)

/-- Where the changed queue found something and finds nothing any more, nothing is found. -/
theorem Seats.put_last (h : s.Seats key seat) (there : s.queue? id = some q)
    (here : q.found key ≠ (none, none)) (gone : q'.found key = (none, none)) :
    (s.put id q').Seats key (none, none) := by
  obtain ⟨home, at_home⟩ := h.home
  have same : id = home := by
    by_contra away
    have nothing := at_home id
    rw [if_neg away, foundAt_of_queue? there] at nothing
    exact here nothing
  refine ⟨⟨id, fun k => ?_⟩, .inl rfl⟩
  rw [foundAt_put there]
  by_cases hk : k = id
  · rw [if_pos hk, if_pos hk, gone]
  · rw [if_neg hk, if_neg hk, at_home, if_neg (same ▸ hk)]

end QueueSet

end JobAdmission
