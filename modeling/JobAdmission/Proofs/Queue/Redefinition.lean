/-
Giving a queue another definition. One registry call makes a queue, takes the old name away, gives
the new one, closes a third queue that had it, and moves two heaps, with puts that may be refused.
As long as no queue holds a key in both heaps none is refused: the queue of the new name holds
exactly what the queue of the old name held, and no queue of any other name is touched.
-/
import JobAdmission.Proofs.Heap.Order
import JobAdmission.Proofs.Queue.Registry

namespace JobAdmission

/-! ## Order -/

namespace JobQueue

open KeyedHeap

/-- Both heaps are in order, the first if the order of the queue is a strict weak order. -/
structure InOrder (q : JobQueue) : Prop where
  ready : StrictWeak q.order → q.ready.Ordered q.order
  delayed : q.delayed.Ordered q.byDeadline

variable {q q' : JobQueue} {c : Candidate}

theorem strictWeak_byDeadline (q : JobQueue) : StrictWeak q.byDeadline :=
  .of_measure q.timing.retry.deadline

theorem InOrder.requeue (h : q.InOrder) (e : q.requeue c = .ok q') : q'.InOrder := by
  obtain ⟨ready, rfl, -, -, pushed⟩ := requeue_eq_push e
  exact ⟨fun weak => (h.ready weak).push weak pushed, h.delayed⟩

theorem InOrder.delay (h : q.InOrder) (e : q.delay c = .ok q') : q'.InOrder := by
  obtain ⟨-, ⟨-, rfl⟩ | ⟨delayed, rfl, -, pushed⟩⟩ := delay_eq_push e
  · exact h
  · exact ⟨h.ready, h.delayed.push q.strictWeak_byDeadline pushed⟩

/-- Everything that is delivered is put in its place, in whatever order it comes. -/
theorem InOrder.receiveAll (h : q.InOrder) (held : List Candidate × List Candidate) :
    (q.receiveAll held).2.InOrder := by
  have ready : (receive JobQueue.requeue q held.1).2.InOrder :=
    receive_induction h fun _ _ _ _ hq e => InOrder.requeue hq e
  exact receive_induction ready fun _ _ _ _ hq (e : JobQueue.delay _ _ = _) => InOrder.delay hq e

theorem OneHeap.found_or (one : q.OneHeap) (hi : q.Indexed) (key : String) :
    (q.found key).1 = none ∨ (q.found key).2 = none := by
  rcases ready : (q.found key).1 with _ | c
  · exact .inl rfl
  · have held : q.ready.contains key = true := by
      rw [hi.ready.contains_eq, show q.ready.find? key = some c from ready]
      rfl
    have free : ¬ q.delayed.contains key = true := fun both => one key ⟨held, both⟩
    rw [hi.delayed.contains_eq, Option.not_isSome_iff_eq_none] at free
    exact .inr free

end JobQueue

namespace QueueSet

open JobQueue

variable {s t : QueueSet} {id other : QueueId} {q q' : JobQueue} {old new : QueueDef}

theorem Fresh.inOrder {d : QueueDef} (fresh : Fresh s.rules d q) : q.InOrder := by
  refine ⟨fun _ => ?_, ?_⟩
  · rw [fresh.ready]
    exact KeyedHeap.ordered_empty
  · rw [fresh.delayed]
    exact KeyedHeap.ordered_empty

/-! ## The queues after an update -/

theorem queue?_closeQueue (s : QueueSet) (closing : Option QueueId) (other : QueueId) :
    (s.closeQueue closing).queue? other =
      if closing = some other then (s.queue? other).map .close else s.queue? other := by
  cases closing with
  | none => rfl
  | some id =>
    show (s.modify id .close).queue? other = _
    rw [queue?_modify]
    simp

theorem drain_of_queue? (hs : s.queue? id = some q) (ht : s.queue? other = some q')
    (hne : id ≠ other) :
    s.drain id other = ((q'.receiveAll q.takeAll.1).1,
      (s.put id q.takeAll.2).put other (q'.receiveAll q.takeAll.1).2) := by
  have target : (s.put id q.takeAll.2).queue? other = some q' := by
    rw [queue?_put, if_neg (fun both => hne both.1), ht]
  unfold drain
  rw [hs]
  dsimp only
  rw [target]

theorem queue?_drain (hs : s.queue? id = some q) (ht : s.queue? other = some q')
    (hne : id ≠ other) (k : QueueId) :
    (s.drain id other).2.queue? k =
      if k = other then some (q'.receiveAll q.takeAll.1).2
      else if k = id then some q.takeAll.2 else s.queue? k := by
  obtain ⟨bound, -⟩ := Array.getElem?_eq_some_iff.1 hs
  obtain ⟨bound', -⟩ := Array.getElem?_eq_some_iff.1 ht
  have size : (s.put id q.takeAll.2).queues.size = s.queues.size := Array.size_setIfInBounds
  rw [drain_of_queue? hs ht hne]
  dsimp only
  rw [queue?_put, size, queue?_put]
  by_cases h : k = other
  · subst h
    rw [if_pos ⟨rfl, bound'⟩, if_pos rfl]
  · rw [if_neg (fun both => h both.1.symm), if_neg h]
    by_cases h' : k = id
    · subst h'
      rw [if_pos ⟨rfl, bound⟩, if_pos rfl]
    · rw [if_neg (fun both => h' both.1.symm), if_neg h']

theorem update_of_known {order : JobOrder} (known : orderOf? s.rules new = some order)
    (old : QueueDef) : ∃ t, s.update old new = .ok t := by
  obtain ⟨q, made, -⟩ := make_of_known known
  unfold update
  rw [made]
  dsimp only [bind, Except.bind]
  split <;> exact ⟨_, rfl⟩

theorem update_of_unknown (unknown : orderOf? s.rules new = none) (old : QueueDef) :
    ∃ reason, s.update old new = .error (.config reason) := by
  obtain ⟨reason, e⟩ := make_of_unknown unknown
  unfold update
  rw [e]
  exact ⟨reason, rfl⟩

/-- A name that still leads somewhere when another has been struck leads elsewhere than that one. -/
theorem Named.of_erased (named : s.Named) {name name' : String} {k : QueueId}
    (hk : (s.ids.erase name).get? name' = some k) :
    s.idOf? name' = some k ∧ s.idOf? name ≠ some k := by
  rw [NameMap.get?_erase] at hk
  split at hk
  · cases hk
  · rename_i hne
    exact ⟨hk, fun previous => hne (named.unique previous hk)⟩

/-- A new queue comes last, and another one may be closed. -/
theorem queue?_push_closeQueue (s : QueueSet) (q : JobQueue) (ids : NameMap QueueId)
    {closing : Option QueueId} (older : closing ≠ some s.queues.size) (k : QueueId) :
    (({ s with queues := s.queues.push q, ids } : QueueSet).closeQueue closing).queue? k =
      if k = s.queues.size then some q
      else if closing = some k then (s.queue? k).map .close else s.queue? k := by
  have pushed : ({ s with queues := s.queues.push q, ids } : QueueSet).queue? k =
      if k = s.queues.size then some q else s.queue? k := queue?_push s q k
  rw [queue?_closeQueue, pushed]
  by_cases hk : k = s.queues.size
  · rw [if_pos hk, if_pos hk, if_neg (fun e => older (hk ▸ e))]
  · rw [if_neg hk, if_neg hk]

/-- The queue that an update makes, and what became of the others. It receives what the queue of
the old name held; that queue and the one that had the new name are closed; the rest is as it
was. -/
theorem queue?_update (named : s.Named) (e : s.update old new = .ok t) :
    ∃ q, Fresh s.rules new q ∧
      t.ids = (s.ids.erase old.name).insert new.name s.queues.size ∧
      t.queue? s.queues.size = some (((s.lookup? old.name).map fun p =>
        (q.receiveAll p.2.takeAll.1).2).getD q) ∧
      (∀ p, s.idOf? old.name = some p → t.queue? p = (s.queue? p).map (·.close.takeAll.2)) ∧
      ∀ k, k ≠ s.queues.size → s.idOf? old.name ≠ some k →
        t.queue? k = if (s.ids.erase old.name).get? new.name = some k
          then (s.queue? k).map .close else s.queue? k := by
  obtain ⟨q, r, fresh, rfl, moved⟩ := update_eq_ok e
  refine ⟨q, fresh, ?_⟩
  generalize hids : (s.ids.erase old.name).insert new.name s.queues.size = ids at moved
  -- a queue that loses the new name had it before, so it is neither the new one nor the old one
  have older : (s.ids.erase old.name).get? new.name ≠ some s.queues.size :=
    fun e => named.ne_size (named.of_erased e).1 rfl
  have spared : ∀ p, s.idOf? old.name = some p → (s.ids.erase old.name).get? new.name ≠ some p :=
    fun p previous e => (named.of_erased e).2 previous
  generalize (s.ids.erase old.name).get? new.name = closing at *
  have renamed := queue?_push_closeQueue s q ids older
  rcases moved with ⟨unknown, rfl⟩ | ⟨p, previous, rfl⟩
  · refine ⟨ids_closeQueue _ _, ?_, fun p hp => ?_, fun k hk _ => ?_⟩
    · rw [renamed, if_pos rfl, lookup?_of_unknown unknown]
      rfl
    · rw [unknown] at hp
      cases hp
    · rw [renamed, if_neg hk]
  · obtain ⟨qp, there, -⟩ := named old.name p previous
    have hp : p ≠ s.queues.size := named.ne_size previous
    -- before the move the old queue is closed as well
    have closed : ∀ k, ((({ s with queues := s.queues.push q, ids } : QueueSet).closeQueue
        closing).closeQueue (some p)).queue? k =
          if k = s.queues.size then some q
          else if k = p then some qp.close
          else if closing = some k then (s.queue? k).map .close else s.queue? k := by
      intro k
      rw [queue?_closeQueue, renamed]
      by_cases hk : k = s.queues.size
      · subst hk
        rw [if_pos rfl, if_pos rfl, if_neg (fun e => hp (Option.some.inj e))]
      · rw [if_neg hk, if_neg hk]
        by_cases hkp : k = p
        · subst hkp
          rw [if_pos rfl, if_pos rfl, if_neg (spared k previous), there]
          rfl
        · rw [if_neg hkp, if_neg (fun e : some p = some k => hkp (Option.some.inj e).symm)]
    have drained := queue?_drain (by rw [closed, if_neg hp, if_pos rfl])
      (by rw [closed, if_pos rfl]) hp
    refine ⟨?_, ?_, fun p' hp' => ?_, fun k hk hkp => ?_⟩
    · exact (ids_drain _ _ _).trans ((ids_closeQueue _ _).trans (ids_closeQueue _ _))
    · rw [drained, if_pos rfl, lookup?_of_idOf? previous there]
      rfl
    · rw [previous] at hp'
      cases hp'
      rw [drained, if_neg hp, if_pos rfl, there]
      rfl
    · have hne : k ≠ p := by
        rintro rfl
        exact hkp previous
      rw [drained, if_neg hk, if_neg hne, closed, if_neg hk, if_neg hne]

/-! ## What is held after an update -/

/-- A queue that holds no key twice gives all that it holds to a queue that holds nothing. -/
theorem perm_receiveAll {p : JobQueue} (hp : p.Indexed) (one : p.OneHeap) (hq : q.Indexed)
    (opened : q.closed = false) (empty : ∀ key, q.found key = (none, none)) :
    ∃ ready delayed, (q.receiveAll p.takeAll.1).2 = { q with ready, delayed } ∧
      ready.toList.Perm p.ready.toList ∧ delayed.toList.Perm p.delayed.toList := by
  obtain ⟨ready, delayed, e, found⟩ := found_receiveAll hp hq opened empty
  have indexed : (q.receiveAll p.takeAll.1).2.Indexed :=
    lasting_indexed.receiveAll p q hp hq
  rw [e] at indexed
  refine ⟨ready, delayed, e, hp.ready.perm_of_find? indexed.ready fun key => ?_,
    hp.delayed.perm_of_find? indexed.delayed fun key => ?_⟩
  · have := congrArg Prod.fst (found key)
    rw [e] at this
    exact this
  · -- what is ready under the key is not delayed as well
    have single := found_receiveAll_single hp hq opened empty (one.found_or hp key)
    rw [e] at single
    exact congrArg Prod.snd single

/-- The candidates of the queue of a name, the ready and the delayed ones; none if there is no such
queue. -/
def heldUnder (s : QueueSet) (name : String) : List Candidate × List Candidate :=
  ((s.lookup? name).map fun p => p.2.takeAll.1).getD ([], [])

/-- What an update from one definition to another does to the registry. -/
structure Redefined (s t : QueueSet) (old new : QueueDef) (order : JobOrder) : Prop where
  names : ∀ name, name ∈ t.names ↔ name ∈ s.names ∧ name ≠ old.name ∨ name = new.name
  /-- The queue of the new name is open, was made for the definition, holds what was held under the
  old name, and has it in its order. -/
  registered : ∃ id q, t.lookup? new.name = some (id, q) ∧ q.closed = false ∧
    q.definition = new ∧ q.order = order ∧ q.timing = s.rules.timing ∧
    q.ready.toList.Perm (s.heldUnder old.name).1 ∧
    q.delayed.toList.Perm (s.heldUnder old.name).2 ∧
    (StrictWeak order → q.ready.Ordered order) ∧ q.delayed.Ordered q.byDeadline
  others : ∀ name, name ≠ old.name → name ≠ new.name → t.lookup? name = s.lookup? name

/-- The new name leads to the queue that an update makes, with what that received. -/
theorem Named.lookup?_new (named : s.Named) (e : s.update old new = .ok t) :
    ∃ q, Fresh s.rules new q ∧ t.lookup? new.name = some (s.queues.size,
      ((s.lookup? old.name).map fun p => (q.receiveAll p.2.takeAll.1).2).getD q) := by
  obtain ⟨q, fresh, ids, registered, -, -⟩ := queue?_update named e
  have last : t.idOf? new.name = some s.queues.size := by
    unfold idOf?
    rw [ids, NameMap.get?_insert, if_pos rfl]
  exact ⟨q, fresh, lookup?_of_idOf? last registered⟩

theorem Sound.registered_of_update {order : JobOrder} (sound : s.Sound) (one : s.Each OneHeap)
    (known : orderOf? s.rules new = some order) (e : s.update old new = .ok t) :
    ∃ id q, t.lookup? new.name = some (id, q) ∧ q.closed = false ∧
      q.definition = new ∧ q.order = order ∧ q.timing = s.rules.timing ∧
      q.ready.toList.Perm (s.heldUnder old.name).1 ∧
      q.delayed.toList.Perm (s.heldUnder old.name).2 ∧
      (StrictWeak order → q.ready.Ordered order) ∧ q.delayed.Ordered q.byDeadline := by
  obtain ⟨q, fresh, registered⟩ := sound.named.lookup?_new e
  have order_eq : q.order = order := by
    have := fresh.under.1
    rw [fresh.definition, known] at this
    exact (Option.some.inj this).symm
  refine ⟨_, _, registered, ?_⟩
  unfold heldUnder
  rcases found : s.lookup? old.name with _ | ⟨p, r⟩
  · have inOrder := fresh.inOrder
    refine ⟨fresh.opened, fresh.definition, order_eq, fresh.under.2, ?_, ?_,
      fun weak => ?_, inOrder.delayed⟩
    · rw [Option.map_none, Option.getD_none, fresh.ready]
      exact .refl _
    · rw [Option.map_none, Option.getD_none, fresh.delayed]
      exact .refl _
    · exact order_eq ▸ inOrder.ready (order_eq ▸ weak)
  · obtain ⟨-, at_p⟩ := lookup?_eq_some_iff.1 found
    obtain ⟨ready, delayed, moved, pr, pd⟩ := perm_receiveAll (sound.indexed p r at_p)
      (one p r at_p) fresh.indexed fresh.opened fresh.nothing
    have inOrder := fresh.inOrder.receiveAll r.takeAll.1
    rw [Option.map_some, Option.getD_some, Option.map_some, Option.getD_some]
    dsimp only
    rw [moved] at inOrder ⊢
    refine ⟨fresh.opened, fresh.definition, order_eq, fresh.under.2, pr, pd,
      fun weak => ?_, inOrder.delayed⟩
    exact order_eq ▸ inOrder.ready (order_eq ▸ weak)

theorem Named.lookup?_of_update (named : s.Named) (e : s.update old new = .ok t) {name : String}
    (ho : name ≠ old.name) (hn : name ≠ new.name) : t.lookup? name = s.lookup? name := by
  obtain ⟨-, -, ids, -, -, others⟩ := queue?_update named e
  have same : t.idOf? name = s.idOf? name := by
    unfold idOf?
    rw [ids, NameMap.get?_insert, if_neg (Ne.symm hn), NameMap.get?_erase, if_neg (Ne.symm ho)]
  unfold lookup?
  rw [same]
  rcases known : s.idOf? name with _ | id
  · rfl
  · have kept : s.idOf? old.name ≠ some id := fun previous => ho (named.unique known previous)
    rw [Option.bind_some, Option.bind_some, others id (named.ne_size known) kept, if_neg]
    exact fun shadowed => hn (named.unique known (named.of_erased shadowed).1)

theorem Named.mem_names_of_update (named : s.Named) (e : s.update old new = .ok t)
    (name : String) : name ∈ t.names ↔ name ∈ s.names ∧ name ≠ old.name ∨ name = new.name := by
  obtain ⟨-, -, ids, -⟩ := queue?_update named e
  unfold names
  rw [NameMap.mem_names, NameMap.mem_names, ids, NameMap.contains_insert,
    NameMap.contains_erase]
  tauto

theorem Sound.redefined {order : JobOrder} (sound : s.Sound) (one : s.Each OneHeap)
    (known : orderOf? s.rules new = some order) (e : s.update old new = .ok t) :
    s.Redefined t old new order where
  names := sound.named.mem_names_of_update e
  registered := sound.registered_of_update one known e
  others _ ho hn := sound.named.lookup?_of_update e ho hn

/-- In every state of a registry in which no queue holds a key twice, an update to an unknown order
changes nothing, and any other update redefines the queue. -/
theorem update_redefines (rules : QueueRules) (run : List RegistryStep) (old new : QueueDef)
    (one : ((QueueSet.new rules).after run).Each OneHeap) :
    (orderOf? rules new = none →
      (∃ reason, ((QueueSet.new rules).after run).update old new = .error (.config reason)) ∧
      ((QueueSet.new rules).after run).step (.update old new) = (QueueSet.new rules).after run) ∧
    ∀ order, orderOf? rules new = some order →
      ∃ t, ((QueueSet.new rules).after run).update old new = .ok t ∧
        ((QueueSet.new rules).after run).Redefined t old new order := by
  have sound := (sound_new rules).after run
  have same := ((QueueSet.new rules).descends_after run).rules
  generalize (QueueSet.new rules).after run = s at *
  rw [show rules = s.rules from same.symm]
  refine ⟨fun unknown => ?_, fun order known => ?_⟩
  · obtain ⟨reason, e⟩ := update_of_unknown unknown old
    refine ⟨⟨reason, e⟩, ?_⟩
    show (s.update old new).toOption.getD s = s
    rw [e]
    rfl
  · obtain ⟨t, e⟩ := update_of_known known old
    exact ⟨t, e, sound.redefined one known e⟩

/-- A queue with a ready and a delayed job is given another name. -/
theorem renamed_with_both_heaps :
    let rules : QueueRules := ⟨Priority.queueOrder,
      NameMap.empty.insert Priority.name Priority.jobOrder, .standard, Priority.name⟩
    let s := (QueueSet.new rules).after [.add (QueueDef.new "a" 0),
      .call 0 0 (.submit (Job.new "n" "x" "TFJob")),
      .call 0 0 (.delay (.fresh (Job.new "n" "y" "TFJob") 0))]
    s.Each OneHeap ∧
      s.heldUnder "a" = ([.fresh (Job.new "n" "x" "TFJob") 0],
        [.fresh (Job.new "n" "y" "TFJob") 0]) ∧
      ∃ t, s.update (QueueDef.new "a" 0) (QueueDef.new "b" 0) = .ok t ∧
        s.Redefined t (QueueDef.new "a" 0) (QueueDef.new "b" 0) Priority.jobOrder := by
  intro rules s
  have start := JobQueue.sound_new (QueueDef.new "a" 0) Priority.jobOrder .standard false
  have sound := QueueCall.sound_delay (QueueCall.sound_submit start 0 (Job.new "n" "x" "TFJob")) 0
    (.fresh (Job.new "n" "y" "TFJob") 0)
  obtain ⟨ready, delayed, e, -, rp, -, dp⟩ := JobQueue.run_submit_delay start rfl (fun key =>
    Bool.or_eq_false_iff.2 ⟨JobQueue.contains_empty key, JobQueue.contains_empty key⟩)
    (x := Job.new "n" "x" "TFJob") (y := Job.new "n" "y" "TFJob") (by decide) 0
  have one : s.Each OneHeap := by
    intro id q there
    rcases id with _ | id
    · cases there
      exact sound.oneHeap
    · cases there
  refine ⟨one, ?_, (update_redefines rules _ _ _ one).2 Priority.jobOrder rfl⟩
  have held : s.heldUnder "a" = ((QueueCall.delay (.fresh (Job.new "n" "y" "TFJob") 0)).run 0
      ((QueueCall.submit (Job.new "n" "x" "TFJob")).run 0
        (JobQueue.new (QueueDef.new "a" 0) Priority.jobOrder .standard false))).takeAll.1 := rfl
  rw [held, e]
  exact Prod.ext (List.perm_singleton.1 rp) (List.perm_singleton.1 dp)

end QueueSet

end JobAdmission
