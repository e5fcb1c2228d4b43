/-
The registry of queues as it changes over a run: queues are made, renamed, dropped and used, but
none that was made ever vanishes or changes the definition, the order or the times it was made with
(`Descends`). So every name leads to a queue of that name, and no queue has two names.
-/
import JobAdmission.Proofs.NameMap
import JobAdmission.Proofs.Queue.Lookup

namespace JobAdmission

/-- What a call puts in, if anything, has the property. -/
def QueueCall.Puts (C : Candidate → Prop) (now : Nat) : QueueCall → Prop
  | .submit job => C (.fresh job now)
  | .delay c => C c
  | _ => True

/-! ## What is fixed about a queue -/

namespace JobQueue

/-- What a queue is made with. -/
def charter (q : JobQueue) : QueueDef × JobOrder × QueueTiming := (q.definition, q.order, q.timing)

/-- Nothing but the heaps has changed. -/
def OnlyHeaps (q q' : JobQueue) : Prop :=
  q' = { q with ready := q'.ready, delayed := q'.delayed }

variable {q q' q'' : JobQueue} {c : Candidate}

theorem OnlyHeaps.refl (q : JobQueue) : q.OnlyHeaps q := rfl

theorem OnlyHeaps.trans (h : q.OnlyHeaps q') (h' : q'.OnlyHeaps q'') : q.OnlyHeaps q'' := by
  unfold OnlyHeaps at *
  rw [h', h]

theorem OnlyHeaps.charter (h : q.OnlyHeaps q') : q'.charter = q.charter := by
  rw [h]
  rfl

theorem onlyHeaps_requeue (e : q.requeue c = .ok q') : q.OnlyHeaps q' := by
  obtain ⟨ready, rfl, -⟩ := requeue_eq_push e
  rfl

theorem onlyHeaps_delay (e : q.delay c = .ok q') : q.OnlyHeaps q' := by
  obtain ⟨-, ⟨-, rfl⟩ | ⟨delayed, rfl, -⟩⟩ := delay_eq_push e <;> rfl

theorem onlyHeaps_update (q : JobQueue) (old new : Job) : q.OnlyHeaps (q.update old new).2 := by
  rcases update_cases q old new with ⟨_, _, _, -, -, e⟩ | ⟨-, _, _, _, -, -, e⟩ | ⟨-, -, e⟩ <;>
    rw [e] <;> rfl

theorem onlyHeaps_remove (q : JobQueue) (key : String) : q.OnlyHeaps (q.remove key).2 := by
  unfold remove
  split
  · rfl
  · split <;> rfl

theorem onlyHeaps_pop (e : q.pop = .ok (c, q')) : q.OnlyHeaps q' := by
  unfold pop at e
  rcases popped : q.ready.pop q.order with err | ⟨d, ready⟩
  · rw [popped] at e; cases e
  · rw [popped] at e; cases e; rfl

theorem onlyHeaps_flushUpTo (now fuel : Nat) (q : JobQueue) :
    q.OnlyHeaps (flushUpTo now fuel q).2 := by
  fun_induction JobQueue.flushUpTo now fuel q with
  | case1 => rfl
  | case2 => rfl
  | case3 => rfl
  | case4 => rfl
  | case5 fuel q _ _ _ c delayed _ ready _ n q' flushed ih =>
    rw [flushed] at ih
    exact .trans (show q.OnlyHeaps { q with ready, delayed } from rfl) ih
  | case6 fuel q _ _ _ c delayed _ _ _ ih =>
    exact .trans (show q.OnlyHeaps { q with delayed } from rfl) ih

theorem onlyHeaps_receiveAll (q : JobQueue) (held : List Candidate × List Candidate) :
    q.OnlyHeaps (q.receiveAll held).2 := by
  have ready : q.OnlyHeaps (receive requeue q held.1).2 :=
    receive_induction (.refl q) fun _ _ _ _ h e => h.trans (onlyHeaps_requeue e)
  exact receive_induction ready fun _ _ _ _ h (e : delay _ _ = _) => h.trans (onlyHeaps_delay e)

theorem onlyHeaps_run {call : QueueCall} (other : call ≠ .close) (now : Nat) (q : JobQueue) :
    q.OnlyHeaps (call.run now q) := by
  cases call with
  | submit job =>
    show q.OnlyHeaps ((q.submit now job).toOption.getD q)
    rcases e : q.submit now job with err | q'
    · exact .refl q
    · exact onlyHeaps_requeue e
  | delay c =>
    show q.OnlyHeaps ((q.delay c).toOption.getD q)
    rcases e : q.delay c with err | q'
    · exact .refl q
    · exact onlyHeaps_delay e
  | update old new => exact onlyHeaps_update q old new
  | remove job => exact onlyHeaps_remove q job.key
  | removeKey key => exact onlyHeaps_remove q key
  | pop =>
    show q.OnlyHeaps ((q.pop.toOption.map (·.2)).getD q)
    rcases e : q.pop with err | ⟨c, q'⟩
    · exact .refl q
    · exact onlyHeaps_pop e
  | flush => exact onlyHeaps_flushUpTo now q.delayedCount q
  | close => exact absurd rfl other

@[simp] theorem charter_start : q.start.charter = q.charter := by
  unfold start
  split <;> rfl

@[simp] theorem charter_elapse (now span : Nat) : (q.elapse now span).charter = q.charter := by
  unfold elapse
  split
  · rfl
  · split
    · rfl
    · split
      · exact (onlyHeaps_flushUpTo now q.delayedCount q).charter
      · rfl

theorem charter_run (call : QueueCall) (now : Nat) : (call.run now q).charter = q.charter := by
  by_cases h : call = .close
  · subst h
    rfl
  · exact (onlyHeaps_run h now q).charter

theorem Keeping.run {C : Candidate → Prop} {P : JobQueue → Prop} (keeping : Keeping C P) (h : P q)
    {call : QueueCall} {now : Nat} (puts : call.Puts C now) : P (call.run now q) := by
  cases call with
  | submit job =>
    show P ((q.submit now job).toOption.getD q)
    rcases e : q.submit now job with err | q'
    · exact h
    · exact keeping.requeue q q' _ puts h e
  | delay c =>
    show P ((q.delay c).toOption.getD q)
    rcases e : q.delay c with err | q'
    · exact h
    · exact keeping.delay q q' c puts h e
  | update old new => exact keeping.update q old new h
  | remove job => exact keeping.remove q job.key h
  | removeKey key => exact keeping.remove q key h
  | pop =>
    show P ((q.pop.toOption.map (·.2)).getD q)
    rcases e : q.pop with err | ⟨c, q'⟩
    · exact h
    · exact keeping.pop q q' c h e
  | flush => exact keeping.flush q now h
  | close => exact keeping.close q h

/-- A queue with the order that its definition asks for, and the times of all queues. -/
def Under (rules : QueueRules) (q : JobQueue) : Prop :=
  QueueSet.orderOf? rules q.definition = some q.order ∧ q.timing = rules.timing

theorem under_of_charter {rules : QueueRules} (same : q'.charter = q.charter) :
    q'.Under rules ↔ q.Under rules := by
  unfold Under
  rw [show q'.definition = q.definition from congrArg Prod.fst same,
    show q'.order = q.order from congrArg (fun c => c.2.1) same,
    show q'.timing = q.timing from congrArg (fun c => c.2.2) same]

end JobQueue

namespace QueueSet

open JobQueue

variable {s t u : QueueSet} {id other : QueueId} {q q' : JobQueue} {d : QueueDef}

/-! ## Queues do not vanish -/

/-- `t` comes from `s`: the queues of `s` are still there, and others were made under its rules. -/
structure Descends (s t : QueueSet) : Prop where
  rules : t.rules = s.rules
  kept : ∀ id q, s.queue? id = some q → ∃ q', t.queue? id = some q' ∧ q'.charter = q.charter
  made : ∀ id q, s.queue? id = none → t.queue? id = some q → q.Under s.rules

theorem Descends.refl (s : QueueSet) : Descends s s :=
  ⟨rfl, fun _ q e => ⟨q, e, rfl⟩, fun _ _ none e => by rw [none] at e; cases e⟩

theorem Descends.trans (h : Descends s t) (h' : Descends t u) : Descends s u := by
  refine ⟨h'.rules.trans h.rules, fun id q e => ?_, fun id q none e => ?_⟩
  · obtain ⟨q', e', same⟩ := h.kept id q e
    obtain ⟨q'', e'', same'⟩ := h'.kept id q' e'
    exact ⟨q'', e'', same'.trans same⟩
  · rcases e' : t.queue? id with _ | q'
    · rw [← h.rules]
      exact h'.made id q e' e
    · obtain ⟨q'', e'', same⟩ := h'.kept id q' e'
      rw [e] at e''
      cases e''
      exact (under_of_charter same).2 (h.made id q' none e')

theorem Descends.under (h : Descends s t) (hs : s.Each (Under s.rules)) :
    t.Each (Under t.rules) := by
  intro id q e
  rw [h.rules]
  rcases e' : s.queue? id with _ | q'
  · exact h.made id q e' e
  · obtain ⟨q'', e'', same⟩ := h.kept id q' e'
    rw [e] at e''
    cases e''
    exact (under_of_charter same).2 (hs id q' e')

/-- A step that changes no queue by more than `f` does, which keeps what it was made with. -/
theorem descends_of_map {f : QueueId → JobQueue → JobQueue} (rules : t.rules = s.rules)
    (mapped : ∀ id, t.queue? id = (s.queue? id).map (f id))
    (keeps : ∀ id q, (f id q).charter = q.charter) : Descends s t := by
  refine ⟨rules, fun id q e => ⟨f id q, by rw [mapped, e]; rfl, keeps id q⟩, fun id q none e => ?_⟩
  rw [mapped, none] at e
  cases e

theorem descends_put (e : s.queue? id = some q) (same : q'.charter = q.charter) :
    Descends s (s.put id q') := by
  obtain ⟨bound, -⟩ := Array.getElem?_eq_some_iff.1 e
  refine ⟨rfl, fun other r e' => ?_, fun other r none e' => ?_⟩
  · rw [queue?_put]
    by_cases h : id = other
    · subst h
      rw [e] at e'
      cases e'
      exact ⟨q', if_pos ⟨rfl, bound⟩, same⟩
    · exact ⟨r, by rw [if_neg (fun both => h both.1), e'], rfl⟩
  · rw [queue?_put] at e'
    split at e'
    · rename_i both
      rw [← both.1, e] at none
      cases none
    · rw [none] at e'
      cases e'

theorem descends_modify {f : JobQueue → JobQueue} (keeps : ∀ q, (f q).charter = q.charter)
    (s : QueueSet) (id : QueueId) : Descends s (s.modify id f) := by
  unfold modify
  rcases e : s.queue? id with _ | q
  · exact .refl s
  · exact descends_put e (keeps q)

theorem descends_map {f : JobQueue → JobQueue} (keeps : ∀ q, (f q).charter = q.charter)
    (s : QueueSet) : Descends s { s with queues := s.queues.map f } :=
  descends_of_map (f := fun _ => f) rfl (fun id => by unfold queue?; rw [Array.getElem?_map])
    fun _ => keeps

theorem descends_closeQueue (s : QueueSet) (id : Option QueueId) :
    Descends s (s.closeQueue id) := by
  cases id with
  | none => exact .refl s
  | some id => exact descends_modify (f := JobQueue.close) (fun _ => rfl) s id

theorem descends_mapNamed {f : JobQueue → JobQueue} (keeps : ∀ q, (f q).charter = q.charter)
    (s : QueueSet) : Descends s (s.mapNamed f) := by
  unfold mapNamed
  exact List.foldlRecOn s.ids.values _ (motive := fun t => Descends s t) (.refl s)
    fun t ht id _ => ht.trans (descends_modify keeps t id)

/-! ## Making queues -/

/-- A queue that was just made: it is open and holds nothing. -/
structure Fresh (rules : QueueRules) (d : QueueDef) (q : JobQueue) : Prop where
  definition : q.definition = d
  under : q.Under rules
  opened : q.closed = false
  ready : q.ready = .empty
  delayed : q.delayed = .empty

theorem Fresh.nothing (fresh : Fresh s.rules d q) (key : String) : q.found key = (none, none) := by
  unfold found
  rw [fresh.ready, fresh.delayed, KeyedHeap.find?_empty]

theorem Fresh.indexed (fresh : Fresh s.rules d q) : q.Indexed := by
  refine ⟨?_, ?_⟩
  · rw [fresh.ready]
    exact KeyedHeap.indexed_empty
  · rw [fresh.delayed]
    exact KeyedHeap.indexed_empty

theorem make_of_unknown (unknown : orderOf? s.rules d = none) :
    ∃ reason, s.make d = .error (.config reason) := by
  unfold make
  rw [unknown]
  exact ⟨_, rfl⟩

theorem make_of_known {order : JobOrder} (known : orderOf? s.rules d = some order) :
    ∃ q, s.make d = .ok (s.queues.size, { s with queues := s.queues.push q }) ∧
      Fresh s.rules d q := by
  unfold make
  rw [known]
  refine ⟨_, rfl, ?_⟩
  split
  · refine ⟨congrArg Prod.fst charter_start, (under_of_charter charter_start).2 ⟨known, rfl⟩,
      ?_, ?_, ?_⟩ <;>
    · unfold JobQueue.start
      split <;> rfl
  · exact ⟨rfl, ⟨known, rfl⟩, rfl, rfl, rfl⟩

theorem make_eq_ok (e : s.make d = .ok (id, t)) :
    ∃ q, id = s.queues.size ∧ t = { s with queues := s.queues.push q } ∧ Fresh s.rules d q := by
  rcases known : orderOf? s.rules d with _ | order
  · obtain ⟨reason, e'⟩ := make_of_unknown known
    rw [e] at e'
    cases e'
  · obtain ⟨q, e', fresh⟩ := make_of_known known
    rw [e] at e'
    cases e'
    exact ⟨q, rfl, rfl, fresh⟩

theorem queue?_push (s : QueueSet) (q : JobQueue) (other : QueueId) :
    ({ s with queues := s.queues.push q } : QueueSet).queue? other =
      if other = s.queues.size then some q else s.queue? other := by
  unfold queue?
  rw [Array.getElem?_push]

theorem queue?_size (s : QueueSet) : s.queue? s.queues.size = none := by
  unfold queue?
  simp

theorem descends_push (under : q.Under s.rules) :
    Descends s { s with queues := s.queues.push q } := by
  refine ⟨rfl, fun id r e => ⟨r, ?_, rfl⟩, fun id r none e => ?_⟩
  · rw [queue?_push, if_neg, e]
    rintro rfl
    rw [queue?_size] at e
    cases e
  · rw [queue?_push] at e
    split at e
    · cases e
      exact under
    · rw [none] at e
      cases e

theorem descends_withIds (s : QueueSet) (ids : NameMap QueueId) : Descends s { s with ids } :=
  ⟨rfl, fun _ q e => ⟨q, e, rfl⟩, fun _ _ none e => by
    rw [show s.queue? _ = some _ from e] at none; cases none⟩

theorem descends_drain (s : QueueSet) (source target : QueueId) :
    Descends s (s.drain source target).2 := by
  unfold drain
  rcases e : s.queue? source with _ | q
  · exact .refl s
  · have emptied : Descends s (s.put source q.takeAll.2) := descends_put e rfl
    dsimp only
    rcases e' : (s.put source q.takeAll.2).queue? target with _ | t
    · exact emptied
    · exact emptied.trans (descends_put e' (onlyHeaps_receiveAll _ _).charter)

theorem add_eq_ok (e : s.add d = .ok t) : ∃ q, Fresh s.rules d q ∧
    t = ({ s with queues := s.queues.push q, ids := s.ids.insert d.name s.queues.size } :
      QueueSet).closeQueue (s.idOf? d.name) := by
  unfold add at e
  rcases made : s.make d with err | ⟨id, u⟩
  · rw [made] at e; cases e
  · rw [made] at e
    obtain ⟨q, rfl, rfl, fresh⟩ := make_eq_ok made
    exact ⟨q, fresh, (Except.ok.inj e).symm⟩

/-- An update registers a new queue, closes the one that had its name, and moves into it what the
queue of the old name held. -/
theorem update_eq_ok {old new : QueueDef} (e : s.update old new = .ok t) :
    ∃ q r, Fresh s.rules new q ∧
      r = ({ s with
        queues := s.queues.push q
        ids := (s.ids.erase old.name).insert new.name s.queues.size } : QueueSet).closeQueue
          ((s.ids.erase old.name).get? new.name) ∧
      (s.idOf? old.name = none ∧ t = r ∨
        ∃ p, s.idOf? old.name = some p ∧
          t = ((r.closeQueue (some p)).drain p s.queues.size).2) := by
  unfold update at e
  rcases made : s.make new with err | ⟨id, u⟩
  · rw [made] at e; cases e
  · rw [made] at e
    obtain ⟨q, rfl, rfl, fresh⟩ := make_eq_ok made
    refine ⟨q, _, fresh, rfl, ?_⟩
    dsimp only [bind, Except.bind] at e
    rcases previous : s.idOf? old.name with _ | p
    · rw [show ({ s with queues := s.queues.push q } : QueueSet).idOf? old.name = none from
        previous] at e
      exact .inl ⟨rfl, (Except.ok.inj e).symm⟩
    · rw [show ({ s with queues := s.queues.push q } : QueueSet).idOf? old.name = some p from
        previous] at e
      exact .inr ⟨p, rfl, (Except.ok.inj e).symm⟩

/-! ## Names -/

/-- Every name leads to a queue of that name. -/
def Named (s : QueueSet) : Prop :=
  ∀ name id, s.idOf? name = some id → ∃ q, s.queue? id = some q ∧ q.name = name

/-- No queue has two names. -/
theorem Named.unique (named : s.Named) {name name' : String} (e : s.idOf? name = some id)
    (e' : s.idOf? name' = some id) : name = name' := by
  obtain ⟨q, there, rfl⟩ := named name id e
  obtain ⟨q', there', rfl⟩ := named name' id e'
  rw [there] at there'
  cases there'
  rfl

theorem Named.ne_size (named : s.Named) {name : String} (e : s.idOf? name = some id) :
    id ≠ s.queues.size := by
  rintro rfl
  obtain ⟨q, there, -⟩ := named name _ e
  rw [queue?_size] at there
  cases there

/-- Names stay good as long as each new one is given to a queue of that name. -/
theorem Named.descends (named : s.Named) (h : Descends s t)
    (ids : ∀ name id, t.idOf? name = some id → s.idOf? name = some id ∨
      ∃ q, t.queue? id = some q ∧ q.name = name) : t.Named := by
  intro name id e
  rcases ids name id e with old | new
  · obtain ⟨q, there, rfl⟩ := named name id old
    obtain ⟨q', there', same⟩ := h.kept id q there
    exact ⟨q', there', congrArg (fun c => c.1.name) same⟩
  · exact new

/-- A new queue that is given its name, whatever other names are dropped or queues closed. -/
theorem named_registered (named : s.Named) (fresh : Fresh s.rules d q) (ids : NameMap QueueId)
    (sub : ∀ name id, ids.get? name = some id → s.idOf? name = some id) (h : Descends
      { s with queues := s.queues.push q, ids := ids.insert d.name s.queues.size } t)
    (same : t.ids = ids.insert d.name s.queues.size) : t.Named := by
  have pushed := descends_push (s := s) fresh.under
  have first : Descends s
      { s with queues := s.queues.push q, ids := ids.insert d.name s.queues.size } :=
    pushed.trans (descends_withIds _ _)
  refine named.descends (first.trans h) fun name id e => ?_
  unfold idOf? at e
  rw [same, NameMap.get?_insert] at e
  split at e
  · rename_i hname
    cases e
    obtain ⟨q', there, kept⟩ := h.kept s.queues.size q
      ((queue?_push s q s.queues.size).trans (if_pos rfl))
    refine .inr ⟨q', there, ?_⟩
    rw [show q'.name = q.name from congrArg (fun c => c.1.name) kept, ← hname, ← fresh.definition]
    rfl
  · exact .inl (sub name id e)

@[simp] theorem ids_modify (s : QueueSet) (id : QueueId) (f : JobQueue → JobQueue) :
    (s.modify id f).ids = s.ids := by
  unfold modify
  split <;> rfl

@[simp] theorem ids_closeQueue (s : QueueSet) (id : Option QueueId) :
    (s.closeQueue id).ids = s.ids := by
  cases id with
  | none => rfl
  | some id => exact ids_modify s id _

@[simp] theorem ids_drain (s : QueueSet) (source target : QueueId) :
    (s.drain source target).2.ids = s.ids := by
  unfold drain
  split
  · rfl
  · dsimp only
    split <;> rfl

@[simp] theorem ids_mapNamed (s : QueueSet) (f : JobQueue → JobQueue) :
    (s.mapNamed f).ids = s.ids := by
  unfold mapNamed
  exact List.foldlRecOn s.ids.values _ (motive := fun t => QueueSet.ids t = s.ids) rfl
    fun t ht id _ => (ids_modify t id f).trans ht

theorem lookup?_eq_some_iff {name : String} :
    s.lookup? name = some (id, q) ↔ s.idOf? name = some id ∧ s.queue? id = some q := by
  constructor
  · intro e
    obtain ⟨id', known, found⟩ := Option.bind_eq_some_iff.1 e
    obtain ⟨q', there, same⟩ := Option.map_eq_some_iff.1 found
    cases same
    exact ⟨known, there⟩
  · rintro ⟨known, there⟩
    exact lookup?_of_idOf? known there

/-- The queues that are visited are those with a name. -/
theorem mem_visited : (id, q) ∈ s.visited ↔ ∃ name, s.lookup? name = some (id, q) := by
  unfold visited byName
  rw [(List.mergeSort_perm _ _).mem_iff, List.mem_filterMap]
  simp only [lookup?_eq_some_iff]
  constructor
  · rintro ⟨id', listed, e⟩
    obtain ⟨q', there, same⟩ := Option.map_eq_some_iff.1 e
    cases same
    obtain ⟨name, known⟩ := NameMap.mem_values.1 listed
    exact ⟨name, known, there⟩
  · rintro ⟨name, known, there⟩
    exact ⟨id, NameMap.mem_values.2 ⟨name, known⟩, by rw [there]; rfl⟩

end QueueSet

/-! ## Runs -/

/-- What may happen to a registry: it is changed, or one of its queues is used, by whoever got hold
of it. -/
inductive RegistryStep where
  | add (d : QueueDef)
  | update (old new : QueueDef)
  | delete (name : String)
  | call (now : Nat) (id : QueueId) (call : QueueCall)
  | drain (source target : QueueId)
  | popNext
  | start
  | cancel
  | close
  | elapse (now span : Nat)

namespace RegistryStep

/-- What a step puts in, if anything, has the property. -/
def Puts (C : Candidate → Prop) : RegistryStep → Prop
  | .call now _ made => made.Puts C now
  | _ => True

theorem puts_of_all {C : Candidate → Prop} (all : ∀ c, C c) (x : RegistryStep) : x.Puts C := by
  cases x with
  | call now id made =>
    cases made with
    | submit job => exact all _
    | delay c => exact all c
    | _ => exact trivial
  | _ => exact trivial

end RegistryStep

namespace QueueSet

open JobQueue

variable {s t : QueueSet}

def step (s : QueueSet) : RegistryStep → QueueSet
  | .add d => (s.add d).toOption.getD s
  | .update old new => (s.update old new).toOption.getD s
  | .delete name => (s.delete name).2
  | .call now id call => s.modify id (call.run now)
  | .drain source target => (s.drain source target).2
  | .popNext => (s.popNext.map (·.2)).getD s
  | .start => s.start
  | .cancel => s.cancel
  | .close => s.close
  | .elapse now span => s.elapse now span

/-- The registry after a run. -/
def after (s : QueueSet) (run : List RegistryStep) : QueueSet := run.foldl step s

theorem descends_step (s : QueueSet) (x : RegistryStep) : Descends s (s.step x) := by
  cases x with
  | add d =>
    show Descends s ((s.add d).toOption.getD s)
    rcases e : s.add d with err | t
    · exact .refl s
    · obtain ⟨q, fresh, rfl⟩ := add_eq_ok e
      exact (descends_push fresh.under).trans
        ((descends_withIds _ _).trans (descends_closeQueue _ _))
  | update old new =>
    show Descends s ((s.update old new).toOption.getD s)
    rcases e : s.update old new with err | t
    · exact .refl s
    · obtain ⟨q, r, fresh, rfl, moved⟩ := update_eq_ok e
      have first := (descends_push (s := s) fresh.under).trans
        ((descends_withIds _ ((s.ids.erase old.name).insert new.name s.queues.size)).trans
          (descends_closeQueue _ ((s.ids.erase old.name).get? new.name)))
      rcases moved with ⟨-, rfl⟩ | ⟨p, -, rfl⟩
      · exact first
      · exact first.trans ((descends_closeQueue _ _).trans (descends_drain _ _ _))
  | delete name =>
    show Descends s (s.delete name).2
    unfold delete
    split
    · exact .refl s
    · rename_i id _
      exact (descends_withIds s (s.ids.erase name)).trans (descends_closeQueue _ (some id))
  | call now id call => exact descends_modify (fun _ => charter_run call now) s id
  | drain source target => exact descends_drain s source target
  | popNext =>
    show Descends s ((s.popNext.map (·.2)).getD s)
    rcases e : s.popNext with _ | ⟨c, t⟩
    · exact .refl s
    · obtain ⟨id, q, q', there, popped, rfl⟩ := popNext_eq_some e
      exact descends_put there (onlyHeaps_pop popped).charter
  | start =>
    have flagged : Descends s { s with running := true } :=
      descends_of_map (f := fun _ q => q) rfl (fun id => by simp [queue?]) (fun _ _ => rfl)
    exact flagged.trans (descends_mapNamed (f := JobQueue.start) (fun _ => charter_start) _)
  | cancel =>
    exact descends_of_map (f := fun _ q => q.stop) rfl
      (fun id => by unfold queue?; exact Array.getElem?_map) (fun _ _ => rfl)
  | close =>
    have cancelled : Descends s ({ s with running := false } : QueueSet).cancel :=
      descends_of_map (f := fun _ q => q.stop) rfl
        (fun id => by unfold queue?; exact Array.getElem?_map) (fun _ _ => rfl)
    exact cancelled.trans (descends_mapNamed (f := JobQueue.close) (fun _ => rfl) _)
  | elapse now span => exact descends_map (fun _ => charter_elapse now span) s

theorem descends_after (s : QueueSet) (run : List RegistryStep) : Descends s (s.after run) := by
  induction run generalizing s with
  | nil => exact .refl s
  | cons x run ih => exact (descends_step s x).trans (ih _)

/-- What every step keeps: the heaps find what they hold, every queue was made under the rules, and
the names are good. -/
structure Sound (s : QueueSet) : Prop where
  indexed : s.Each Indexed
  under : s.Each (Under s.rules)
  named : s.Named

theorem sound_new (rules : QueueRules) : (new rules).Sound := by
  have none : ∀ id, (new rules).queue? id = none := fun id => by simp [queue?, new]
  refine ⟨fun id q e => ?_, fun id q e => ?_, fun name id e => ?_⟩
  · rw [none] at e; cases e
  · rw [none] at e; cases e
  · cases e

section

variable {C : Candidate → Prop} {P : JobQueue → Prop}

theorem each_step (keeping : Keeping C P) (h : s.Each P) {x : RegistryStep} (puts : x.Puts C) :
    (s.step x).Each P := by
  have stable := keeping.toStable
  cases x with
  | add d =>
    show QueueSet.Each P ((s.add d).toOption.getD s)
    rcases e : s.add d with err | t
    · exact h
    · exact h.add stable e
  | update old new =>
    show QueueSet.Each P ((s.update old new).toOption.getD s)
    rcases e : s.update old new with err | t
    · exact h
    · exact h.update stable e
  | delete name => exact h.delete stable name
  | call now id call => exact h.modify (fun q hq => keeping.run hq puts) id
  | drain source target => exact h.drain stable source target
  | popNext =>
    show QueueSet.Each P ((s.popNext.map (·.2)).getD s)
    rcases e : s.popNext with _ | ⟨c, t⟩
    · exact h
    · obtain ⟨id, q, q', there, popped, rfl⟩ := popNext_eq_some e
      exact h.put (keeping.pop q q' c (h id q there) popped) id
  | start => exact h.start stable
  | cancel => exact h.cancel stable
  | close => exact h.close stable
  | elapse now span => exact h.elapse fun q hq => keeping.elapse q now span hq

theorem each_after (keeping : Keeping C P) (h : s.Each P) {run : List RegistryStep}
    (puts : ∀ x ∈ run, x.Puts C) : (s.after run).Each P := by
  induction run generalizing s with
  | nil => exact h
  | cons x run ih =>
    obtain ⟨first, rest⟩ := List.forall_mem_cons.1 puts
    exact ih (each_step keeping h first) rest

theorem each_new (rules : QueueRules) : (new rules).Each P := fun id q e => by
  simp [queue?, new] at e

/-- Every queue of a registry has what lasts. -/
theorem each_of_lasting (lasting : Lasting P) (rules : QueueRules) (run : List RegistryStep) :
    ((new rules).after run).Each P :=
  each_after (lasting.keeping fun _ => True) (each_new rules) fun x _ =>
    x.puts_of_all fun _ => trivial

end

theorem named_step (named : s.Named) (x : RegistryStep) : (s.step x).Named := by
  -- where no name is given, the names are good because queues do not vanish
  have kept : (s.step x).ids = s.ids → (s.step x).Named := fun same =>
    named.descends (descends_step s x) fun name id e => .inl (by unfold idOf? at *; rwa [← same])
  cases x with
  | add d =>
    show ((s.add d).toOption.getD s).Named
    rcases e : s.add d with err | t
    · exact named
    · obtain ⟨q, fresh, rfl⟩ := add_eq_ok e
      exact named_registered named fresh s.ids (fun _ _ e => e) (descends_closeQueue _ _)
        (ids_closeQueue _ _)
  | update old new =>
    show ((s.update old new).toOption.getD s).Named
    rcases e : s.update old new with err | t
    · exact named
    · obtain ⟨q, r, fresh, rfl, moved⟩ := update_eq_ok e
      have sub : ∀ name id, (s.ids.erase old.name).get? name = some id →
          s.idOf? name = some id := by
        intro name id e
        rw [NameMap.get?_erase] at e
        split at e
        · cases e
        · exact e
      rcases moved with ⟨-, rfl⟩ | ⟨p, -, rfl⟩
      · exact named_registered named fresh _ sub (descends_closeQueue _ _) (ids_closeQueue _ _)
      · refine named_registered named fresh _ sub ((descends_closeQueue _ _).trans
          ((descends_closeQueue _ _).trans (descends_drain _ _ _))) ?_
        exact (ids_drain _ _ _).trans ((ids_closeQueue _ _).trans (ids_closeQueue _ _))
  | delete name =>
    refine named.descends (descends_step s (.delete name)) fun other id e => .inl ?_
    change (s.delete name).2.idOf? other = some id at e
    unfold delete at e
    split at e
    · exact e
    · unfold idOf? at e
      rw [ids_closeQueue, NameMap.get?_erase] at e
      split at e
      · cases e
      · exact e
  | call now id call => exact kept (ids_modify s id _)
  | drain source target => exact kept (ids_drain s source target)
  | popNext =>
    refine kept ?_
    show ((s.popNext.map (·.2)).getD s).ids = s.ids
    rcases e : s.popNext with _ | ⟨c, t⟩
    · rfl
    · obtain ⟨id, q, q', -, -, rfl⟩ := popNext_eq_some e
      rfl
  | start => exact kept (ids_mapNamed _ _)
  | cancel => exact kept rfl
  | close => exact kept (ids_mapNamed _ _)
  | elapse now span => exact kept rfl

theorem Sound.step (h : s.Sound) (x : RegistryStep) : (s.step x).Sound :=
  ⟨each_step (lasting_indexed.keeping fun _ => True) h.indexed (x.puts_of_all fun _ => .intro),
    (descends_step s x).under h.under, named_step h.named x⟩

theorem Sound.after (h : s.Sound) (run : List RegistryStep) : (s.after run).Sound := by
  induction run generalizing s with
  | nil => exact h
  | cons x run ih => exact ih (h.step x)

end QueueSet

end JobAdmission
