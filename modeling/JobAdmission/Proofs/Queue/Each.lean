/-
Properties that every queue of a set has. A property is kept by an operation of the set if it is
kept by what the operation does to a single queue, and so are properties of the set as a whole that
speak of one queue at a time.
-/
import JobAdmission.Queue.Set

namespace JobAdmission.QueueSet

/-- Every queue ever made has the property, with a name or without. -/
def Each (P : JobQueue → Prop) (s : QueueSet) : Prop := ∀ id q, s.queue? id = some q → P q

variable {P : JobQueue → Prop} {s : QueueSet}

theorem queue?_put (s : QueueSet) (id other : QueueId) (q : JobQueue) :
    (s.put id q).queue? other =
      if id = other ∧ id < s.queues.size then some q else s.queue? other := by
  unfold queue? put
  rw [Array.getElem?_setIfInBounds]
  by_cases h : id = other
  · subst h
    by_cases hs : id < s.queues.size <;> simp [hs]
  · simp [h]

theorem lookup?_of_unknown {s : QueueSet} {name : String} (unknown : s.idOf? name = none) :
    s.lookup? name = none := by
  unfold lookup?
  rw [unknown]
  rfl

theorem lookup?_of_idOf? {s : QueueSet} {name : String} {id : QueueId} {q : JobQueue}
    (named : s.idOf? name = some id) (there : s.queue? id = some q) :
    s.lookup? name = some (id, q) := by
  unfold lookup?
  rw [named, Option.bind_some, there]
  rfl

/-- A name leads to what was put in the place of its queue. -/
theorem lookup?_put {s : QueueSet} {name : String} {id : QueueId} {q : JobQueue}
    (found : s.lookup? name = some (id, q)) (q' : JobQueue) :
    (s.put id q').lookup? name = some (id, q') := by
  obtain ⟨id', named, found⟩ := Option.bind_eq_some_iff.1 found
  obtain ⟨_, at_id, e⟩ := Option.map_eq_some_iff.1 found
  cases e
  obtain ⟨bound, _⟩ := Array.getElem?_eq_some_iff.1 at_id
  refine lookup?_of_idOf? named ?_
  rw [queue?_put, if_pos ⟨rfl, bound⟩]

theorem queue?_modify (s : QueueSet) (id other : QueueId) (f : JobQueue → JobQueue) :
    (s.modify id f).queue? other =
      if id = other then (s.queue? other).map f else s.queue? other := by
  unfold modify
  rcases e : s.queue? id with _ | q
  · by_cases h : id = other
    · subst h
      simp [e]
    · simp [h]
  · obtain ⟨hs, _⟩ := Array.getElem?_eq_some_iff.1 e
    dsimp only
    rw [queue?_put]
    by_cases h : id = other
    · subst h
      simp [hs, e]
    · simp [h]

theorem Each.put (h : s.Each P) {q : JobQueue} (hq : P q) (id : QueueId) : (s.put id q).Each P := by
  intro other q' e
  rw [queue?_put] at e
  split at e
  · cases e; exact hq
  · exact h other q' e

theorem Each.modify (h : s.Each P) {f : JobQueue → JobQueue} (hf : ∀ q, P q → P (f q))
    (id : QueueId) : (s.modify id f).Each P := by
  intro other q e
  rw [queue?_modify] at e
  split at e
  · obtain ⟨q', e', rfl⟩ := Option.map_eq_some_iff.1 e
    exact hf q' (h other q' e')
  · exact h other q e

theorem Each.map (h : s.Each P) {f : JobQueue → JobQueue} (hf : ∀ q, P q → P (f q)) :
    ({ s with queues := s.queues.map f } : QueueSet).Each P := by
  intro id q e
  unfold queue? at e
  rw [Array.getElem?_map] at e
  obtain ⟨q', e', rfl⟩ := Option.map_eq_some_iff.1 e
  exact hf q' (h id q' e')

/-- A property that a new queue has, and that starting, stopping, closing and moving keep. -/
structure Stable (P : JobQueue → Prop) : Prop where
  new : ∀ d order timing stopped, P (.new d order timing stopped)
  start : ∀ q, P q → P q.start
  stop : ∀ q, P q → P q.stop
  close : ∀ q, P q → P q.close
  takeAll : ∀ q, P q → P q.takeAll.2
  receiveAll : ∀ q t, P q → P t → P (t.receiveAll q.takeAll.1).2

/-! ## Moving -/

/-- Moving touches two queues: the first is emptied, the second receives what the first held. -/
theorem Each.drain (h : s.Each P) (stable : Stable P) (source target : QueueId) :
    (s.drain source target).2.Each P := by
  unfold QueueSet.drain
  rcases e : s.queue? source with _ | q
  · exact h
  · have hq := h source q e
    have emptied : (s.put source q.takeAll.2).Each P := h.put (stable.takeAll q hq) source
    dsimp only
    rcases e' : (s.put source q.takeAll.2).queue? target with _ | t
    · exact emptied
    · exact emptied.put (stable.receiveAll q t hq (emptied target t e')) target

/-! ## Names -/

/-- The names of the queues do not matter. -/
theorem Each.withIds (h : s.Each P) (ids : NameMap QueueId) :
    ({ s with ids } : QueueSet).Each P := h

theorem Each.closeQueue (h : s.Each P) (stable : Stable P) (id : Option QueueId) :
    (s.closeQueue id).Each P := by
  cases id with
  | none => exact h
  | some id => exact h.modify stable.close id

theorem Each.make (h : s.Each P) (stable : Stable P) {d : QueueDef} {id : QueueId} {s' : QueueSet}
    (e : s.make d = .ok (id, s')) : s'.Each P := by
  unfold QueueSet.make at e
  split at e
  · cases e
  · rename_i order _
    have fresh := stable.new d order s.rules.timing s.cancelled
    have started := stable.start _ fresh
    cases e
    intro other q e
    unfold queue? at e
    rw [Array.getElem?_push] at e
    split at e
    · cases e
      split
      · exact started
      · exact fresh
    · exact h other q e

theorem Each.add (h : s.Each P) (stable : Stable P) {d : QueueDef} {s' : QueueSet}
    (e : s.add d = .ok s') : s'.Each P := by
  unfold QueueSet.add at e
  rcases made : s.make d with err | ⟨id, t⟩
  · rw [made] at e; cases e
  · rw [made] at e
    cases e
    exact ((h.make stable made).withIds _).closeQueue stable _

theorem Each.update (h : s.Each P) (stable : Stable P) {old new : QueueDef} {s' : QueueSet}
    (e : s.update old new = .ok s') : s'.Each P := by
  unfold QueueSet.update at e
  rcases made : s.make new with err | ⟨id, t⟩
  · rw [made] at e; cases e
  · rw [made] at e
    have shadowed : ∀ ids id', (({ t with ids } : QueueSet).closeQueue id').Each P := fun ids id' =>
      ((h.make stable made).withIds ids).closeQueue stable id'
    dsimp only [bind, Except.bind] at e
    split at e
    · cases e
      exact shadowed _ _
    · cases e
      exact ((shadowed _ _).closeQueue stable _).drain stable _ _

theorem Each.delete (h : s.Each P) (stable : Stable P) (name : String) :
    (s.delete name).2.Each P := by
  unfold QueueSet.delete
  split
  · exact h
  · exact (h.withIds _).closeQueue stable _

/-! ## All queues at once -/

theorem Each.mapNamed (h : s.Each P) {f : JobQueue → JobQueue} (hf : ∀ q, P q → P (f q)) :
    (s.mapNamed f).Each P := by
  unfold QueueSet.mapNamed
  exact List.foldlRecOn s.ids.values _ (motive := fun s => QueueSet.Each P s) h
    fun s hs id _ => hs.modify hf id

theorem Each.start (h : s.Each P) (stable : Stable P) : s.start.Each P :=
  Each.mapNamed (s := { s with running := true }) h stable.start

theorem Each.cancel (h : s.Each P) (stable : Stable P) : s.cancel.Each P :=
  h.map stable.stop

theorem Each.elapse (h : s.Each P) {now span : Nat} (hf : ∀ q, P q → P (q.elapse now span)) :
    (s.elapse now span).Each P :=
  h.map hf

/-- What is taken next comes from a queue, which is put back without it. -/
theorem popNext_eq_some {c : Candidate} {t : QueueSet} (e : s.popNext = some (c, t)) :
    ∃ id q q', s.queue? id = some q ∧ q.pop = .ok (c, q') ∧ t = s.put id q' := by
  unfold popNext at e
  obtain ⟨⟨id, q⟩, hm, e⟩ := List.exists_of_findSome?_eq_some e
  have hm : (id, q) ∈ s.byName := (List.mergeSort_perm s.byName s.mayPrecede).mem_iff.1 hm
  obtain ⟨id', -, e'⟩ := List.mem_filterMap.1 hm
  obtain ⟨q', there, same⟩ := Option.map_eq_some_iff.1 e'
  cases same
  dsimp only at e
  split at e
  · rename_i c' q'' popped
    cases e
    exact ⟨id, q, q'', there, popped, rfl⟩
  · cases e

/-- What is popped comes from one queue of the set. -/
theorem Each.popNext (h : s.Each P) {Q : Candidate → Prop}
    (hpop : ∀ q c q', P q → q.pop = .ok (c, q') → P q' ∧ Q c) {c : Candidate} {s' : QueueSet}
    (e : s.popNext = some (c, s')) : s'.Each P ∧ Q c := by
  obtain ⟨id, q, q', there, popped, rfl⟩ := popNext_eq_some e
  obtain ⟨hq', hc⟩ := hpop q c q' (h id q there) popped
  exact ⟨h.put hq' id, hc⟩

/-! ## From one queue to its next version -/

/-- What may become of a queue, one thing after the other, where jobs are taken out and moved. -/
structure Tracks (R : JobQueue → JobQueue → Prop) : Prop where
  refl : ∀ q, R q q
  trans : ∀ q q' q'', R q q' → R q' q'' → R q q''
  takeAll : ∀ q, R q q.takeAll.2
  receiveAll : ∀ q held, R q (q.receiveAll held).2
  pop : ∀ q c q', q.pop = .ok (c, q') → R q q'

/-- From `s` to `t` every queue has changed by `R`, and nothing else has. -/
structure Along (R : JobQueue → JobQueue → Prop) (s t : QueueSet) : Prop where
  only : t = { s with queues := t.queues }
  queues : ∀ id q', t.queue? id = some q' → ∃ q, s.queue? id = some q ∧ R q q'

section

variable {R : JobQueue → JobQueue → Prop} {t u : QueueSet} {id : QueueId} {q q' : JobQueue}

theorem Along.refl (tracks : Tracks R) (s : QueueSet) : Along R s s :=
  ⟨rfl, fun _ q e => ⟨q, e, tracks.refl q⟩⟩

theorem Along.trans (tracks : Tracks R) (h : Along R s t) (h' : Along R t u) : Along R s u := by
  constructor
  · have := h'.only
    rw [h.only] at this
    exact this
  · intro id q'' e
    obtain ⟨q', e', r'⟩ := h'.queues id q'' e
    obtain ⟨q, there, r⟩ := h.queues id q' e'
    exact ⟨q, there, tracks.trans q q' q'' r r'⟩

theorem along_put (tracks : Tracks R) (there : s.queue? id = some q) (r : R q q') :
    Along R s (s.put id q') := by
  refine ⟨rfl, fun other r' e => ?_⟩
  rw [queue?_put] at e
  split at e
  · rename_i same
    cases e
    exact ⟨q, same.1 ▸ there, r⟩
  · exact ⟨r', e, tracks.refl r'⟩

theorem along_modify (tracks : Tracks R) {f : JobQueue → JobQueue} (hf : ∀ q, R q (f q))
    (s : QueueSet) (id : QueueId) : Along R s (s.modify id f) := by
  unfold modify
  rcases there : s.queue? id with _ | q
  · exact .refl tracks s
  · exact along_put tracks there (hf q)

theorem along_map {f : JobQueue → JobQueue} (hf : ∀ q, R q (f q)) (s : QueueSet) :
    Along R s { s with queues := s.queues.map f } := by
  refine ⟨rfl, fun id q' e => ?_⟩
  unfold queue? at e
  rw [Array.getElem?_map] at e
  obtain ⟨q, there, rfl⟩ := Option.map_eq_some_iff.1 e
  exact ⟨q, there, hf q⟩

theorem along_mapNamed (tracks : Tracks R) {f : JobQueue → JobQueue} (hf : ∀ q, R q (f q))
    (s : QueueSet) : Along R s (s.mapNamed f) := by
  unfold mapNamed
  exact List.foldlRecOn s.ids.values _ (motive := fun t => Along R s t) (.refl tracks s)
    fun t ht id _ => ht.trans tracks (along_modify tracks hf t id)

theorem along_closeQueue (tracks : Tracks R) (close : ∀ q : JobQueue, R q q.close) (s : QueueSet)
    (id : Option QueueId) : Along R s (s.closeQueue id) := by
  cases id with
  | none => exact .refl tracks s
  | some id => exact along_modify tracks close s id

theorem along_drain (tracks : Tracks R) (s : QueueSet) (source target : QueueId) :
    Along R s (s.drain source target).2 := by
  unfold drain
  rcases there : s.queue? source with _ | q
  · exact .refl tracks s
  · have emptied : Along R s (s.put source q.takeAll.2) := along_put tracks there (tracks.takeAll q)
    dsimp only
    rcases there' : (s.put source q.takeAll.2).queue? target with _ | q'
    · exact emptied
    · exact emptied.trans tracks (along_put tracks there' (tracks.receiveAll q' _))

theorem along_popNext (tracks : Tracks R) (s : QueueSet) :
    Along R s ((s.popNext.map (·.2)).getD s) := by
  rcases e : s.popNext with _ | ⟨c, t⟩
  · exact .refl tracks s
  · obtain ⟨id, q, q', there, popped, rfl⟩ := popNext_eq_some e
    exact along_put tracks there (tracks.pop q c q' popped)

end

end JobAdmission.QueueSet
