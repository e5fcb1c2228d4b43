/-
A change of a definition that is made twice. The second time the old name may be gone and the new
one taken, by the queue that holds what was moved: then the update makes a queue that receives
nothing and closes that one, as it would for any queue of a definition that comes anew. So the
second time changes nothing exactly if the definition keeps its name, or there was nothing to move.
-/
import JobAdmission.Proofs.Queue.Redefinition

namespace JobAdmission

namespace JobQueue

open KeyedHeap

/-- A queue holds nothing exactly if it finds nothing under any key. -/
theorem Indexed.takeAll_eq_nil_iff {q : JobQueue} (hi : q.Indexed) :
    q.takeAll.1 = ([], []) ↔ ∀ key, q.found key = (none, none) := by
  have empty_iff : ∀ {h : KeyedHeap Candidate}, h.Indexed →
      (h.toList = [] ↔ ∀ key, h.find? key = none) := by
    intro h hi
    rw [List.eq_nil_iff_forall_not_mem]
    refine ⟨fun none key => hi.find?_eq_none_iff.2 fun c hc => (none c hc).elim,
      fun none c hc => hi.find?_eq_none_iff.1 (none (Keyed.key c)) c hc rfl⟩
  unfold takeAll found
  simp only [Prod.mk.injEq, empty_iff hi.ready, empty_iff hi.delayed, forall_and]

end JobQueue

namespace QueueSet

open JobQueue

variable {s t u : QueueSet} {q p : JobQueue} {old new : QueueDef}

/-- What each name leads to holds the same in `t` as in `s`, heap by heap. -/
def HoldsAlike (s t : QueueSet) : Prop := ∀ name,
  (t.heldUnder name).1.Perm (s.heldUnder name).1 ∧ (t.heldUnder name).2.Perm (s.heldUnder name).2

theorem heldUnder_congr {name : String} (same : t.lookup? name = s.lookup? name) :
    t.heldUnder name = s.heldUnder name := by
  unfold heldUnder
  rw [same]

theorem heldUnder_of_unknown {name : String} (unknown : s.lookup? name = none) :
    s.heldUnder name = ([], []) := by
  unfold heldUnder
  rw [unknown]
  rfl

/-- What is held under a name some queue holds whose heaps find it. -/
theorem Sound.heldUnder_eq (sound : s.Sound) (name : String) :
    ∃ p : JobQueue, p.Indexed ∧ s.heldUnder name = p.takeAll.1 := by
  unfold heldUnder
  rcases found : s.lookup? name with _ | ⟨id, p⟩
  · exact ⟨.new (QueueDef.new name 0) (fun _ _ => false) .standard false, indexed_new _ _ _ _, rfl⟩
  · exact ⟨p, sound.indexed id p (lookup?_eq_some_iff.1 found).2, rfl⟩

theorem Fresh.sound {d : QueueDef} (fresh : Fresh s.rules d q) : q.Sound := by
  refine ⟨fresh.indexed, fun key both => ?_⟩
  rw [fresh.ready, contains_empty] at both
  cases both.1

theorem Fresh.takeAll {d : QueueDef} (fresh : Fresh s.rules d q) : q.takeAll.1 = ([], []) :=
  Prod.ext (congrArg KeyedHeap.toList fresh.ready) (congrArg KeyedHeap.toList fresh.delayed)

/-- A queue that holds nothing holds nothing after a delivery only if nothing was delivered. -/
theorem Fresh.receiveAll_eq_nil_iff {d : QueueDef} (fresh : Fresh s.rules d q) (hp : p.Indexed) :
    (q.receiveAll p.takeAll.1).2.takeAll.1 = ([], []) ↔ p.takeAll.1 = ([], []) := by
  obtain ⟨-, -, -, found⟩ := found_receiveAll hp fresh.indexed fresh.opened fresh.nothing
  have received := fresh.sound.receiveAll p.takeAll.1
  rw [received.toIndexed.takeAll_eq_nil_iff, hp.takeAll_eq_nil_iff]
  refine forall_congr' fun key => ?_
  rw [found]
  rcases p.found key with ⟨_ | _, _ | _⟩ <;> simp

/-! ## What is held after an update -/

/-- The queue that an update makes holds what it received. -/
theorem Named.heldUnder_new (named : s.Named) (e : s.update old new = .ok t) :
    ∃ q, Fresh s.rules new q ∧
      t.heldUnder new.name = (q.receiveAll (s.heldUnder old.name)).2.takeAll.1 := by
  obtain ⟨q, fresh, found⟩ := named.lookup?_new e
  refine ⟨q, fresh, ?_⟩
  unfold heldUnder
  rw [found]
  rcases s.lookup? old.name with _ | ⟨id, r⟩ <;> rfl

/-- A name that was given up leads nowhere. -/
theorem Named.idOf?_old (named : s.Named) (e : s.update old new = .ok t)
    (renamed : old.name ≠ new.name) : t.idOf? old.name = none := by
  obtain ⟨-, -, ids, -⟩ := queue?_update named e
  unfold idOf?
  rw [ids, NameMap.get?_insert, if_neg (Ne.symm renamed), NameMap.get?_erase, if_pos rfl]

theorem Named.lookup?_old (named : s.Named) (e : s.update old new = .ok t)
    (renamed : old.name ≠ new.name) : t.lookup? old.name = none :=
  lookup?_of_unknown (named.idOf?_old e renamed)

/-! ## Twice -/

/-- The second time no name but the new one leads elsewhere. -/
theorem Named.lookup?_of_update_twice (named : s.Named) (e : s.update old new = .ok t)
    (named' : t.Named) (e' : t.update old new = .ok u) {name : String} (hn : name ≠ new.name) :
    u.lookup? name = t.lookup? name := by
  by_cases ho : name = old.name
  · subst ho
    rw [named.lookup?_old e hn, named'.lookup?_old e' hn]
  · exact named'.lookup?_of_update e' ho hn

/-- So what is held is the same for all names if it is for the new one. -/
theorem Named.holdsAlike_of_new (named : s.Named) (e : s.update old new = .ok t)
    (named' : t.Named) (e' : t.update old new = .ok u)
    (alike : (u.heldUnder new.name).1.Perm (t.heldUnder new.name).1 ∧
      (u.heldUnder new.name).2.Perm (t.heldUnder new.name).2) : HoldsAlike t u := by
  intro name
  by_cases hn : name = new.name
  · subst hn
    exact alike
  · rw [heldUnder_congr (named.lookup?_of_update_twice e named' e' hn)]
    exact ⟨.refl _, .refl _⟩

/-- An update that keeps the name moves the second time what it moved the first time. -/
theorem Sound.holdsAlike_of_same_name (sound : s.Sound) (e : s.update old new = .ok t)
    (sound' : t.Sound) (e' : t.update old new = .ok u) (same : old.name = new.name) :
    HoldsAlike t u := by
  refine sound.named.holdsAlike_of_new e sound'.named e' ?_
  obtain ⟨q, fresh, first⟩ := sound.named.heldUnder_new e
  obtain ⟨q', fresh', second⟩ := sound'.named.heldUnder_new e'
  -- what the first queue received is in one heap a key, so all of it is received again
  have received := fresh.sound.receiveAll (s.heldUnder old.name)
  obtain ⟨ready, delayed, moved, pr, pd⟩ := perm_receiveAll received.toIndexed received.oneHeap
    fresh'.indexed fresh'.opened fresh'.nothing
  rw [second, same, first, moved]
  exact ⟨pr, pd⟩

/-- An update to another name finds nothing to move the second time. -/
theorem Sound.heldUnder_new_of_renamed (sound : s.Sound) (e : s.update old new = .ok t)
    (sound' : t.Sound) (e' : t.update old new = .ok u) (renamed : old.name ≠ new.name) :
    u.heldUnder new.name = ([], []) := by
  obtain ⟨q', fresh', second⟩ := sound'.named.heldUnder_new e'
  rw [second, heldUnder_of_unknown (sound.named.lookup?_old e renamed)]
  exact fresh'.takeAll

/-- An update whose old name leads nowhere makes a queue that receives nothing, and closes the one
that the new name led to. -/
theorem Named.replaced_of_unknown {id : QueueId} (named : s.Named)
    (unknown : s.idOf? old.name = none) (e : s.update old new = .ok t)
    (previous : s.lookup? new.name = some (id, p)) :
    ∃ id' q, t.lookup? new.name = some (id', q) ∧ Fresh s.rules new q ∧ id' ≠ id ∧
      t.queue? id = some p.close := by
  obtain ⟨known, there⟩ := lookup?_eq_some_iff.1 previous
  obtain ⟨q, fresh, found⟩ := named.lookup?_new e
  rw [lookup?_of_unknown unknown] at found
  refine ⟨_, q, found, fresh, (named.ne_size known).symm, ?_⟩
  obtain ⟨-, -, -, -, -, others⟩ := queue?_update named e
  have shadowed : (s.ids.erase old.name).get? new.name = some id := by
    have distinct : old.name ≠ new.name := fun same => by
      rw [same] at unknown
      cases unknown.symm.trans known
    rw [NameMap.get?_erase, if_neg distinct]
    exact known
  rw [others id (named.ne_size known) (by simp [unknown]), if_pos shadowed, there]
  rfl

theorem Sound.holdsAlike_of_renamed_iff (sound : s.Sound) (e : s.update old new = .ok t)
    (sound' : t.Sound) (e' : t.update old new = .ok u) (renamed : old.name ≠ new.name) :
    HoldsAlike t u ↔ s.heldUnder old.name = ([], []) := by
  have emptied := sound.heldUnder_new_of_renamed e sound' e' renamed
  obtain ⟨q, fresh, first⟩ := sound.named.heldUnder_new e
  obtain ⟨p, hp, held⟩ := sound.heldUnder_eq old.name
  have nothing : t.heldUnder new.name = ([], []) ↔ s.heldUnder old.name = ([], []) := by
    rw [first, held]
    exact fresh.receiveAll_eq_nil_iff hp
  rw [← nothing]
  constructor
  · intro alike
    obtain ⟨ready, delayed⟩ := alike new.name
    rw [emptied] at ready delayed
    exact Prod.ext (List.nil_perm.1 ready) (List.nil_perm.1 delayed)
  · intro none
    refine sound.named.holdsAlike_of_new e sound'.named e' ?_
    rw [emptied, none]
    exact ⟨.refl _, .refl _⟩

/-- What a second update from one definition to another does to the registry `t` that the first one
left behind of `s`. -/
structure RedefinedTwice (s t u : QueueSet) (old new : QueueDef) : Prop where
  names : ∀ name, name ∈ u.names ↔ name ∈ t.names
  others : ∀ name, name ≠ new.name → u.lookup? name = t.lookup? name
  /-- It leaves the same held, heap by heap, exactly if nothing is done, or the queue keeps its
  name, or there was nothing to move. -/
  alike_iff : HoldsAlike t u ↔ orderOf? s.rules new = none ∨ old.name = new.name ∨
    s.heldUnder old.name = ([], [])
  emptied : orderOf? s.rules new ≠ none → old.name ≠ new.name → u.heldUnder new.name = ([], [])
  /-- Then the new name leads to an open queue that holds nothing, and the one to which it led
  before is closed, with all it held. -/
  replaced : orderOf? s.rules new ≠ none → old.name ≠ new.name →
    ∃ id p, t.lookup? new.name = some (id, p) ∧ ∃ id' q, u.lookup? new.name = some (id', q) ∧
      Fresh s.rules new q ∧ id' ≠ id ∧ u.queue? id = some p.close

theorem step_update_of_unknown (unknown : orderOf? s.rules new = none) (old : QueueDef) :
    s.step (.update old new) = s := by
  obtain ⟨reason, e⟩ := update_of_unknown unknown old
  show (s.update old new).toOption.getD s = s
  rw [e]
  rfl

theorem step_update_of_known {order : JobOrder} (known : orderOf? s.rules new = some order)
    (old : QueueDef) : s.update old new = .ok (s.step (.update old new)) := by
  obtain ⟨t, e⟩ := update_of_known known old
  show _ = Except.ok ((s.update old new).toOption.getD s)
  rw [e]
  rfl

theorem Sound.redefined_twice (sound : s.Sound) (old new : QueueDef) :
    let t := s.step (.update old new)
    s.RedefinedTwice t (t.step (.update old new)) old new := by
  intro t
  have rules : t.rules = s.rules := (s.descends_step (.update old new)).rules
  rcases known : orderOf? s.rules new with _ | order
  · rw [step_update_of_unknown (rules ▸ known), show t = s from step_update_of_unknown known old]
    exact {
      names := fun _ => Iff.rfl
      others := fun _ _ => rfl
      alike_iff := iff_of_true (fun _ => ⟨.refl _, .refl _⟩) (.inl known)
      emptied := fun refused => absurd known refused
      replaced := fun refused => absurd known refused }
  · have e : s.update old new = .ok t := step_update_of_known known old
    have e' := step_update_of_known (s := t) (rules ▸ known) old
    have sound' : t.Sound := sound.step _
    constructor
    case names =>
      intro name
      rw [sound'.named.mem_names_of_update e', sound.named.mem_names_of_update e]
      tauto
    case others => exact fun name => sound.named.lookup?_of_update_twice e sound'.named e'
    case alike_iff =>
      by_cases renamed : old.name = new.name
      · simp [renamed, sound.holdsAlike_of_same_name e sound' e' renamed]
      · simp [known, renamed, sound.holdsAlike_of_renamed_iff e sound' e' renamed]
    case emptied => exact fun _ => sound.heldUnder_new_of_renamed e sound' e'
    case replaced =>
      intro _ renamed
      obtain ⟨_, -, previous⟩ := sound.named.lookup?_new e
      have unknown := sound.named.idOf?_old e renamed
      exact ⟨_, _, previous, rules ▸ sound'.named.replaced_of_unknown unknown e' previous⟩

end QueueSet

end JobAdmission
