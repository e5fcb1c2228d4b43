/-
The heap behaves as a finite map from keys to items, whatever the comparison. `MapStep` says what
such a map does on each call, with no order in it: any item may come out of a pop, and a drain may
list the items in any order. Every run of a heap gives the answers of a run of the map, and ends in
a heap that answers every look-up as the map does.
-/
import JobAdmission.NameMap
import JobAdmission.Proofs.Heap.Calls
import JobAdmission.Proofs.NameMap

namespace JobAdmission

variable {α : Type} [Keyed α]

/-! ## The map -/

/-- What a finite map answers to a call, and the map after it. -/
inductive MapStep (m : NameMap α) : HeapCall α → HeapAnswer α → NameMap α → Prop where
  | push {a : α} (free : m.get? (Keyed.key a) = none) :
      MapStep m (.push a) .done (m.insert (Keyed.key a) a)
  | pushHeld {a b : α} (held : m.get? (Keyed.key a) = some b) :
      MapStep m (.push a) (.refused (.duplicateKey (Keyed.key a))) m
  | update {a b : α} (held : m.get? (Keyed.key a) = some b) :
      MapStep m (.update a) .done (m.insert (Keyed.key a) a)
  | updateFree {a : α} (free : m.get? (Keyed.key a) = none) :
      MapStep m (.update a) (.refused (.notFound (Keyed.key a))) m
  | remove {a b : α} (held : m.get? (Keyed.key a) = some b) :
      MapStep m (.remove a) (.item b) (m.erase (Keyed.key a))
  | removeFree {a : α} (free : m.get? (Keyed.key a) = none) :
      MapStep m (.remove a) (.refused (.notFound (Keyed.key a))) m
  | removeKey {key : String} {b : α} (held : m.get? key = some b) :
      MapStep m (.removeKey key) (.item b) (m.erase key)
  | removeKeyFree {key : String} (free : m.get? key = none) :
      MapStep m (.removeKey key) (.refused (.notFound key)) m
  | pop {a : α} (held : m.get? (Keyed.key a) = some a) :
      MapStep m .pop (.item a) (m.erase (Keyed.key a))
  | popNothing (nothing : m.size = 0) : MapStep m .pop (.refused .empty) m
  | drain {all : List α} (perm : all.Perm m.values) : MapStep m .drain (.items all) .empty

/-- What a finite map answers to a list of calls. -/
inductive MapRun : NameMap α → List (HeapCall α) → List (HeapAnswer α) → NameMap α → Prop where
  | nil {m : NameMap α} : MapRun m [] [] m
  | cons {m m' m'' : NameMap α} {c : HeapCall α} {r : HeapAnswer α} {calls : List (HeapCall α)}
      {answers : List (HeapAnswer α)} (first : MapStep m c r m')
      (rest : MapRun m' calls answers m'') : MapRun m (c :: calls) (r :: answers) m''

namespace KeyedHeap

variable {h h' : KeyedHeap α} {m : NameMap α} {a : α}

/-- The heap finds what it holds, and what it finds is what the map holds. -/
structure Shows (h : KeyedHeap α) (m : NameMap α) : Prop where
  indexed : h.Indexed
  find : ∀ key, h.find? key = m.get? key

theorem shows_empty : (empty : KeyedHeap α).Shows .empty := by
  refine ⟨indexed_empty, fun key => ?_⟩
  rw [indexed_empty.find?_eq_none_iff.2 (by simp [toList, empty]), NameMap.get?_empty]

/-! ## What a heap and its map have in common -/

theorem Shows.key_of_get? (hs : h.Shows m) {key : String} (e : m.get? key = some a) :
    a ∈ h.toList ∧ Keyed.key a = key := by
  rw [← hs.find] at e
  exact hs.indexed.find?_eq_some_iff.1 e

theorem Shows.get?_of_mem (hs : h.Shows m) (ha : a ∈ h.toList) :
    m.get? (Keyed.key a) = some a := by
  rw [← hs.find]
  exact hs.indexed.find?_eq_some_iff.2 ⟨ha, rfl⟩

theorem Shows.contains (hs : h.Shows m) (key : String) : h.contains key = m.contains key := by
  rw [hs.indexed.contains_eq, hs.find]
  rfl

theorem Shows.perm_values (hs : h.Shows m) : h.toList.Perm m.values := by
  have keys : m.values.map Keyed.key = m.names := by
    unfold NameMap.values NameMap.names
    rw [List.map_map]
    refine List.map_congr_left fun e he => ?_
    exact (hs.key_of_get? (NameMap.get?_eq_some_iff.2 he)).2
  have nodup : m.values.Nodup := List.Nodup.of_map Keyed.key (keys ▸ m.nodup_names)
  refine (List.perm_ext_iff_of_nodup (List.Nodup.of_map _ hs.indexed.keys_nodup) nodup).2
    fun a => ?_
  rw [NameMap.mem_values]
  constructor
  · intro ha
    exact ⟨_, hs.get?_of_mem ha⟩
  · rintro ⟨key, e⟩
    exact (hs.key_of_get? e).1

theorem Shows.size (hs : h.Shows m) : h.size = m.size := by
  have := hs.perm_values.length_eq
  unfold NameMap.values at this
  rw [List.length_map] at this
  rw [← show h.toList.length = h.size from Array.length_toList]
  exact this

/-- The index leads to a slot exactly if the slot is in use and its item has the key. -/
theorem Indexed.slot_iff (hi : h.Indexed) (key : String) (slot : Nat) :
    h.index[key]? = some slot ↔ ∃ hs : slot < h.items.size, Keyed.key h.items[slot] = key := by
  rw [hi key slot, Option.map_eq_some_iff]
  constructor
  · rintro ⟨a, ha, hk⟩
    obtain ⟨hs, rfl⟩ := Array.getElem?_eq_some_iff.1 ha
    exact ⟨hs, hk⟩
  · rintro ⟨hs, hk⟩
    exact ⟨_, Array.getElem?_eq_getElem hs, hk⟩

/-! ## One call -/

theorem Shows.added (hs : h.Shows m) (hi' : h'.Indexed) (p : h'.toList.Perm (a :: h.toList)) :
    h'.Shows (m.insert (Keyed.key a) a) := by
  refine ⟨hi', fun key => ?_⟩
  rw [hs.indexed.find?_of_added hi' p, NameMap.get?_insert, hs.find]

theorem Shows.taken (hs : h.Shows m) (hi' : h'.Indexed) (p : h.toList.Perm (a :: h'.toList)) :
    h'.Shows (m.erase (Keyed.key a)) := by
  refine ⟨hi', fun key => ?_⟩
  rw [hs.indexed.find?_of_taken hi' p, NameMap.get?_erase, hs.find]

theorem Shows.replaced {old : α} {rest : List α} (hs : h.Shows m) (hi' : h'.Indexed)
    (hk : Keyed.key old = Keyed.key a) (p : h.toList.Perm (old :: rest))
    (p' : h'.toList.Perm (a :: rest)) : h'.Shows (m.insert (Keyed.key a) a) := by
  refine ⟨hi', fun key => ?_⟩
  rw [hs.indexed.find?_of_replaced hi' hk p p', NameMap.get?_insert, hs.find]

/-- A removal takes the item out that the map holds, or is refused as by the map. -/
theorem Shows.remove (less : α → α → Bool) (hs : h.Shows m) (key : String) :
    (∃ b h', h.remove less key = .ok (b, h') ∧ m.get? key = some b ∧ h'.Shows (m.erase key)) ∨
      (m.get? key = none ∧ h.remove less key = .error (.notFound key)) := by
  rcases hf : h.find? key with _ | b
  · rw [← hs.find]
    exact .inr ⟨hf, remove_of_find?_none less hs.indexed hf⟩
  · obtain ⟨h', e, hi', p⟩ := remove_spec less hs.indexed hf
    have taken := hs.taken hi' p
    rw [(hs.indexed.find?_eq_some_iff.1 hf).2] at taken
    exact .inl ⟨b, h', e, by rw [← hs.find, hf], taken⟩

/-- One call on a heap is one step of the map. -/
theorem Shows.call (less : α → α → Bool) (hs : h.Shows m) (c : HeapCall α) :
    ∃ m', MapStep m c (h.call less c).1 m' ∧ (h.call less c).2.Shows m' := by
  cases c with
  | push a =>
    simp only [KeyedHeap.call]
    cases hc : h.contains (Keyed.key a) with
    | true =>
      rw [push_of_contains hc]
      rw [hs.contains] at hc
      obtain ⟨b, hb⟩ := Option.isSome_iff_exists.1 hc
      exact ⟨m, .pushHeld hb, hs⟩
    | false =>
      obtain ⟨h', e, hi', p⟩ := push_spec less hs.indexed hc
      rw [e]
      rw [hs.contains] at hc
      exact ⟨_, .push (by simpa [NameMap.contains] using hc), hs.added hi' p⟩
  | update a =>
    simp only [KeyedHeap.call]
    rcases hf : h.find? (Keyed.key a) with _ | old
    · have refused : h.update less a = .error (.notFound (Keyed.key a)) :=
        update_of_find?_none less hs.indexed hf
      rw [refused]
      exact ⟨m, .updateFree (by rw [← hs.find, hf]), hs⟩
    · obtain ⟨h', rest, e, hi', p, p'⟩ := update_spec less hs.indexed hf
      rw [e]
      have hk := (hs.indexed.find?_eq_some_iff.1 hf).2
      exact ⟨_, .update (by rw [← hs.find, hf]), hs.replaced hi' hk p p'⟩
  | remove a =>
    simp only [KeyedHeap.call]
    obtain ⟨b, h', e, held, shown⟩ | ⟨free, e⟩ := hs.remove less (Keyed.key a)
    · rw [e]
      exact ⟨_, .remove held, shown⟩
    · rw [e]
      exact ⟨m, .removeFree free, hs⟩
  | removeKey key =>
    simp only [KeyedHeap.call]
    obtain ⟨b, h', e, held, shown⟩ | ⟨free, e⟩ := hs.remove less key
    · rw [e]
      exact ⟨_, .removeKey held, shown⟩
    · rw [e]
      exact ⟨m, .removeKeyFree free, hs⟩
  | pop =>
    simp only [KeyedHeap.call]
    rcases hp : h.peek? with _ | a
    · have none : h.size = 0 := by simpa [peek?, KeyedHeap.size] using hp
      rw [pop_of_peek?_none hp]
      exact ⟨m, .popNothing (by rw [← hs.size, none]), hs⟩
    · obtain ⟨h', e, hi', p⟩ := pop_spec less hs.indexed hp
      rw [e]
      exact ⟨_, .pop (hs.get?_of_mem (p.mem_iff.2 List.mem_cons_self)), hs.taken hi' p⟩
  | drain => exact ⟨.empty, .drain hs.perm_values, shows_empty⟩

/-! ## Refusals -/

theorem Indexed.update_refused_iff (less : α → α → Bool) (hi : h.Indexed) (a : α) :
    (∃ e, h.update less a = .error e) ↔ h.contains (Keyed.key a) = false := by
  rw [hi.contains_eq]
  rcases hf : h.find? (Keyed.key a) with _ | old
  · exact iff_of_true ⟨_, update_of_find?_none less hi hf⟩ rfl
  · obtain ⟨h', rest, e, -⟩ := update_spec less hi hf
    rw [e]
    simp

theorem Indexed.remove_refused_iff (less : α → α → Bool) (hi : h.Indexed) (key : String) :
    (∃ e, h.remove less key = .error e) ↔ h.contains key = false := by
  rw [hi.contains_eq]
  rcases hf : h.find? key with _ | a
  · exact iff_of_true ⟨_, remove_of_find?_none less hi hf⟩ rfl
  · obtain ⟨h', e, -⟩ := remove_spec less hi hf
    rw [e]
    simp

/-! ## A run -/

theorem Shows.run (less : α → α → Bool) (hs : h.Shows m) (calls : List (HeapCall α)) :
    ∃ m', MapRun m calls (h.answers less calls) m' ∧ (h.after less calls).Shows m' := by
  induction calls generalizing h m with
  | nil => exact ⟨m, .nil, hs⟩
  | cons c rest ih =>
    obtain ⟨m', first, hs'⟩ := hs.call less c
    obtain ⟨m'', run, hs''⟩ := ih hs'
    exact ⟨m'', .cons first run, hs''⟩

theorem indexed_after (less : α → α → Bool) (calls : List (HeapCall α)) :
    (after less .empty calls).Indexed := by
  obtain ⟨m, -, shown⟩ := (shows_empty (α := α)).run less calls
  exact shown.indexed

/-- Every run of a heap is a run of a finite map with the same answers, and the heap it ends in is
that map to all who look. -/
theorem runs_as_map (less : α → α → Bool) (calls : List (HeapCall α)) :
    ∃ m : NameMap α,
      MapRun .empty calls (answers less .empty calls) m ∧
      let h := after less .empty calls
      (∀ key slot, h.index[key]? = some slot ↔
        ∃ hs : slot < h.items.size, Keyed.key h.items[slot] = key) ∧
      (∀ key, h.find? key = m.get? key) ∧
      (∀ key, h.contains key = m.contains key) ∧
      h.size = m.size ∧
      h.toList.Perm m.values ∧
      (∀ a, (∃ e, h.push less a = .error e) ↔ m.contains (Keyed.key a) = true) ∧
      (∀ a, (∃ e, h.update less a = .error e) ↔ m.contains (Keyed.key a) = false) ∧
      (∀ key, (∃ e, h.remove less key = .error e) ↔ m.contains key = false) ∧
      (∀ c e, (h.call less c).1 = .refused e → (h.call less c).2 = h) := by
  obtain ⟨m, run, shown⟩ := (shows_empty (α := α)).run less calls
  refine ⟨m, run, shown.indexed.slot_iff, shown.find, shown.contains, shown.size,
    shown.perm_values, fun a => ?_, fun a => ?_, fun key => ?_, fun c e => call_refused⟩
  · rw [push_refused_iff, shown.contains]
  · rw [shown.indexed.update_refused_iff, shown.contains]
  · rw [shown.indexed.remove_refused_iff, shown.contains]

end KeyedHeap

end JobAdmission
