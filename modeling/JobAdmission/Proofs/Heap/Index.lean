/-
The heap as a finite map from keys to items, for any comparison at all. `Indexed` is the invariant
that the index finds exactly the slots at which the items lie. Under it a look-up depends only on
which items are held, so each operation is described twice: by the items it holds afterwards, up to
their order in the array, and by the look-ups it answers.
-/
import JobAdmission.Heap.Basic
import Mathlib.Data.List.Perm.Basic
import Mathlib.Data.List.Nodup
import Mathlib.Tactic.Common

namespace JobAdmission.KeyedHeap

variable {α : Type} [Keyed α]

/-! ## The invariant -/

/-- The index finds exactly the slots at which the items lie. -/
def Indexed (h : KeyedHeap α) : Prop :=
  ∀ key slot, h.index[key]? = some slot ↔ h.items[slot]?.map Keyed.key = some key

theorem indexed_empty : (empty : KeyedHeap α).Indexed := by
  intro key slot
  simp [empty]

theorem Indexed.slot_unique {h : KeyedHeap α} (hi : h.Indexed) {i j : Nat} {key : String}
    (ei : h.items[i]?.map Keyed.key = some key) (ej : h.items[j]?.map Keyed.key = some key) :
    i = j := by
  have si := (hi key i).2 ei
  have sj := (hi key j).2 ej
  rw [si] at sj
  exact Option.some.inj sj

theorem Indexed.slot_lt {h : KeyedHeap α} (hi : h.Indexed) {key : String} {slot : Nat}
    (e : h.index[key]? = some slot) : slot < h.items.size := by
  have := (hi key slot).1 e
  by_contra hlt
  rw [Array.getElem?_eq_none (by omega)] at this
  cases this

/-! ## Look-ups -/

theorem Indexed.find?_eq_some_iff {h : KeyedHeap α} (hi : h.Indexed) {key : String} {a : α} :
    h.find? key = some a ↔ a ∈ h.toList ∧ Keyed.key a = key := by
  unfold find? toList
  rw [Option.bind_eq_some_iff]
  constructor
  · rintro ⟨slot, e, ha⟩
    have hk := (hi key slot).1 e
    rw [ha] at hk
    exact ⟨Array.mem_toList_iff.2 (Array.mem_of_getElem? ha), by simpa using hk⟩
  · rintro ⟨ha, rfl⟩
    obtain ⟨slot, hs⟩ := Array.getElem?_of_mem (Array.mem_toList_iff.1 ha)
    exact ⟨slot, (hi _ slot).2 (by rw [hs]; rfl), hs⟩

theorem Indexed.find?_eq_none_iff {h : KeyedHeap α} (hi : h.Indexed) {key : String} :
    h.find? key = none ↔ ∀ a ∈ h.toList, Keyed.key a ≠ key := by
  constructor
  · intro hn a ha hk
    rw [hi.find?_eq_some_iff.2 ⟨ha, hk⟩] at hn
    cases hn
  · intro hn
    rcases hf : h.find? key with _ | a
    · rfl
    · obtain ⟨ha, hk⟩ := hi.find?_eq_some_iff.1 hf
      exact absurd hk (hn a ha)

/-- The index knows a key exactly if an item is found under it. -/
theorem Indexed.contains_eq {h : KeyedHeap α} (hi : h.Indexed) (key : String) :
    h.contains key = (h.find? key).isSome := by
  unfold contains
  rw [Std.HashMap.contains_eq_isSome_getElem?]
  unfold find?
  rcases e : h.index[key]? with _ | slot
  · rfl
  · have hlt := hi.slot_lt e
    simp [Array.getElem?_eq_getElem hlt]

theorem Indexed.contains_iff {h : KeyedHeap α} (hi : h.Indexed) {key : String} :
    h.contains key = true ↔ ∃ a ∈ h.toList, Keyed.key a = key := by
  rw [hi.contains_eq, Option.isSome_iff_exists]
  exact exists_congr fun a => hi.find?_eq_some_iff

/-- No two items have the same key. -/
theorem Indexed.keys_nodup {h : KeyedHeap α} (hi : h.Indexed) :
    (h.toList.map Keyed.key).Nodup := by
  rw [List.nodup_iff_getElem?_ne_getElem?]
  intro i j hij hj he
  rw [List.length_map] at hj
  rw [List.getElem?_map, List.getElem?_map] at he
  unfold toList at hj he
  rw [Array.getElem?_toList, Array.getElem?_toList] at he
  have hlt : j < h.items.size := by simpa using hj
  have ej : h.items[j]?.map Keyed.key = some (Keyed.key h.items[j]) := by
    rw [Array.getElem?_eq_getElem hlt]; rfl
  -- the index gives one slot for a key
  have := hi.slot_unique (he.trans ej) ej
  omega

/-! ## Look-ups in two heaps that differ by one item -/

section

variable {h h' : KeyedHeap α} {a : α}

/-- One more item is found under its key. -/
theorem Indexed.find?_of_added (hi : h.Indexed) (hi' : h'.Indexed)
    (p : h'.toList.Perm (a :: h.toList)) (key : String) :
    h'.find? key = if Keyed.key a = key then some a else h.find? key := by
  split
  · rename_i hk
    exact hi'.find?_eq_some_iff.2 ⟨p.mem_iff.2 List.mem_cons_self, hk⟩
  · rename_i hk
    apply Option.ext
    intro b
    rw [hi.find?_eq_some_iff, hi'.find?_eq_some_iff, p.mem_iff, List.mem_cons]
    constructor
    · rintro ⟨rfl | hb, e⟩
      · exact absurd e hk
      · exact ⟨hb, e⟩
    · rintro ⟨hb, e⟩
      exact ⟨.inr hb, e⟩

/-- An item taken out leaves its key free. -/
theorem Indexed.find?_of_taken (hi : h.Indexed) (hi' : h'.Indexed)
    (p : h.toList.Perm (a :: h'.toList)) (key : String) :
    h'.find? key = if Keyed.key a = key then none else h.find? key := by
  split
  · rename_i hk
    have nd : (Keyed.key a :: h'.toList.map Keyed.key).Nodup :=
      (p.map Keyed.key).nodup_iff.1 hi.keys_nodup
    refine hi'.find?_eq_none_iff.2 fun b hb e => ?_
    exact (List.nodup_cons.1 nd).1 (List.mem_map.2 ⟨b, hb, e.trans hk.symm⟩)
  · rename_i hk
    rw [hi'.find?_of_added hi p, if_neg hk]

/-- An item in the place of another one with the same key is found under that key. -/
theorem Indexed.find?_of_replaced {old : α} {rest : List α} (hi : h.Indexed) (hi' : h'.Indexed)
    (hk : Keyed.key old = Keyed.key a) (p : h.toList.Perm (old :: rest))
    (p' : h'.toList.Perm (a :: rest)) (key : String) :
    h'.find? key = if Keyed.key a = key then some a else h.find? key := by
  split
  · rename_i e
    exact hi'.find?_eq_some_iff.2 ⟨p'.mem_iff.2 List.mem_cons_self, e⟩
  · rename_i e
    apply Option.ext
    intro b
    rw [hi.find?_eq_some_iff, hi'.find?_eq_some_iff, p.mem_iff, p'.mem_iff, List.mem_cons,
      List.mem_cons]
    constructor
    · rintro ⟨rfl | hb, rfl⟩
      · exact absurd rfl e
      · exact ⟨.inr hb, rfl⟩
    · rintro ⟨rfl | hb, rfl⟩
      · exact absurd hk.symm e
      · exact ⟨.inr hb, rfl⟩

theorem Indexed.contains_of_added (hi : h.Indexed) (hi' : h'.Indexed)
    (p : h'.toList.Perm (a :: h.toList)) (key : String) :
    h'.contains key = true ↔ Keyed.key a = key ∨ h.contains key = true := by
  rw [hi.contains_eq, hi'.contains_eq, hi.find?_of_added hi' p]
  by_cases hk : Keyed.key a = key <;> simp [hk]

theorem Indexed.contains_of_taken (hi : h.Indexed) (hi' : h'.Indexed)
    (p : h.toList.Perm (a :: h'.toList)) (key : String) :
    h'.contains key = true ↔ Keyed.key a ≠ key ∧ h.contains key = true := by
  rw [hi.contains_eq, hi'.contains_eq, hi.find?_of_taken hi' p]
  by_cases hk : Keyed.key a = key <;> simp [hk]

end

/-! ## Repair of the order -/

theorem indexed_exchange {h : KeyedHeap α} (hi : h.Indexed) {i j : Nat} (hli : i < h.items.size)
    (hlj : j < h.items.size) : (h.exchange i j hli hlj).Indexed := by
  intro key slot
  have ui : h.items[i]?.map Keyed.key = some key ↔ Keyed.key h.items[i] = key := by
    rw [Array.getElem?_eq_getElem hli, Option.map_some, Option.some.injEq]
  have uj : h.items[j]?.map Keyed.key = some key ↔ Keyed.key h.items[j] = key := by
    rw [Array.getElem?_eq_getElem hlj, Option.map_some, Option.some.injEq]
  unfold exchange
  simp only [Std.HashMap.getElem?_insert, Array.getElem?_swap, beq_iff_eq]
  -- the later insertion is looked up first, and so is the slot that it names
  by_cases ki : Keyed.key h.items[i] = key
  · rw [if_pos ki]
    by_cases sj : j = slot
    · simp [sj, ki]
    · have : ¬ (if i = slot then some h.items[j] else h.items[slot]?).map Keyed.key = some key := by
        intro e
        split at e
        · rename_i si
          exact sj ((hi.slot_unique (uj.2 (by simpa using e)) (ui.2 ki)).trans si)
        · rename_i si
          exact si (hi.slot_unique (ui.2 ki) e)
      simp [sj, this]
  · rw [if_neg ki]
    by_cases kj : Keyed.key h.items[j] = key
    · rw [if_pos kj]
      have hij : ¬ j = i := by rintro rfl; exact ki kj
      by_cases si : i = slot
      · subst si; simp [hij, kj]
      · have : ¬ (if j = slot then some h.items[i] else h.items[slot]?).map Keyed.key =
            some key := by
          intro e
          split at e
          · exact ki (by simpa using e)
          · rename_i sj
            exact sj (hi.slot_unique (uj.2 kj) e)
        simp [si, this]
    · rw [if_neg kj, hi key slot]
      by_cases sj : j = slot
      · subst sj
        exact iff_of_false (fun e => kj (uj.1 e)) (by simpa using ki)
      · by_cases si : i = slot
        · subst si
          exact iff_of_false (fun e => ki (ui.1 e)) (by simpa [sj] using kj)
        · simp [sj, si]

theorem perm_exchange (h : KeyedHeap α) {i j : Nat} (hli : i < h.items.size)
    (hlj : j < h.items.size) : (h.exchange i j hli hlj).toList.Perm h.toList :=
  Array.perm_iff_toList_perm.1 (Array.swap_perm hli hlj)

/-- `h'` holds the items of `h` in some order of its own, and finds them. -/
structure Reordered (h h' : KeyedHeap α) : Prop where
  perm : h'.toList.Perm h.toList
  indexed : h.Indexed → h'.Indexed

theorem Reordered.refl (h : KeyedHeap α) : Reordered h h := ⟨List.Perm.refl _, id⟩

theorem Reordered.trans {a b c : KeyedHeap α} (hab : Reordered a b) (hbc : Reordered b c) :
    Reordered a c :=
  ⟨hbc.perm.trans hab.perm, fun ha => hbc.indexed (hab.indexed ha)⟩

theorem exchange_reordered (h : KeyedHeap α) {i j : Nat} (hli : i < h.items.size)
    (hlj : j < h.items.size) : Reordered h (h.exchange i j hli hlj) :=
  ⟨perm_exchange h hli hlj, fun hi => indexed_exchange hi hli hlj⟩

theorem siftUp_reordered (less : α → α → Bool) (h : KeyedHeap α) (slot : Nat) :
    Reordered h (h.siftUp less slot) := by
  fun_induction siftUp less h slot with
  | case1 h slot hs hp _ ih => exact (exchange_reordered h hs.2 hp).trans ih
  | case2 h => exact Reordered.refl h
  | case3 h => exact Reordered.refl h

theorem siftDown_reordered (less : α → α → Bool) (h : KeyedHeap α) (slot : Nat) :
    Reordered h (h.siftDown less slot).1 := by
  fun_induction siftDown less h slot with
  | case1 h slot hl hs hc _ _ ih => exact (exchange_reordered h hs hc).trans ih
  | case2 h => exact Reordered.refl h
  | case3 h => exact Reordered.refl h

theorem restore_reordered (less : α → α → Bool) (h : KeyedHeap α) (slot : Nat) :
    Reordered h (h.restore less slot) := by
  have down := siftDown_reordered less h slot
  unfold restore
  generalize h.siftDown less slot = r at down ⊢
  obtain ⟨h', stop⟩ := r
  show Reordered h (if stop = slot then h'.siftUp less slot else h')
  split
  · exact down.trans (siftUp_reordered less _ slot)
  · exact down

/-! ## Putting in -/

theorem push_of_contains {less : α → α → Bool} {h : KeyedHeap α} {a : α}
    (hc : h.contains (Keyed.key a) = true) :
    h.push less a = .error (.duplicateKey (Keyed.key a)) := by
  unfold push; rw [if_pos hc]

theorem push_refused_iff (less : α → α → Bool) (h : KeyedHeap α) (a : α) :
    (∃ e, h.push less a = .error e) ↔ h.contains (Keyed.key a) = true := by
  constructor
  · rintro ⟨e, he⟩
    unfold push at he
    split at he
    · assumption
    · cases he
  · intro held
    exact ⟨_, push_of_contains held⟩

theorem contains_siftUp (less : α → α → Bool) (h : KeyedHeap α) (slot : Nat) {key : String}
    (hc : h.contains key = true) : (siftUp less h slot).contains key = true := by
  fun_induction siftUp less h slot with
  | case1 h slot _ _ _ ih =>
    refine ih ?_
    unfold contains exchange at *
    rw [Std.HashMap.contains_insert, Std.HashMap.contains_insert, hc]
    simp
  | case2 => exact hc
  | case3 => exact hc

/-- An item that is taken is known to the index, whatever the index knew before. -/
theorem contains_push {less : α → α → Bool} {h h' : KeyedHeap α} {a : α}
    (e : h.push less a = .ok h') : h'.contains (Keyed.key a) = true := by
  unfold push at e
  split at e
  · cases e
  · cases e
    exact contains_siftUp less _ _ Std.HashMap.contains_insert_self

theorem indexed_append {h : KeyedHeap α} (hi : h.Indexed) {a : α}
    (hc : h.contains (Keyed.key a) = false) :
    Indexed ⟨h.items.push a, h.index.insert (Keyed.key a) h.items.size⟩ := by
  intro key slot
  -- no slot has the key yet, or the index would know it
  have free : ∀ s : Nat, h.items[s]?.map Keyed.key ≠ some (Keyed.key a) := by
    intro s e
    have := (hi _ s).2 e
    unfold contains at hc
    rw [Std.HashMap.contains_eq_isSome_getElem?, this] at hc
    cases hc
  simp only [Std.HashMap.getElem?_insert, Array.getElem?_push, beq_iff_eq]
  by_cases ka : Keyed.key a = key
  · subst ka
    by_cases hs : slot = h.items.size
    · simp [hs]
    · have : ¬ h.items.size = slot := fun e => hs e.symm
      simpa [hs, this] using free slot
  · by_cases hs : slot = h.items.size
    · subst hs
      have : ¬ h.index[key]? = some h.items.size := by
        intro e
        have := hi.slot_lt e
        omega
      simp [ka, this]
    · simpa [ka, hs] using hi key slot

/-- A key that is not held is taken, and nothing else changes. -/
theorem push_spec (less : α → α → Bool) {h : KeyedHeap α} (hi : h.Indexed) {a : α}
    (hc : h.contains (Keyed.key a) = false) :
    ∃ h', h.push less a = .ok h' ∧ h'.Indexed ∧ h'.toList.Perm (a :: h.toList) := by
  refine ⟨_, by unfold push; rw [if_neg (by rw [hc]; simp)], ?_, ?_⟩
  · exact (siftUp_reordered less _ _).indexed (indexed_append hi hc)
  · refine (siftUp_reordered less _ _).perm.trans ?_
    show (h.items.push a).toList.Perm (a :: h.items.toList)
    rw [Array.toList_push]
    exact List.perm_append_comm

theorem push_eq_ok {less : α → α → Bool} {h h' : KeyedHeap α} (hi : h.Indexed) {a : α}
    (e : h.push less a = .ok h') :
    h.contains (Keyed.key a) = false ∧ h'.Indexed ∧ h'.toList.Perm (a :: h.toList) := by
  cases hc : h.contains (Keyed.key a) with
  | true => rw [push_of_contains hc] at e; cases e
  | false =>
    obtain ⟨g, eg, gi, gp⟩ := push_spec less hi hc
    rw [e] at eg
    cases eg
    exact ⟨rfl, gi, gp⟩

/-! ## Taking out -/

theorem indexed_of_lookup {items : Array α} {m m' : Std.HashMap String Nat}
    (hi : Indexed ⟨items, m⟩) (hm : ∀ key : String, m'[key]? = m[key]?) :
    Indexed ⟨items, m'⟩ := by
  intro key slot
  rw [show m'[key]? = m[key]? from hm key]
  exact hi key slot

theorem indexed_dropLast {h : KeyedHeap α} (hi : h.Indexed) (hs : h.items.size - 1 < h.items.size) :
    Indexed ⟨h.items.pop, h.index.erase (Keyed.key h.items[h.items.size - 1])⟩ := by
  intro key slot
  have last : h.items[h.items.size - 1]?.map Keyed.key =
      some (Keyed.key h.items[h.items.size - 1]) := by
    rw [Array.getElem?_eq_getElem hs]; rfl
  simp only [Std.HashMap.getElem?_erase, Array.getElem?_pop, beq_iff_eq]
  by_cases kl : Keyed.key h.items[h.items.size - 1] = key
  · -- only the dropped slot had the erased key
    rw [if_pos kl]
    refine iff_of_false (by simp) fun e => ?_
    split at e
    · have := hi.slot_unique (kl ▸ last) e
      omega
    · cases e
  · rw [if_neg kl, hi key slot]
    split
    · rfl
    · refine iff_of_false (fun e => ?_) (by simp)
      have hlt := hi.slot_lt ((hi key slot).2 e)
      have : slot = h.items.size - 1 := by omega
      subst this
      rw [last] at e
      exact kl (Option.some.inj e)

omit [Keyed α] in
theorem perm_swap_pop (items : Array α) {slot : Nat} (hs : slot < items.size) :
    items.toList.Perm (items[slot] :: ((items.swap slot (items.size - 1)).pop).toList) := by
  have hlast : items.size - 1 < items.size := by omega
  have hne : (items.swap slot (items.size - 1)).toList ≠ [] := by
    intro e
    have := congrArg List.length e
    rw [Array.length_toList, Array.size_swap, List.length_nil] at this
    omega
  have hget : (items.swap slot (items.size - 1)).toList.getLast hne = items[slot] := by
    rw [List.getLast_eq_getElem]
    simp
  -- the exchange moves the item to the end, where it is dropped
  have swapped := Array.perm_iff_toList_perm.1 (Array.swap_perm hs hlast)
  rw [← List.dropLast_concat_getLast hne, hget] at swapped
  rw [Array.toList_pop]
  exact swapped.symm.trans List.perm_append_comm

/-- The last item in the place of the one taken out: exchanging the two and dropping the last
slot finds the same. -/
theorem indexed_swap_pop {h : KeyedHeap α} (hi : h.Indexed) {slot : Nat}
    (hs : slot < h.items.size) (hlast : h.items.size - 1 < h.items.size) :
    Indexed ⟨(h.items.swap slot (h.items.size - 1) hs hlast).pop,
      if slot < h.items.size - 1 then
        (h.index.erase (Keyed.key h.items[slot])).insert (Keyed.key h.items[h.items.size - 1]) slot
      else h.index.erase (Keyed.key h.items[slot])⟩ := by
  have exchanged := indexed_exchange hi hs hlast
  have dropped := indexed_dropLast exchanged (by rw [size_items_exchange]; exact hlast)
  refine indexed_of_lookup dropped fun key => ?_
  have bound : (h.exchange slot (h.items.size - 1) hs hlast).items.size - 1 <
      (h.exchange slot (h.items.size - 1) hs hlast).items.size := by
    rw [size_items_exchange]; exact hlast
  have at_last : (h.exchange slot (h.items.size - 1) hs hlast).items[
      (h.exchange slot (h.items.size - 1) hs hlast).items.size - 1] = h.items[slot] := by
    simp [exchange]
  rw [at_last]
  unfold exchange
  split
  · rename_i hlt
    have distinct : ¬ Keyed.key h.items[slot] = Keyed.key h.items[h.items.size - 1] := by
      intro e
      have first : h.items[slot]?.map Keyed.key = some (Keyed.key h.items[slot]) := by
        rw [Array.getElem?_eq_getElem hs]; rfl
      have last : h.items[h.items.size - 1]?.map Keyed.key = some (Keyed.key h.items[slot]) := by
        rw [Array.getElem?_eq_getElem hlast, e]; rfl
      have := hi.slot_unique first last
      omega
    simp only [Std.HashMap.getElem?_insert, Std.HashMap.getElem?_erase, beq_iff_eq]
    by_cases k1 : Keyed.key h.items[slot] = key
    · have k2 : ¬ Keyed.key h.items[h.items.size - 1] = key := fun e => distinct (k1.trans e.symm)
      simp [k1, k2]
    · simp [k1]
  · have same : slot = h.items.size - 1 := by omega
    subst same
    simp only [Std.HashMap.getElem?_insert, Std.HashMap.getElem?_erase, beq_iff_eq]
    split <;> rfl

theorem removeAt_spec (less : α → α → Bool) {h : KeyedHeap α} (hi : h.Indexed) {slot : Nat}
    (hs : slot < h.items.size) :
    (h.removeAt less slot hs).1 = h.items[slot] ∧ (h.removeAt less slot hs).2.Indexed ∧
      h.toList.Perm (h.items[slot] :: (h.removeAt less slot hs).2.toList) := by
  have perm := perm_swap_pop h.items hs
  have indexed := indexed_swap_pop hi hs (by omega)
  unfold removeAt
  dsimp only
  split
  · rename_i hlt
    have hlt' : slot < h.items.size - 1 := by simpa using hlt
    have moved : (h.items.swap slot (h.items.size - 1)).pop[slot] = h.items[h.items.size - 1] := by
      simp
    rw [if_pos hlt'] at indexed
    have r := restore_reordered less ⟨(h.items.swap slot (h.items.size - 1)).pop,
      (h.index.erase (Keyed.key h.items[slot])).insert
        (Keyed.key (h.items.swap slot (h.items.size - 1)).pop[slot]) slot⟩ slot
    refine ⟨rfl, r.indexed (by rw [moved]; exact indexed), perm.trans (r.perm.symm.cons _)⟩
  · rename_i hlt
    have hlt' : ¬ slot < h.items.size - 1 := by simpa using hlt
    rw [if_neg hlt'] at indexed
    exact ⟨rfl, indexed, perm⟩

/-- A key that is held is given up with its item, and nothing else changes. -/
theorem remove_spec (less : α → α → Bool) {h : KeyedHeap α} (hi : h.Indexed) {key : String} {a : α}
    (hf : h.find? key = some a) :
    ∃ h', h.remove less key = .ok (a, h') ∧ h'.Indexed ∧ h.toList.Perm (a :: h'.toList) := by
  obtain ⟨slot, e, ha⟩ := Option.bind_eq_some_iff.1 hf
  have hs := hi.slot_lt e
  rw [Array.getElem?_eq_getElem hs, Option.some.injEq] at ha
  obtain ⟨h1, h2, h3⟩ := removeAt_spec less hi hs
  rw [ha] at h1 h3
  refine ⟨(h.removeAt less slot hs).2, ?_, h2, h3⟩
  unfold remove
  rw [e]
  simp only [dif_pos hs]
  rw [← h1]

theorem remove_of_find?_none (less : α → α → Bool) {h : KeyedHeap α} (hi : h.Indexed) {key : String}
    (hf : h.find? key = none) : h.remove less key = .error (.notFound key) := by
  unfold remove
  rcases e : h.index[key]? with _ | slot
  · rfl
  · have hs := hi.slot_lt e
    unfold find? at hf
    rw [e, Option.bind_some, Array.getElem?_eq_getElem hs] at hf
    cases hf

/-- The item in front is taken, and nothing else changes. -/
theorem pop_spec (less : α → α → Bool) {h : KeyedHeap α} (hi : h.Indexed) {a : α}
    (hf : h.peek? = some a) :
    ∃ h', h.pop less = .ok (a, h') ∧ h'.Indexed ∧ h.toList.Perm (a :: h'.toList) := by
  obtain ⟨hs, ha⟩ := Array.getElem?_eq_some_iff.1 hf
  obtain ⟨h1, h2, h3⟩ := removeAt_spec less hi hs
  rw [ha] at h1 h3
  refine ⟨(h.removeAt less 0 hs).2, ?_, h2, h3⟩
  unfold pop
  rw [dif_pos hs, ← h1]

theorem pop_eq_ok {less : α → α → Bool} {h h' : KeyedHeap α} (hi : h.Indexed) {a : α}
    (e : h.pop less = .ok (a, h')) : h'.Indexed ∧ h.toList.Perm (a :: h'.toList) := by
  unfold pop at e
  split at e
  · rename_i hs
    obtain ⟨h1, h2, h3⟩ := removeAt_spec less hi hs
    rw [Except.ok.inj e] at h1 h2 h3
    rw [show a = h.items[0] from h1]
    exact ⟨h2, h3⟩
  · cases e

theorem pop_of_peek?_none {less : α → α → Bool} {h : KeyedHeap α} (hf : h.peek? = none) :
    h.pop less = .error .empty := by
  have none : h.items.size = 0 := by simpa [peek?] using hf
  unfold pop
  rw [dif_neg (by omega)]

/-! ## Replacing -/

omit [Keyed α] in
theorem perm_set (items : Array α) {slot : Nat} (hs : slot < items.size) (a : α) :
    ∃ rest, items.toList.Perm (items[slot] :: rest) ∧
      (items.set slot a).toList.Perm (a :: rest) := by
  refine ⟨items.toList.eraseIdx slot, ?_, ?_⟩
  · exact (List.getElem_cons_eraseIdx_perm (by simpa using hs)).symm
  · have := List.getElem_cons_eraseIdx_perm (l := items.toList.set slot a) (n := slot)
      (by simpa using hs)
    rw [List.getElem_set_self, List.eraseIdx_set_eq] at this
    rw [Array.toList_set]
    exact this.symm

theorem indexed_set {h : KeyedHeap α} (hi : h.Indexed) {slot : Nat} (hs : slot < h.items.size)
    {a : α} (hk : Keyed.key a = Keyed.key h.items[slot]) :
    Indexed { h with items := h.items.set slot a } := by
  intro key s
  show h.index[key]? = some s ↔ (h.items.set slot a)[s]?.map Keyed.key = some key
  rw [hi key s, Array.getElem?_set]
  split
  · rename_i e
    subst e
    rw [Array.getElem?_eq_getElem hs, Option.map_some, Option.map_some, hk]
  · rfl

/-- The item held under the key gives way to the new one, and nothing else changes. -/
theorem update_spec (less : α → α → Bool) {h : KeyedHeap α} (hi : h.Indexed) {a old : α}
    (hf : h.find? (Keyed.key a) = some old) :
    ∃ h' rest, h.update less a = .ok h' ∧ h'.Indexed ∧ h.toList.Perm (old :: rest) ∧
      h'.toList.Perm (a :: rest) := by
  have hk := (hi.find?_eq_some_iff.1 hf).2
  obtain ⟨slot, e, ho⟩ := Option.bind_eq_some_iff.1 hf
  have hs := hi.slot_lt e
  rw [Array.getElem?_eq_getElem hs, Option.some.injEq] at ho
  obtain ⟨rest, before, after⟩ := perm_set h.items hs a
  have r := restore_reordered less { h with items := h.items.set slot a } slot
  refine ⟨_, rest, ?_, r.indexed (indexed_set hi hs (by rw [ho, hk])), ?_, r.perm.trans after⟩
  · unfold update
    rw [e]
    exact dif_pos hs
  · rw [ho] at before
    exact before

theorem update_of_find?_none (less : α → α → Bool) {h : KeyedHeap α} (hi : h.Indexed) {a : α}
    (hf : h.find? (Keyed.key a) = none) :
    h.update less a = .error (.notFound (Keyed.key a)) := by
  unfold update
  rcases e : h.index[Keyed.key a]? with _ | slot
  · rfl
  · have hs := hi.slot_lt e
    unfold find? at hf
    rw [e, Option.bind_some, Array.getElem?_eq_getElem hs] at hf
    cases hf

end JobAdmission.KeyedHeap
