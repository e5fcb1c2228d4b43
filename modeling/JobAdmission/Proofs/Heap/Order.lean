/-
The order of a heap. Under a strict weak order no item precedes its parent, so the item in slot zero
precedes or ties with all. A sift starts from a heap that is out of order around one slot only:
`Disturbed` says what is known of the other pairs, and that the children of the slot do not precede
its parent. A replaced item goes down; if it does not move, its children are in order with it, and
that is what going up needs. So one of the two directions is always enough.
-/
import JobAdmission.Proofs.Heap.AsMap
import JobAdmission.Queue.Basic
import Mathlib.Data.List.Permutation
import Mathlib.Logic.Equiv.Basic
import Mathlib.Order.Defs.Unbundled

namespace JobAdmission

variable {α : Type}

/-! ## Strict weak orders -/

/-- A comparison that is a strict weak order: ties are an equivalence. -/
abbrev StrictWeak (less : α → α → Bool) : Prop := IsStrictWeakOrder α fun a b => less a b = true

namespace StrictWeak

variable {less : α → α → Bool} {a b c : α}

theorem not_self (weak : StrictWeak less) (a : α) : less a a = false :=
  Bool.eq_false_iff.2 (weak.irrefl a)

theorem asymm (weak : StrictWeak less) (hab : less a b = true) : less b a = false := by
  refine Bool.eq_false_iff.2 fun hba => ?_
  exact weak.irrefl a (weak.trans a b a hab hba)

/-- What does not precede is transitive. -/
theorem trans_false (weak : StrictWeak less) (hab : less a b = false) (hbc : less b c = false) :
    less a c = false := by
  rw [Bool.eq_false_iff] at *
  intro hac
  -- were one of the ties a strict precedence, transitivity would give the other one
  have hba : ¬ less b a = true := fun hba => hbc (weak.trans b a c hba hac)
  have hcb : ¬ less c b = true := fun hcb => hab (weak.trans a c b hac hcb)
  exact (weak.incomp_trans a b c ⟨hab, hba⟩ ⟨hbc, hcb⟩).1 hac

/-- Ordering by a number is a strict weak order. -/
theorem of_measure (f : α → Nat) : StrictWeak fun a b => f a < f b where
  irrefl a := by simp
  trans a b c := by simpa using Nat.lt_trans
  incomp_trans a b c := by
    simp only [decide_eq_true_eq]
    omega

end StrictWeak

namespace KeyedHeap

variable {less : α → α → Bool} {h h' : KeyedHeap α} {i j k slot : Nat}

/-! ## Order between slots -/

/-- The item of slot `i` does not precede that of slot `j`. -/
def Follows (less : α → α → Bool) (h : KeyedHeap α) (i j : Nat) : Prop :=
  ∀ a b, h.items[i]? = some a → h.items[j]? = some b → less a b = false

/-- No item precedes its parent. -/
def Ordered (less : α → α → Bool) (h : KeyedHeap α) : Prop :=
  ∀ slot, 0 < slot → h.Follows less slot ((slot - 1) / 2)

theorem follows_getElem (hi : i < h.items.size) (hj : j < h.items.size) :
    h.Follows less i j ↔ less h.items[i] h.items[j] = false := by
  unfold Follows
  rw [Array.getElem?_eq_getElem hi, Array.getElem?_eq_getElem hj]
  simp

theorem follows_of_size_le (hi : h.items.size ≤ i) : h.Follows less i j := by
  intro a b ha
  rw [Array.getElem?_eq_none hi] at ha
  cases ha

theorem Follows.trans (weak : StrictWeak less) (hj : j < h.items.size) (hij : h.Follows less i j)
    (hjk : h.Follows less j k) : h.Follows less i k := by
  intro a c ha hc
  have hb := Array.getElem?_eq_getElem hj
  exact weak.trans_false (hij _ _ ha hb) (hjk _ _ hb hc)

theorem ordered_empty [Keyed α] : (empty : KeyedHeap α).Ordered less := by
  intro slot _
  exact follows_of_size_le (Nat.zero_le _)

/-- An item that nothing precedes lies in slot zero. -/
theorem Ordered.root_first (weak : StrictWeak less) (ho : h.Ordered less) {a b : α}
    (ha : h.items[0]? = some a) (hb : h.items[k]? = some b) : less b a = false := by
  induction k using Nat.strongRecOn generalizing b with
  | ind k ih =>
    rcases Nat.eq_zero_or_pos k with rfl | hk
    · rw [ha] at hb
      cases hb
      exact weak.not_self a
    · obtain ⟨hlt, -⟩ := Array.getElem?_eq_some_iff.1 hb
      have hp : (k - 1) / 2 < h.items.size := by omega
      have hc := Array.getElem?_eq_getElem hp
      exact weak.trans_false (ho k hk _ _ hb hc) (ih _ (by omega) hc)

/-! ## A heap out of order around one slot -/

/-- The pairs of parent and child off the slot are in order, and so are the children of the slot
with its parent. -/
structure Disturbed (less : α → α → Bool) (h : KeyedHeap α) (slot : Nat) : Prop where
  elsewhere : ∀ k, 0 < k → k ≠ slot → (k - 1) / 2 ≠ slot → h.Follows less k ((k - 1) / 2)
  across : ∀ k, 0 < k → 0 < slot → (k - 1) / 2 = slot → h.Follows less k ((slot - 1) / 2)

/-- The children of a slot do not precede it. -/
def InOrderBelow (less : α → α → Bool) (h : KeyedHeap α) (slot : Nat) : Prop :=
  ∀ k, 0 < k → (k - 1) / 2 = slot → h.Follows less k slot

/-- A slot does not precede its parent. -/
def InOrderAbove (less : α → α → Bool) (h : KeyedHeap α) (slot : Nat) : Prop :=
  0 < slot → h.Follows less slot ((slot - 1) / 2)

theorem Disturbed.ordered (hd : h.Disturbed less slot) (below : h.InOrderBelow less slot)
    (above : h.InOrderAbove less slot) : h.Ordered less := by
  intro k hk
  by_cases hs : k = slot
  · subst hs
    exact above hk
  · by_cases hp : (k - 1) / 2 = slot
    · rw [hp]
      exact below k hk hp
    · exact hd.elsewhere k hk hs hp

/-- A heap whose items are those of an ordered one but for one slot. -/
theorem Ordered.disturbed (weak : StrictWeak less) (ho : h.Ordered less)
    (same : ∀ k a, k ≠ slot → h'.items[k]? = some a → h.items[k]? = some a) :
    h'.Disturbed less slot where
  elsewhere k hk hs hp a b ha hb := ho k hk a b (same _ _ hs ha) (same _ _ hp hb)
  across k hk hslot hp a b ha hb := by
    have ha' := same _ _ (by omega) ha
    have hb' := same _ _ (by omega) hb
    obtain ⟨hlt, -⟩ := Array.getElem?_eq_some_iff.1 ha'
    -- the item that lay in the slot before stands between the two
    have child : h.Follows less k slot := hp ▸ ho k hk
    exact child.trans weak (by omega) (ho slot hslot) a b ha' hb'

/-! ## Exchanging two slots -/

variable [Keyed α]

theorem getElem?_exchange (hi : i < h.items.size) (hj : j < h.items.size) (k : Nat) :
    (h.exchange i j hi hj).items[k]? = h.items[Equiv.swap i j k]? := by
  unfold exchange
  rw [Array.getElem?_swap, Equiv.swap_apply_def]
  by_cases hki : k = i
  · subst hki
    by_cases hkj : k = j
    · subst hkj
      simp
    · simp [Ne.symm hkj, Array.getElem?_eq_getElem hj]
  · by_cases hkj : k = j
    · subst hkj
      simp [hki, Array.getElem?_eq_getElem hi]
    · simp [hki, hkj, Ne.symm hki, Ne.symm hkj]

theorem follows_exchange (hi : i < h.items.size) (hj : j < h.items.size) (k l : Nat) :
    (h.exchange i j hi hj).Follows less k l ↔
      h.Follows less (Equiv.swap i j k) (Equiv.swap i j l) := by
  unfold Follows
  simp only [getElem?_exchange]

/-! ## Moving up -/

/-- An item that precedes its parent changes places with it: then the heap is out of order around
the parent's slot, and in order below it. -/
theorem Disturbed.raised (weak : StrictWeak less) (hd : h.Disturbed less slot) (hslot : 0 < slot)
    (hs : slot < h.items.size) (hp : (slot - 1) / 2 < h.items.size)
    (first : less h.items[slot] h.items[(slot - 1) / 2] = true) :
    (h.exchange slot ((slot - 1) / 2) hs hp).Disturbed less ((slot - 1) / 2) ∧
      (h.exchange slot ((slot - 1) / 2) hs hp).InOrderBelow less ((slot - 1) / 2) := by
  have behind : h.Follows less ((slot - 1) / 2) slot :=
    (follows_getElem hp hs).2 (weak.asymm first)
  refine ⟨⟨fun k hk hne hpne => ?_, fun k hk hpos hpk => ?_⟩, fun k hk hpk => ?_⟩
  · rw [follows_exchange]
    by_cases hks : k = slot
    · exact absurd (by rw [hks]) hpne
    · rw [Equiv.swap_apply_of_ne_of_ne hks hne]
      by_cases hkp : (k - 1) / 2 = slot
      · rw [hkp, Equiv.swap_apply_left]
        exact hd.across k hk hslot hkp
      · rw [Equiv.swap_apply_of_ne_of_ne hkp hpne]
        exact hd.elsewhere k hk hks hkp
  · -- the parent's own parent is still in its place
    have up : h.Follows less ((slot - 1) / 2) (((slot - 1) / 2 - 1) / 2) :=
      hd.elsewhere _ hpos (by omega) (by omega)
    have still := Equiv.swap_apply_of_ne_of_ne (a := slot) (b := (slot - 1) / 2)
      (x := ((slot - 1) / 2 - 1) / 2) (by omega) (by omega)
    rw [follows_exchange, still]
    by_cases hks : k = slot
    · rw [hks, Equiv.swap_apply_left]
      exact up
    · rw [Equiv.swap_apply_of_ne_of_ne hks (by omega)]
      have child := hd.elsewhere k hk hks (by omega)
      rw [hpk] at child
      exact child.trans weak hp up
  · rw [follows_exchange, Equiv.swap_apply_right]
    by_cases hks : k = slot
    · rw [hks, Equiv.swap_apply_left]
      exact behind
    · rw [Equiv.swap_apply_of_ne_of_ne hks (by omega)]
      have child := hd.elsewhere k hk hks (by omega)
      rw [hpk] at child
      exact child.trans weak hp behind

theorem ordered_siftUp (weak : StrictWeak less) (hd : h.Disturbed less slot)
    (below : h.InOrderBelow less slot) : (h.siftUp less slot).Ordered less := by
  fun_induction siftUp less h slot with
  | case1 h slot hs hp first ih =>
    obtain ⟨disturbed, inOrder⟩ := hd.raised weak hs.1 hs.2 hp first
    exact ih disturbed inOrder
  | case2 h slot hs hp notFirst =>
    refine hd.ordered below fun _ => (follows_getElem hs.2 hp).2 ?_
    simpa using notFirst
  | case3 h slot outside =>
    refine hd.ordered below fun hslot => follows_of_size_le ?_
    omega

/-! ## Moving down -/

omit [Keyed α] in
/-- Neither child of a slot precedes the one that comes first. -/
theorem follows_firstChild (weak : StrictWeak less) (hl : 2 * slot + 1 < h.items.size)
    (hk : 0 < k) (hp : (k - 1) / 2 = slot) : h.Follows less k (h.firstChild less slot hl) := by
  have sides : k = 2 * slot + 1 ∨ k = 2 * slot + 2 := by omega
  unfold firstChild
  split
  · rename_i hr
    split
    · rename_i right
      obtain rfl | rfl := sides
      · exact (follows_getElem hl hr).2 (weak.asymm right)
      · exact (follows_getElem hr hr).2 (weak.not_self _)
    · rename_i left
      obtain rfl | rfl := sides
      · exact (follows_getElem hl hl).2 (weak.not_self _)
      · exact (follows_getElem hr hl).2 (by simpa using left)
  · obtain rfl | rfl := sides
    · exact (follows_getElem hl hl).2 (weak.not_self _)
    · exact follows_of_size_le (by omega)

omit [Keyed α] in
theorem parent_firstChild (less : α → α → Bool) (h : KeyedHeap α) (slot : Nat)
    (hl : 2 * slot + 1 < h.items.size) : (h.firstChild less slot hl - 1) / 2 = slot := by
  unfold firstChild
  split
  · split <;> omega
  · omega

omit [Keyed α] in
/-- An item that its first child does not precede is in order with its children. -/
theorem inOrderBelow_of_firstChild (weak : StrictWeak less) (hl : 2 * slot + 1 < h.items.size)
    (stays : h.Follows less (h.firstChild less slot hl) slot) : h.InOrderBelow less slot := by
  intro k hk hp
  exact (follows_firstChild weak hl hk hp).trans weak (h.firstChild_lt less slot hl) stays

omit [Keyed α] in
theorem inOrderBelow_of_leaf (leaf : ¬ 2 * slot + 1 < h.items.size) :
    h.InOrderBelow less slot := by
  intro k hk hp
  exact follows_of_size_le (by omega)

/-- An item that its first child precedes changes places with it: then the heap is out of order
around the child's slot, and in order above it. -/
theorem Disturbed.lowered (weak : StrictWeak less) (hd : h.Disturbed less slot)
    (hl : 2 * slot + 1 < h.items.size) (hs : slot < h.items.size)
    (hc : h.firstChild less slot hl < h.items.size)
    (first : less h.items[h.firstChild less slot hl] h.items[slot] = true) :
    (h.exchange slot (h.firstChild less slot hl) hs hc).Disturbed less
        (h.firstChild less slot hl) ∧
      (h.exchange slot (h.firstChild less slot hl) hs hc).InOrderAbove less
        (h.firstChild less slot hl) := by
  have parent := parent_firstChild less h slot hl
  have gt := h.lt_firstChild less slot hl
  have others := fun k hk hp => follows_firstChild (k := k) weak hl hk hp
  have behind : h.Follows less slot (h.firstChild less slot hl) :=
    (follows_getElem hs hc).2 (weak.asymm first)
  generalize h.firstChild less slot hl = child at *
  refine ⟨⟨fun k hk hne hpne => ?_, fun k hk hpos hpk => ?_⟩, fun _ => ?_⟩
  · rw [follows_exchange]
    by_cases hks : k = slot
    · subst hks
      rw [Equiv.swap_apply_left, Equiv.swap_apply_of_ne_of_ne (by omega) (by omega)]
      exact hd.across child (by omega) hk parent
    · rw [Equiv.swap_apply_of_ne_of_ne hks hne]
      by_cases hkp : (k - 1) / 2 = slot
      · rw [hkp, Equiv.swap_apply_left]
        exact others k hk hkp
      · rw [Equiv.swap_apply_of_ne_of_ne hkp hpne]
        exact hd.elsewhere k hk hks hkp
  · rw [follows_exchange, parent, Equiv.swap_apply_left,
      Equiv.swap_apply_of_ne_of_ne (by omega) (by omega), ← hpk]
    exact hd.elsewhere k hk (by omega) (by omega)
  · rw [follows_exchange, parent, Equiv.swap_apply_left, Equiv.swap_apply_right]
    exact behind

theorem ordered_siftDown (weak : StrictWeak less) (hd : h.Disturbed less slot)
    (above : h.InOrderAbove less slot) : (h.siftDown less slot).1.Ordered less := by
  fun_induction siftDown less h slot with
  | case1 h slot hl hs hc _ first ih =>
    obtain ⟨disturbed, inOrder⟩ := hd.lowered weak hl hs hc first
    exact ih disturbed inOrder
  | case2 h slot hl hs hc _ notFirst =>
    refine hd.ordered (inOrderBelow_of_firstChild weak hl ?_) above
    exact (follows_getElem hc hs).2 (by simpa using notFirst)
  | case3 h slot leaf => exact hd.ordered (inOrderBelow_of_leaf leaf) above

theorem le_siftDown (less : α → α → Bool) (h : KeyedHeap α) (slot : Nat) :
    slot ≤ (h.siftDown less slot).2 := by
  fun_induction siftDown less h slot with
  | case1 h slot hl hs hc hlt _ ih => omega
  | case2 => exact Nat.le_refl _
  | case3 => exact Nat.le_refl _

/-- Either the item moves down, and the heap is in order, or it stays and is in order with its
children. -/
theorem siftDown_cases (weak : StrictWeak less) (hd : h.Disturbed less slot) :
    (slot < (h.siftDown less slot).2 ∧ (h.siftDown less slot).1.Ordered less) ∨
      (h.siftDown less slot = (h, slot) ∧ h.InOrderBelow less slot) := by
  rw [siftDown]
  by_cases hl : 2 * slot + 1 < h.items.size
  · rw [dif_pos hl]
    have hs : slot < h.items.size := by omega
    have hc := h.firstChild_lt less slot hl
    dsimp only
    by_cases first : less h.items[h.firstChild less slot hl] h.items[slot] = true
    · rw [if_pos first]
      obtain ⟨disturbed, inOrder⟩ := hd.lowered weak hl hs hc first
      have gt := h.lt_firstChild less slot hl
      have le := le_siftDown less (h.exchange slot (h.firstChild less slot hl) hs hc)
        (h.firstChild less slot hl)
      exact .inl ⟨by omega, ordered_siftDown weak disturbed inOrder⟩
    · rw [if_neg first]
      refine .inr ⟨rfl, inOrderBelow_of_firstChild weak hl ?_⟩
      exact (follows_getElem hc hs).2 (by simpa using first)
  · rw [dif_neg hl]
    exact .inr ⟨rfl, inOrderBelow_of_leaf hl⟩

/-- Moving up is needed only where moving down moved nothing. -/
theorem ordered_restore (weak : StrictWeak less) (hd : h.Disturbed less slot) :
    (h.restore less slot).Ordered less := by
  unfold restore
  rcases siftDown_cases weak hd with ⟨moved, ordered⟩ | ⟨stays, below⟩
  · generalize h.siftDown less slot = r at *
    obtain ⟨h', stop⟩ := r
    dsimp only at *
    rw [if_neg (by omega)]
    exact ordered
  · rw [stays]
    dsimp only
    rw [if_pos rfl]
    exact ordered_siftUp weak hd below

/-! ## Calls -/

variable {a : α}

theorem Ordered.push (weak : StrictWeak less) (ho : h.Ordered less)
    (e : h.push less a = .ok h') : h'.Ordered less := by
  unfold KeyedHeap.push at e
  split at e
  · cases e
  · cases e
    refine ordered_siftUp weak (ho.disturbed weak fun k b hk hb => ?_) ?_
    · rw [Array.getElem?_push, if_neg hk] at hb
      exact hb
    · intro k hk hp
      exact follows_of_size_le (by simp; omega)

theorem Ordered.update (weak : StrictWeak less) (ho : h.Ordered less)
    (e : h.update less a = .ok h') : h'.Ordered less := by
  unfold KeyedHeap.update at e
  split at e
  · cases e
  · split at e
    · cases e
      refine ordered_restore weak (ho.disturbed weak fun k b hk hb => ?_)
      rw [Array.getElem?_set_ne _ (Ne.symm hk)] at hb
      exact hb
    · cases e

theorem Ordered.removeAt (weak : StrictWeak less) (ho : h.Ordered less)
    (hs : slot < h.items.size) : (h.removeAt less slot hs).2.Ordered less := by
  -- off the slot that the last item moves into, nothing else changes its place
  have same : ∀ k b, k ≠ slot →
      ((h.items.swap slot (h.items.size - 1)).pop)[k]? = some b → h.items[k]? = some b := by
    intro k b hk hb
    rw [Array.getElem?_pop, Array.size_swap] at hb
    split at hb
    · rw [Array.getElem?_swap, if_neg (by omega), if_neg (Ne.symm hk)] at hb
      exact hb
    · cases hb
  unfold KeyedHeap.removeAt
  dsimp only
  split
  · exact ordered_restore weak (ho.disturbed weak same)
  · rename_i outside
    refine @Disturbed.ordered _ less _ slot (ho.disturbed weak same) ?_ ?_
    · intro k hk hp
      exact follows_of_size_le (by simp at outside ⊢; omega)
    · intro _
      exact follows_of_size_le (by simp at outside ⊢; omega)

theorem Ordered.remove {key : String} (weak : StrictWeak less) (ho : h.Ordered less)
    (e : h.remove less key = .ok (a, h')) : h'.Ordered less := by
  unfold KeyedHeap.remove at e
  split at e
  · cases e
  · rename_i slot _
    split at e
    · rename_i hs
      have := ho.removeAt weak hs
      rw [Except.ok.inj e] at this
      exact this
    · cases e

theorem Ordered.pop (weak : StrictWeak less) (ho : h.Ordered less)
    (e : h.pop less = .ok (a, h')) : h'.Ordered less := by
  unfold KeyedHeap.pop at e
  split at e
  · rename_i hs
    have := ho.removeAt weak hs
    rw [Except.ok.inj e] at this
    exact this
  · cases e

theorem Ordered.call (weak : StrictWeak less) (ho : h.Ordered less) (c : HeapCall α) :
    (h.call less c).2.Ordered less := by
  cases c with
  | push a => exact settle_induction ho fun h' => ho.push weak
  | update a => exact settle_induction ho fun h' => ho.update weak
  | remove a => exact settleItem_induction ho fun a h' => ho.remove weak
  | removeKey key => exact settleItem_induction ho fun a h' => ho.remove weak
  | pop => exact settleItem_induction ho fun a h' => ho.pop weak
  | drain => exact ordered_empty

omit [Keyed α] in
theorem Ordered.peek_first (weak : StrictWeak less) (ho : h.Ordered less)
    (ha : h.peek? = some a) : ∀ b ∈ h.toList, less b a = false := by
  intro b hb
  obtain ⟨slot, hs⟩ := Array.getElem?_of_mem (Array.mem_toList_iff.1 hb)
  exact ho.root_first weak ha hs

/-- Taking items out until there are none gives all of them, none preceding one that came before
it. -/
theorem Ordered.pops (weak : StrictWeak less) (hi : h.Indexed) (ho : h.Ordered less) :
    ∃ sorted : List α,
      h.answers less (List.replicate (h.size + 1) .pop) = sorted.map .item ++ [.refused .empty] ∧
      sorted.Perm h.toList ∧ sorted.Pairwise fun a b => less b a = false := by
  generalize hn : h.size = n
  induction n generalizing h with
  | zero =>
    have nothing : h.toList = [] := List.eq_nil_of_length_eq_zero (by simpa [toList, size] using hn)
    have front : h.peek? = none := by simpa [peek?, size] using hn
    refine ⟨[], ?_, by rw [nothing], .nil⟩
    simp [answers, KeyedHeap.call, settleItem, pop_of_peek?_none front]
  | succ n ih =>
    have hs : 0 < h.items.size := by
      unfold size at hn
      omega
    obtain ⟨a, front⟩ : ∃ a, h.peek? = some a := ⟨_, Array.getElem?_eq_getElem hs⟩
    obtain ⟨h', e, hi', p⟩ := pop_spec less hi front
    have hn' : h'.size = n := by
      have := p.length_eq
      simp only [toList, Array.length_toList, List.length_cons] at this
      unfold size at *
      omega
    obtain ⟨sorted, answers_eq, perm, pairwise⟩ := ih hi' (ho.pop weak e) hn'
    refine ⟨a :: sorted, ?_, (perm.cons a).trans p.symm, ?_⟩
    · rw [List.replicate_succ, answers]
      simp only [KeyedHeap.call, e, settleItem]
      rw [answers_eq]
      rfl
    · refine List.pairwise_cons.2 ⟨fun b hb => ?_, pairwise⟩
      exact ho.peek_first weak front b (p.mem_iff.2 (List.mem_cons_of_mem _ (perm.mem_iff.1 hb)))

/-- In every heap that calls on the empty one can leave, no item precedes its parent. So the item in
front is first, a pop takes it, and popping to the end gives all items in order. -/
theorem in_heap_order (weak : StrictWeak less) (calls : List (HeapCall α)) :
    let h := after less .empty calls
    (∀ slot (hs : slot < h.items.size), 0 < slot →
      less h.items[slot] h.items[(slot - 1) / 2] = false) ∧
    h.peek? = h.toList.head? ∧
    (∀ a, h.peek? = some a → (∀ b ∈ h.toList, less b a = false) ∧
      ∃ h', h.pop less = .ok (a, h') ∧ h.toList.Perm (a :: h'.toList)) ∧
    ((∃ e, h.pop less = .error e) ↔ h.toList = []) ∧
    ∃ sorted : List α,
      h.answers less (List.replicate (h.size + 1) .pop) = sorted.map .item ++ [.refused .empty] ∧
      sorted.Perm h.toList ∧ sorted.Pairwise fun a b => less b a = false := by
  intro h
  have indexed : h.Indexed := indexed_after less calls
  have ordered : h.Ordered less :=
    after_induction (fun _ c ho => ho.call weak c) ordered_empty calls
  refine ⟨fun slot hs hpos => ?_, ?_, fun a ha => ⟨ordered.peek_first weak ha, ?_⟩, ?_,
    ordered.pops weak indexed⟩
  · exact (follows_getElem hs (by omega)).1 (ordered slot hpos)
  · unfold peek? toList
    rw [List.head?_eq_getElem?, Array.getElem?_toList]
  · obtain ⟨h', e, -, p⟩ := pop_spec less indexed ha
    exact ⟨h', e, p⟩
  · rcases hp : h.peek? with _ | a
    · refine iff_of_true ⟨_, pop_of_peek?_none hp⟩ ?_
      simpa [peek?, toList] using hp
    · obtain ⟨h', e, -, p⟩ := pop_spec less indexed hp
      rw [e]
      refine iff_of_false (by simp) fun nothing => ?_
      rw [nothing] at p
      exact List.not_mem_nil (p.mem_iff.2 List.mem_cons_self)

/-- Two candidates of which the one that came first is moved behind the other by an update. -/
theorem perm_after_update (less : JobOrder) {x y x' : Candidate} (hk : x'.key = x.key)
    (hne : x.key ≠ y.key) :
    (after less .empty [.push x, .push y, .update x']).toList.Perm [x', y] := by
  have free : (empty : KeyedHeap Candidate).contains x.key = false := by simp [contains, empty]
  obtain ⟨h₁, e₁, i₁, p₁⟩ := push_spec less indexed_empty free
  have free' : h₁.contains y.key = false := by
    refine Bool.eq_false_iff.2 fun held => ?_
    rcases (indexed_empty.contains_of_added i₁ p₁ _).1 held with e | none
    · exact hne e
    · simp [contains, empty] at none
  obtain ⟨h₂, e₂, i₂, p₂⟩ := push_spec less i₁ free'
  have held : h₂.find? (Keyed.key x') = some x := by
    refine i₂.find?_eq_some_iff.2 ⟨?_, hk.symm⟩
    exact p₂.mem_iff.2 (List.mem_cons_of_mem _ (p₁.mem_iff.2 List.mem_cons_self))
  obtain ⟨h₃, rest, e₃, -, before, last⟩ := update_spec less i₂ held
  have all : h₂.toList.Perm [x, y] :=
    p₂.trans ((p₁.cons y).trans (List.Perm.swap x y []))
  simp only [after_cons, after_nil, call, e₁, settle, e₂, e₃]
  exact last.trans ((before.symm.trans all).cons_inv.cons x')

/-- A candidate whose window is made longer leaves the front to the other one. -/
theorem in_heap_order_deadlines :
    let order : JobOrder := fun a b =>
      RetryPolicy.standard.deadline a < RetryPolicy.standard.deadline b
    let x : Candidate := ⟨"n/x", Job.new "n" "x" "TFJob", 0, 1, 0⟩
    let y : Candidate := ⟨"n/y", Job.new "n" "y" "TFJob", 0, 2, 0⟩
    let h := after order .empty [.push x, .push y, .update { x with attempts := 3 }]
    StrictWeak order ∧ h.peek? = some y ∧
      h.answers order [.pop, .pop, .pop] =
        [.item y, .item { x with attempts := 3 }, .refused .empty] := by
  intro order x y h
  have weak : StrictWeak order := .of_measure _
  have behind : order y { x with attempts := 3 } = true := by decide
  have held : h.toList.Perm [{ x with attempts := 3 }, y] :=
    perm_after_update order rfl (by decide)
  have two : h.size = 2 := (show h.toList.length = h.size from Array.length_toList) ▸
    held.length_eq
  obtain ⟨-, front, first, -, sorted, popped, perm, inOrder⟩ :=
    in_heap_order weak [.push x, .push y, .update { x with attempts := 3 }]
  -- of the two ways to list both, the order leaves one
  have ways : ∀ l : List Candidate, l.Perm [{ x with attempts := 3 }, y] →
      l = [{ x with attempts := 3 }, y] ∨ l = [y, { x with attempts := 3 }] := by
    intro l p
    simpa [List.permutations', List.permutations'Aux] using List.mem_permutations'.2 p
  refine ⟨weak, ?_, ?_⟩
  · rcases ways _ held with e | e
    · have later := first { x with attempts := 3 } (front.trans (by rw [e]; rfl))
      have := later.1 y (held.mem_iff.2 (by simp))
      rw [behind] at this
      cases this
    · exact front.trans (by rw [e]; rfl)
  · rcases ways _ (perm.trans held) with rfl | rfl
    · have := List.rel_of_pairwise_cons inOrder (List.mem_singleton.2 rfl)
      rw [behind] at this
      cases this
    · rw [two] at popped
      exact popped

end KeyedHeap

end JobAdmission
