/-
A binary heap whose items can be found by key. The items lie in an array in heap order under a
comparison given to each operation, and an index maps every key held to the slot of its item, so an
item is found at once and updated or removed in logarithmic time. Slot zero holds an item that no
other precedes. The comparison decides only the order in the array: as a map from keys to items the
heap is the same for any comparison at all.
-/
import Std.Data.HashMap
import JobAdmission.Error
import JobAdmission.Text.Shown

namespace JobAdmission

/-- Items that carry the key they are held under. -/
class Keyed (α : Type) where
  key : α → String

/-- A heap with an index from keys to slots. -/
structure KeyedHeap (α : Type) where
  items : Array α
  index : Std.HashMap String Nat

namespace KeyedHeap

variable {α : Type} [Keyed α]

/-- The heap that holds nothing. -/
def empty : KeyedHeap α := ⟨#[], ∅⟩

instance : Inhabited (KeyedHeap α) := ⟨empty⟩

/-- The number of items. -/
def size (h : KeyedHeap α) : Nat := h.items.size

/-- The items in the order of their slots. -/
def toList (h : KeyedHeap α) : List α := h.items.toList

/-- An item that none precedes. -/
def peek? (h : KeyedHeap α) : Option α := h.items[0]?

/-- The item held under a key. -/
def find? (h : KeyedHeap α) (key : String) : Option α :=
  h.index[key]?.bind fun slot => h.items[slot]?

/-- Whether an item is held under a key. -/
def contains (h : KeyedHeap α) (key : String) : Bool := h.index.contains key

/-! ## Repair of the order -/

/-- Swap the items of two slots. -/
def exchange (h : KeyedHeap α) (i j : Nat) (hi : i < h.items.size) (hj : j < h.items.size) :
    KeyedHeap α :=
  { items := h.items.swap i j hi hj
    index := (h.index.insert (Keyed.key h.items[j]) i).insert (Keyed.key h.items[i]) j }

theorem size_items_exchange (h : KeyedHeap α) (i j : Nat) (hi : i < h.items.size)
    (hj : j < h.items.size) : (h.exchange i j hi hj).items.size = h.items.size := by
  simp [exchange]

/-- Move the item of a slot up while it precedes its parent. -/
def siftUp (less : α → α → Bool) (h : KeyedHeap α) (slot : Nat) : KeyedHeap α :=
  if hs : 0 < slot ∧ slot < h.items.size then
    have hp : (slot - 1) / 2 < h.items.size := by omega
    if less (h.items[slot]) h.items[(slot - 1) / 2] then
      siftUp less (h.exchange slot ((slot - 1) / 2) hs.2 hp) ((slot - 1) / 2)
    else h
  else h
termination_by slot
decreasing_by omega

/-- The child of a slot that comes first: the right one only if it precedes the left one. -/
def firstChild (less : α → α → Bool) (h : KeyedHeap α) (slot : Nat)
    (hl : 2 * slot + 1 < h.items.size) : Nat :=
  if hr : 2 * slot + 2 < h.items.size then
    if less h.items[2 * slot + 2] h.items[2 * slot + 1] then 2 * slot + 2 else 2 * slot + 1
  else 2 * slot + 1

omit [Keyed α] in
theorem firstChild_lt (less : α → α → Bool) (h : KeyedHeap α) (slot : Nat)
    (hl : 2 * slot + 1 < h.items.size) : h.firstChild less slot hl < h.items.size := by
  unfold firstChild
  split
  · split <;> assumption
  · assumption

omit [Keyed α] in
theorem lt_firstChild (less : α → α → Bool) (h : KeyedHeap α) (slot : Nat)
    (hl : 2 * slot + 1 < h.items.size) : slot < h.firstChild less slot hl := by
  unfold firstChild
  split
  · split <;> omega
  · omega

/-- Move the item of a slot down while its first child precedes it. The result names the slot in
which the item ends. -/
def siftDown (less : α → α → Bool) (h : KeyedHeap α) (slot : Nat) : KeyedHeap α × Nat :=
  if hl : 2 * slot + 1 < h.items.size then
    have hs : slot < h.items.size := by omega
    have hc := h.firstChild_lt less slot hl
    have hlt := h.lt_firstChild less slot hl
    if less h.items[h.firstChild less slot hl] h.items[slot] then
      siftDown less (h.exchange slot (h.firstChild less slot hl) hs hc)
        (h.firstChild less slot hl)
    else (h, slot)
  else (h, slot)
termination_by h.items.size - slot
decreasing_by
  rw [size_items_exchange]
  omega

/-- Repair the order around a slot whose item was replaced: down, and if that moves nothing, up. -/
def restore (less : α → α → Bool) (h : KeyedHeap α) (slot : Nat) : KeyedHeap α :=
  let (h', stop) := h.siftDown less slot
  if stop = slot then h'.siftUp less slot else h'

/-! ## Operations -/

/-- Hold a new item. -/
def push (less : α → α → Bool) (h : KeyedHeap α) (a : α) : Except AdmissionError (KeyedHeap α) :=
  if h.contains (Keyed.key a) then .error (.duplicateKey (Keyed.key a))
  else
    let slot := h.items.size
    .ok (siftUp less ⟨h.items.push a, h.index.insert (Keyed.key a) slot⟩ slot)

/-- Put an item in the place of the one with the same key. -/
def update (less : α → α → Bool) (h : KeyedHeap α) (a : α) : Except AdmissionError (KeyedHeap α) :=
  match h.index[Keyed.key a]? with
  | none => .error (.notFound (Keyed.key a))
  | some slot =>
    if hs : slot < h.items.size then .ok (restore less { h with items := h.items.set slot a } slot)
    else .error (.notFound (Keyed.key a))

/-- Take the item out of a slot: the last item moves into it. -/
def removeAt (less : α → α → Bool) (h : KeyedHeap α) (slot : Nat) (hs : slot < h.items.size) :
    α × KeyedHeap α :=
  let removed := h.items[slot]
  let items := (h.items.swap slot (h.items.size - 1)).pop
  let index := h.index.erase (Keyed.key removed)
  if hs' : slot < items.size then
    (removed, restore less ⟨items, index.insert (Keyed.key items[slot]) slot⟩ slot)
  else (removed, ⟨items, index⟩)

/-- Take out the item held under a key. -/
def remove (less : α → α → Bool) (h : KeyedHeap α) (key : String) :
    Except AdmissionError (α × KeyedHeap α) :=
  match h.index[key]? with
  | none => .error (.notFound key)
  | some slot =>
    if hs : slot < h.items.size then .ok (h.removeAt less slot hs) else .error (.notFound key)

/-- Take out an item that none precedes. -/
def pop (less : α → α → Bool) (h : KeyedHeap α) : Except AdmissionError (α × KeyedHeap α) :=
  if hs : 0 < h.items.size then .ok (h.removeAt less 0 hs) else .error .empty

/-- Take out everything, in the order of the slots. -/
def drain (h : KeyedHeap α) : List α × KeyedHeap α := (h.toList, empty)

/-- The inspection form of a heap. -/
def shown (h : KeyedHeap α) : String := Text.openRecord "Heap" [("len", toString h.size)]

end KeyedHeap

end JobAdmission
