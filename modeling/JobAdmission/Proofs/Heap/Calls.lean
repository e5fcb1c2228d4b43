/-
A heap as its users see it: a call, the answer to it, and the heap left behind. A refused call
leaves the heap it was made on. A run is a list of calls made one after the other, so what holds of
every heap that a run from the empty one reaches is what a single call keeps.
-/
import JobAdmission.Proofs.Heap.Index

namespace JobAdmission

/-- What a heap can be asked to do. -/
inductive HeapCall (α : Type) where
  | push (a : α)
  | update (a : α)
  | remove (a : α)
  | removeKey (key : String)
  | pop
  | drain

inductive HeapAnswer (α : Type) where
  | done
  | item (a : α)
  | items (all : List α)
  | refused (error : AdmissionError)

namespace KeyedHeap

variable {α : Type}

/-- The outcome of a call that answers with the new heap only. -/
def settle (h : KeyedHeap α) : Except AdmissionError (KeyedHeap α) → HeapAnswer α × KeyedHeap α
  | .ok h' => (.done, h')
  | .error e => (.refused e, h)

/-- The outcome of a call that answers with an item. -/
def settleItem (h : KeyedHeap α) :
    Except AdmissionError (α × KeyedHeap α) → HeapAnswer α × KeyedHeap α
  | .ok (a, h') => (.item a, h')
  | .error e => (.refused e, h)

variable [Keyed α] {less : α → α → Bool}

/-- The answer to a call, and the heap after it. -/
def call (less : α → α → Bool) (h : KeyedHeap α) : HeapCall α → HeapAnswer α × KeyedHeap α
  | .push a => h.settle (h.push less a)
  | .update a => h.settle (h.update less a)
  | .remove a => h.settleItem (h.remove less (Keyed.key a))
  | .removeKey key => h.settleItem (h.remove less key)
  | .pop => h.settleItem (h.pop less)
  | .drain => (.items h.drain.1, h.drain.2)

/-- The answers to a list of calls, each made on the heap that the ones before it left. -/
def answers (less : α → α → Bool) (h : KeyedHeap α) : List (HeapCall α) → List (HeapAnswer α)
  | [] => []
  | c :: rest => (h.call less c).1 :: answers less (h.call less c).2 rest

/-- The heap after a list of calls. -/
def after (less : α → α → Bool) (h : KeyedHeap α) (calls : List (HeapCall α)) : KeyedHeap α :=
  calls.foldl (fun h c => (h.call less c).2) h

@[simp] theorem after_nil (h : KeyedHeap α) : h.after less [] = h := rfl

@[simp] theorem after_cons (h : KeyedHeap α) (c : HeapCall α) (rest : List (HeapCall α)) :
    h.after less (c :: rest) = (h.call less c).2.after less rest := rfl

omit [Keyed α] in
theorem settle_refused {h : KeyedHeap α} {r : Except AdmissionError (KeyedHeap α)}
    {e : AdmissionError} (hr : (h.settle r).1 = .refused e) : (h.settle r).2 = h := by
  cases r with
  | ok h' => cases hr
  | error e' => rfl

omit [Keyed α] in
theorem settleItem_refused {h : KeyedHeap α} {r : Except AdmissionError (α × KeyedHeap α)}
    {e : AdmissionError} (hr : (h.settleItem r).1 = .refused e) : (h.settleItem r).2 = h := by
  cases r with
  | ok p => cases hr
  | error e' => rfl

omit [Keyed α] in
/-- What holds of the heap before a call, and of the heap that the call may answer with, holds of
the heap after it. -/
theorem settle_induction {P : KeyedHeap α → Prop} {h : KeyedHeap α}
    {r : Except AdmissionError (KeyedHeap α)} (hp : P h) (hr : ∀ h', r = .ok h' → P h') :
    P (h.settle r).2 := by
  cases r with
  | ok h' => exact hr h' rfl
  | error e => exact hp

omit [Keyed α] in
theorem settleItem_induction {P : KeyedHeap α → Prop} {h : KeyedHeap α}
    {r : Except AdmissionError (α × KeyedHeap α)} (hp : P h)
    (hr : ∀ a h', r = .ok (a, h') → P h') : P (h.settleItem r).2 := by
  cases r with
  | ok p => exact hr p.1 p.2 rfl
  | error e => exact hp

theorem call_refused {h : KeyedHeap α} {c : HeapCall α} {e : AdmissionError}
    (hr : (h.call less c).1 = .refused e) : (h.call less c).2 = h := by
  cases c with
  | push a => exact settle_refused hr
  | update a => exact settle_refused hr
  | remove a => exact settleItem_refused hr
  | removeKey key => exact settleItem_refused hr
  | pop => exact settleItem_refused hr
  | drain => cases hr

/-- What a single call keeps holds after every run. -/
theorem after_induction {P : KeyedHeap α → Prop} (step : ∀ h c, P h → P (h.call less c).2)
    {h : KeyedHeap α} (hp : P h) (calls : List (HeapCall α)) : P (h.after less calls) := by
  induction calls generalizing h with
  | nil => exact hp
  | cons c rest ih => exact ih (step h c hp)

end KeyedHeap

end JobAdmission
