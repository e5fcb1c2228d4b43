/-
What a trail holds. After any decisions it holds the latest of them, as many as it has room for, in
the order in which they were recorded: one is dropped only when all older ones are gone.
-/
import JobAdmission.Audit
import Mathlib.Data.List.DropRight

namespace JobAdmission

namespace AuditTrail

variable {α : Type} {t : AuditTrail α}

/-- Record decisions one after the other. -/
def recordAll (t : AuditTrail α) (ds : List α) : AuditTrail α := ds.foldl record t

theorem recordAll_append (t : AuditTrail α) (ds ds' : List α) :
    t.recordAll (ds ++ ds') = (t.recordAll ds).recordAll ds' := List.foldl_append

/-- A trail holds no more than it has room for. -/
def Bounded (t : AuditTrail α) : Prop := t.decisions.length ≤ t.capacity

theorem bounded_new (capacity : Nat) : (new capacity : AuditTrail α).Bounded := Nat.zero_le _

/-! ## One more decision -/

theorem capacity_record (t : AuditTrail α) (d : α) : (t.record d).capacity = t.capacity := by
  unfold record
  split
  · rfl
  · split <;> rfl

/-- The trail holds the latest of the decisions that it held and the new one. -/
theorem decisions_record (bounded : t.Bounded) (d : α) :
    (t.record d).decisions = (t.decisions ++ [d]).rtake t.capacity := by
  unfold Bounded at bounded
  unfold record List.rtake
  rw [List.length_append, List.length_singleton]
  split
  · rename_i none
    -- a trail without room holds nothing, and the new decision is the one that is dropped
    have empty : t.decisions = [] := List.eq_nil_of_length_eq_zero (by omega)
    rw [none, empty]
    rfl
  · rename_i room
    split
    · have one : t.decisions.length + 1 - t.capacity = 1 := by omega
      rw [one, List.drop_append_of_le_length (by omega)]
    · have all : t.decisions.length + 1 - t.capacity = 0 := by omega
      rw [all, List.drop_zero]

theorem Bounded.record (bounded : t.Bounded) (d : α) : (t.record d).Bounded := by
  unfold Bounded
  rw [decisions_record bounded, capacity_record, List.rtake, List.length_drop]
  omega

/-! ## Any decisions -/

theorem capacity_recordAll (t : AuditTrail α) (ds : List α) :
    (t.recordAll ds).capacity = t.capacity := by
  induction ds generalizing t with
  | nil => rfl
  | cons d ds ih => exact (ih (t.record d)).trans (capacity_record t d)

theorem Bounded.recordAll (bounded : t.Bounded) (ds : List α) : (t.recordAll ds).Bounded := by
  induction ds generalizing t with
  | nil => exact bounded
  | cons d ds ih => exact ih (bounded.record d)

/-- What was dropped before is older than what is dropped then. -/
theorem rtake_rtake_concat (l : List α) (d : α) (n : Nat) :
    (l.rtake n ++ [d]).rtake n = (l ++ [d]).rtake n := by
  cases n with
  | zero => rw [List.rtake_zero, List.rtake_zero]
  | succ n =>
    have shorter : (l.rtake (n + 1)).rtake n = l.rtake n := by
      simp only [List.rtake, List.drop_drop, List.length_drop]
      congr 1
      omega
    rw [List.rtake_concat_succ, List.rtake_concat_succ, shorter]

/-- The trail holds the latest of the decisions that it held and the new ones. -/
theorem decisions_recordAll (bounded : t.Bounded) (ds : List α) :
    (t.recordAll ds).decisions = (t.decisions ++ ds).rtake t.capacity := by
  -- from the end: the last decision is recorded in a trail that holds the latest of the others
  induction ds using List.reverseRecOn with
  | nil =>
    unfold Bounded at bounded
    rw [List.append_nil, List.rtake, Nat.sub_eq_zero_of_le bounded]
    rfl
  | append_singleton ds d ih =>
    rw [recordAll_append]
    show ((t.recordAll ds).record d).decisions = _
    rw [decisions_record (bounded.recordAll ds), ih, capacity_recordAll, rtake_rtake_concat,
      List.append_assoc]

/-- A trail with room for all of them keeps the decisions as they come. -/
theorem recordAll_of_room {ds : List α} (room : t.decisions.length + ds.length ≤ t.capacity) :
    t.recordAll ds = { t with decisions := t.decisions ++ ds } := by
  have bounded : t.Bounded := Nat.le_of_add_right_le room
  have kept : (t.recordAll ds).decisions = t.decisions ++ ds := by
    rw [decisions_recordAll bounded, List.rtake, List.length_append,
      Nat.sub_eq_zero_of_le room, List.drop_zero]
  rw [← kept, ← capacity_recordAll t ds]

/-- After any decisions a new trail holds exactly the latest of them, all or as many as it has room
for, in the order in which they were recorded; all that it dropped is older. About a job it shows
those that it holds and that are about the job. -/
theorem keeps_latest (capacity : Nat) (ds : List α) (keyOf : α → String) :
    ∃ dropped kept, ds = dropped ++ kept ∧ kept.length = min ds.length capacity ∧
      ((new capacity).recordAll ds).decisions = kept ∧
      ∀ key, ((new capacity).recordAll ds).about keyOf key = kept.filter (keyOf · = key) := by
  have latest : ((new capacity).recordAll ds).decisions = ds.rtake capacity :=
    decisions_recordAll (bounded_new capacity) ds
  have whole : ds.take (ds.length - capacity) ++ ds.rtake capacity = ds :=
    List.take_append_drop _ ds
  have many : (ds.rtake capacity).length = min ds.length capacity := by
    rw [List.rtake, List.length_drop]
    omega
  refine ⟨_, _, whole.symm, many, latest, fun key => ?_⟩
  rw [about, latest]
  rfl

example :
    ((new 2).recordAll [⟨"n/a", "n", .enqueue, none⟩, ⟨"n/b", "n", .enqueue, none⟩,
      ⟨"n/a", "n", .discard, none⟩]).about Decision.key "n/a" =
    [⟨"n/a", "n", .discard, none⟩] := by
  decide

end AuditTrail

end JobAdmission
