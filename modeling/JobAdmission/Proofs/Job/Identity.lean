/-
Written identities of jobs. A text with three separators is read as an identity with a uid, one with
two as an identity without, and no other text is read. What was read is written as the text it was
read from, and what was written is read back exactly if no field holds a separator; an empty field
is a field like any other, so a uid that is empty is not one that is absent.
-/
import JobAdmission.Job.Key
import Mathlib.Data.List.Basic

namespace JobAdmission.JobKey

variable {s : String} {k : JobKey}

/-- No field holds a separator. -/
def Plain (k : JobKey) : Prop := ∀ f ∈ k.parts, separator ∉ f.toList

instance (k : JobKey) : Decidable k.Plain :=
  inferInstanceAs (Decidable (∀ f ∈ k.parts, separator ∉ f.toList))

theorem fieldsOf_eq_parts_iff : Text.fieldsOf separator s = k.parts ↔ k.Plain ∧ k.text = s :=
  Text.fieldsOf_eq_iff (by simp [parts])

theorem parts_of_uid {uid : String} (h : k.uid = some uid) :
    k.parts = [k.kind, k.ns, k.name, uid] := by
  simp [parts, h]

theorem parts_of_no_uid (h : k.uid = none) : k.parts = [k.kind, k.ns, k.name] := by
  simp [parts, h]

/-- The reader of four fields finds the identities with a uid by their fields. -/
theorem parse_eq_ok_iff :
    parse s = .ok k ↔ k.uid ≠ none ∧ Text.fieldsOf separator s = k.parts := by
  constructor
  · intro h
    unfold parse at h
    split at h
    · rename_i kind ns name uid whole
      cases h
      exact ⟨nofun, whole⟩
    · cases h
  · rintro ⟨known, whole⟩
    obtain ⟨uid, h⟩ := Option.ne_none_iff_exists'.1 known
    obtain ⟨kind, ns, name, _⟩ := k
    cases h
    unfold parse
    rw [whole, parts_of_uid rfl]

/-- The reader of three fields finds the identities without a uid by their fields. -/
theorem parseJob_eq_ok_iff :
    parseJob s = .ok k ↔ k.uid = none ∧ Text.fieldsOf separator s = k.parts := by
  constructor
  · intro h
    unfold parseJob at h
    split at h
    · rename_i kind ns name whole
      cases h
      exact ⟨rfl, whole⟩
    · cases h
  · rintro ⟨h, whole⟩
    obtain ⟨kind, ns, name, _⟩ := k
    cases h
    unfold parseJob
    rw [whole, parts_of_no_uid rfl]

theorem parse_accepts_iff : (∃ k, parse s = .ok k) ↔ s.toList.count separator = 3 := by
  have length := Text.length_fieldsOf separator s
  unfold parse
  split
  · rename_i kind ns name uid whole
    rw [whole] at length
    exact iff_of_true ⟨_, rfl⟩ (Nat.succ.inj length).symm
  · rename_i other
    refine iff_of_false (by simp) fun three => ?_
    rw [three] at length
    obtain ⟨kind, ns, name, uid, whole⟩ := List.length_eq_four.1 length
    exact other kind ns name uid whole

theorem parseJob_accepts_iff : (∃ k, parseJob s = .ok k) ↔ s.toList.count separator = 2 := by
  have length := Text.length_fieldsOf separator s
  unfold parseJob
  split
  · rename_i kind ns name whole
    rw [whole] at length
    exact iff_of_true ⟨_, rfl⟩ (Nat.succ.inj length).symm
  · rename_i other
    refine iff_of_false (by simp) fun two => ?_
    rw [two] at length
    obtain ⟨kind, ns, name, whole⟩ := List.length_eq_three.1 length
    exact other kind ns name whole

/-- A text is read as an identity exactly if it is what the identity is written as and no field of
the identity holds a separator, by the reader of four fields if there is a uid and by that of three
if there is none. The first reads exactly the texts with three separators and the second those with
two, so no text is read by both. -/
theorem reads_exactly_what_is_written (s : String) (k : JobKey) :
    (parse s = .ok k ↔ k.uid ≠ none ∧ k.Plain ∧ k.text = s) ∧
      (parseJob s = .ok k ↔ k.uid = none ∧ k.Plain ∧ k.text = s) ∧
      ((∃ k, parse s = .ok k) ↔ s.toList.count separator = 3) ∧
      ((∃ k, parseJob s = .ok k) ↔ s.toList.count separator = 2) ∧
      ¬ ((∃ k, parse s = .ok k) ∧ ∃ k, parseJob s = .ok k) := by
  refine ⟨?_, ?_, parse_accepts_iff, parseJob_accepts_iff, ?_⟩
  · rw [parse_eq_ok_iff, fieldsOf_eq_parts_iff]
  · rw [parseJob_eq_ok_iff, fieldsOf_eq_parts_iff]
  · rw [parse_accepts_iff, parseJob_accepts_iff]
    rintro ⟨three, two⟩
    omega

example : parse "TFJob/n//" = .ok ⟨"TFJob", "n", "", some ""⟩ ∧
    parseJob "TFJob/n/" = .ok ⟨"TFJob", "n", "", none⟩ := by
  decide +kernel

end JobAdmission.JobKey
