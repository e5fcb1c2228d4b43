/-
The pieces of a string between its separators.
-/

namespace JobAdmission.Text

variable {sep : Char} {s : String}

/-- The pieces of a string, one more than it has separators. -/
def fieldsOf (sep : Char) (s : String) : List String := (s.toList.splitOn sep).map String.ofList

theorem fieldsOf_ne_nil (sep : Char) (s : String) : fieldsOf sep s ≠ [] := by
  simp [fieldsOf, List.splitOn_ne_nil]

theorem not_mem_of_mem_splitOn {cs f : List Char} (h : f ∈ cs.splitOn sep) : sep ∉ f := by
  induction cs generalizing f with
  | nil => simp_all
  | cons c rest ih =>
    obtain ⟨first, later, whole⟩ := List.exists_cons_of_ne_nil (List.splitOn_ne_nil sep rest)
    rw [List.splitOn_cons_eq_if_modifyHead, whole] at h
    rw [whole] at ih
    split at h
    · rcases List.mem_cons.1 h with rfl | h
      · simp
      · exact ih h
    · rename_i other
      rcases List.mem_cons.1 h with rfl | h
      · have distinct : sep ≠ c := fun e => other (by simp [e])
        simpa [distinct] using ih List.mem_cons_self
      · exact ih (List.mem_cons_of_mem _ h)

theorem length_splitOn (sep : Char) (cs : List Char) :
    (cs.splitOn sep).length = cs.count sep + 1 := by
  induction cs with
  | nil => simp
  | cons c rest ih =>
    rw [List.splitOn_cons_eq_if_modifyHead, List.count_cons]
    split <;> simp [ih]

theorem length_fieldsOf (sep : Char) (s : String) :
    (fieldsOf sep s).length = s.toList.count sep + 1 := by
  rw [fieldsOf, List.length_map, length_splitOn]

/-- The pieces are those without separators that are joined to the string. -/
theorem fieldsOf_eq_iff {fs : List String} (some : fs ≠ []) :
    fieldsOf sep s = fs ↔
      (∀ f ∈ fs, sep ∉ f.toList) ∧ (String.singleton sep).intercalate fs = s := by
  rw [← String.toList_inj, String.toList_intercalate, String.toList_singleton]
  constructor
  · rintro rfl
    refine ⟨?_, ?_⟩
    · intro f h
      obtain ⟨cs, piece, rfl⟩ := List.mem_map.1 h
      simpa using not_mem_of_mem_splitOn piece
    · simp [fieldsOf, Function.comp_def, List.intercalate_splitOn]
  · rintro ⟨plain, whole⟩
    rw [fieldsOf, ← whole,
      List.splitOn_intercalate sep (by simpa using plain) (by simpa using some)]
    simp [Function.comp_def]

end JobAdmission.Text
