/-
Maps by name as sets of names: which names are bound after a binding is added or dropped, and that
no name is listed twice.
-/
import JobAdmission.NameMap
import Mathlib.Data.List.Perm.Basic
import Mathlib.Data.List.Nodup
import Mathlib.Tactic.Common

namespace JobAdmission

namespace NameMap

variable {α : Type} {m : NameMap α}

theorem nodup_names (m : NameMap α) : m.names.Nodup := by
  unfold names
  rw [List.nodup_iff_pairwise_ne, List.pairwise_map]
  refine m.sorted.imp ?_
  rintro a b h e
  exact String.lt_irrefl _ (e ▸ h)

theorem mem_names {name : String} : name ∈ m.names ↔ m.contains name = true := by
  unfold names contains
  rw [List.mem_map, Option.isSome_iff_exists]
  constructor
  · rintro ⟨e, he, rfl⟩
    exact ⟨e.2, get?_eq_some_iff.2 he⟩
  · rintro ⟨value, e⟩
    exact ⟨(name, value), get?_eq_some_iff.1 e, rfl⟩

theorem mem_values {a : α} : a ∈ m.values ↔ ∃ name, m.get? name = some a := by
  unfold values
  rw [List.mem_map]
  constructor
  · rintro ⟨e, he, rfl⟩
    exact ⟨e.1, get?_eq_some_iff.2 he⟩
  · rintro ⟨name, e⟩
    exact ⟨(name, a), get?_eq_some_iff.1 e, rfl⟩

theorem contains_insert (m : NameMap α) (name other : String) (value : α) :
    (m.insert name value).contains other = true ↔ other = name ∨ m.contains other = true := by
  unfold contains
  rw [get?_insert]
  split
  · rename_i h; simp [h]
  · rename_i h; simp [Ne.symm h]

theorem contains_erase (m : NameMap α) (name other : String) :
    (m.erase name).contains other = true ↔ other ≠ name ∧ m.contains other = true := by
  unfold contains
  rw [get?_erase]
  split
  · rename_i h; simp [h]
  · rename_i h; simp [Ne.symm h]

theorem names_insert_perm {name : String} (h : m.contains name = false) (value : α) :
    (m.insert name value).names.Perm (name :: m.names) := by
  have free : name ∉ m.names := fun hm => by rw [mem_names.1 hm] at h; cases h
  refine (List.perm_ext_iff_of_nodup (nodup_names _)
    (List.nodup_cons.2 ⟨free, nodup_names m⟩)).2 fun other => ?_
  rw [mem_names, contains_insert, List.mem_cons, mem_names]

theorem names_erase_perm {name : String} (h : m.contains name = true) :
    m.names.Perm (name :: (m.erase name).names) := by
  have gone : name ∉ (m.erase name).names := fun hm =>
    ((contains_erase m name name).1 (mem_names.1 hm)).1 rfl
  refine (List.perm_ext_iff_of_nodup (nodup_names m)
    (List.nodup_cons.2 ⟨gone, nodup_names _⟩)).2 fun other => ?_
  rw [mem_names, List.mem_cons, mem_names, contains_erase]
  by_cases e : other = name
  · subst e; simp [h]
  · simp [e]

end NameMap

end JobAdmission
