/-
Reading back what was written, part by part. A number, a list and a map are read as they were
written. Of a record every member is found under its name, and one that was left out is missing. A
value that a tagged choice holds is never nested too deep to be looked through.
-/
import JobAdmission.Json.Decode
import JobAdmission.Proofs.NameMap

namespace JobAdmission

namespace NameMap

variable {α : Type}

/-- A map made of bindings of different names finds each of them. -/
theorem get?_ofList {l : List (String × α)} (nodup : (l.map (·.1)).Nodup) (name : String) :
    (ofList l).get? name = (l.find? (·.1 == name)).map (·.2) := by
  -- the bindings come on top of those that are there already
  have onto : ∀ m : NameMap α, (l.foldl (fun m e => m.insert e.1 e.2) m).get? name =
      ((l.find? (·.1 == name)).map (·.2)).or (m.get? name) := by
    induction l with
    | nil => simp
    | cons e l ih =>
      rw [List.map_cons, List.nodup_cons] at nodup
      intro m
      rw [List.foldl_cons, ih nodup.2, get?_insert, List.find?_cons]
      by_cases h : e.1 = name
      · have absent : l.find? (·.1 == name) = none := by
          simp only [List.find?_eq_none, beq_iff_eq]
          rintro x hx rfl
          exact nodup.1 (h ▸ List.mem_map_of_mem hx)
        simp [h, absent]
      · have other : (e.1 == name) = false := by simpa using h
        simp [h, other]
  have := onto empty
  simpa [ofList] using this

/-- A map is made of its own entries. -/
theorem ofList_entries (m : NameMap α) : ofList m.entries = m := by
  apply ext_get?
  intro name
  exact get?_ofList (nodup_names m) name

end NameMap

namespace Json

variable {α : Type} {read : Json → Option α} {write : α → Json}

/-! ## Numbers, lists and maps -/

theorem mapM_map_eq_some {β : Type} {f : β → Option α} {g : α → β} :
    ∀ {l : List α}, (∀ a ∈ l, f (g a) = some a) → (l.map g).mapM f = some l
  | [], _ => rfl
  | a :: l, h => by
    obtain ⟨first, rest⟩ := List.forall_mem_cons.1 h
    simp [List.mapM_cons, first, mapM_map_eq_some rest]

theorem list?_arr {l : List α} (h : ∀ a ∈ l, read (write a) = some a) :
    (arr (l.map write)).list? read = some l :=
  mapM_map_eq_some h

theorem map?_ofMap {m : NameMap α} (h : ∀ e ∈ m.entries, read (write e.2) = some e.2) :
    (ofMap write m).map? read = some m := by
  unfold ofMap map?
  dsimp only
  rw [mapM_map_eq_some]
  · rw [Option.map_some, NameMap.ofList_entries]
  · rintro ⟨name, a⟩ he
    dsimp only
    rw [h _ he]
    rfl

theorem int32?_toInt (n : Int32) : int32? (int n.toInt) = some n := by
  have lower := n.le_toInt
  have upper := n.toInt_lt
  simp [int32?, int?, Int32.ofInt_toInt]
  omega

theorem uint64?_toNat (n : UInt64) : uint64? (int n.toNat) = some n := by
  have upper := n.toNat_lt
  simp [uint64?, natBelow?, natural?, upper]

/-! ## Members -/

theorem sublist_optional (name : String) (write : α → Json) (o : Option α) :
    ((optional name write o).map (·.1)).Sublist [name] := by
  cases o with
  | none => exact List.nil_sublist _
  | some v => exact .refl _

theorem find?_optional (name other : String) (write : α → Json) (o : Option α) :
    (optional name write o).find? (·.1 == other) =
      if name = other then o.map fun v => (name, write v) else none := by
  cases o with
  | none => simp [optional]
  | some v => by_cases h : name = other <;> simp [optional, h]

/-- Members that are known and come in their order are a record, in which each is found. -/
theorem record?_obj {known : List String} {members : List (String × Json)} (distinct : known.Nodup)
    (names : (members.map (·.1)).Sublist known) :
    ∃ r, (obj members).record? known = some r ∧
      ∀ name, r.get? name = (members.find? (·.1 == name)).map (·.2) := by
  have own : members.filter (fun m => known.contains m.1) = members := by
    rw [List.filter_eq_self]
    intro m hm
    simpa using names.subset (List.mem_map_of_mem hm)
  have nodup := distinct.sublist names
  refine ⟨.ofList members, ?_, NameMap.get?_ofList nodup⟩
  unfold record?
  dsimp only
  rw [own, if_pos nodup]

/-! ## Fields -/

section

variable {r : NameMap Json} {name : String} {w : α → Json}

/-- A member that was left out where there is no value. -/
theorem maybe?_of_optional {o : Option α} (found : r.get? name = o.map w)
    (h : ∀ a, read (w a) = some a) (some_value : ∀ a, w a ≠ null) :
    maybe? r name read = some o := by
  unfold maybe?
  cases o with
  | none => rw [found]; rfl
  | some a =>
    rw [found, Option.map_some]
    split
    · rename_i e
      cases e
    · rename_i e
      exact absurd (Option.some.inj e) (some_value a)
    · rename_i e
      cases e
      rw [h]
      rfl

theorem maybe?_of_text {o : Option String} (found : r.get? name = o.map str) :
    maybe? r name str? = some o :=
  maybe?_of_optional found (fun _ => rfl) nofun

/-- A member that is null where there is no value. -/
theorem maybe?_of_orNull {o : Option α} (found : r.get? name = some (o.elim null w))
    (h : ∀ a ∈ o, read (w a) = some a) (some_value : ∀ a, w a ≠ null) :
    maybe? r name read = some o := by
  unfold maybe?
  rw [found]
  cases o with
  | none => rfl
  | some a =>
    rw [Option.elim_some]
    split
    · rename_i e
      cases e
    · rename_i e
      exact absurd (Option.some.inj e) (some_value a)
    · rename_i e
      cases e
      rw [h a rfl]
      rfl

end

/-! ## Tagged choices -/

/-- A value that is read throughout and nests so many containers at most. -/
structure Held (n : Nat) (j : Json) : Prop where
  depth : j.depth ≤ n
  readable : j.readable = true

theorem held_str (n : Nat) (s : String) : Held n (str s) := ⟨Nat.zero_le n, rfl⟩

theorem held_int (n : Nat) (i : Int) : Held n (int i) := ⟨Nat.zero_le n, rfl⟩

theorem Held.mono {n m : Nat} {j : Json} (h : Held n j) (le : n ≤ m) : Held m j :=
  ⟨Nat.le_trans h.depth le, h.readable⟩

theorem held_obj {n : Nat} {members : List (String × Json)} (h : ∀ m ∈ members, Held n m.2) :
    Held (n + 1) (obj members) := by
  constructor
  · simp only [Json.depth, Nat.add_le_add_iff_right]
    induction members with
    | nil => exact Nat.zero_le n
    | cons m rest ih =>
      obtain ⟨first, rest⟩ := List.forall_mem_cons.1 h
      exact Nat.max_le.2 ⟨first.depth, ih rest⟩
  · simp only [Json.readable]
    induction members with
    | nil => rfl
    | cons m rest ih =>
      obtain ⟨first, rest⟩ := List.forall_mem_cons.1 h
      simp [readableMembers, first.readable, ih rest]

theorem held_optional {n : Nat} {name : String} (h : ∀ a, Held n (write a)) (o : Option α) :
    ∀ m ∈ Json.optional name write o, Held n m.2 := by
  cases o with
  | none => simp [Json.optional]
  | some a => simpa [Json.optional] using h a

/-- A choice that was written with its tag in front. -/
theorem tagged?_obj {tag kind : String} {members : List (String × Json)}
    (other : ∀ m ∈ members, m.1 ≠ tag) (h : ∀ m ∈ members, Held 126 m.2) :
    (obj ((tag, str kind) :: members)).tagged? tag = some (kind, obj members) := by
  have whole : Held 127 (obj ((tag, str kind) :: members)) := by
    apply held_obj
    simpa [held_str] using fun name j => h (name, j)
  have tags : members.filter (·.1 == tag) = [] := by
    simpa using fun name j hm => other (name, j) hm
  have rest : members.filter (·.1 != tag) = members := by
    simpa using fun name j hm => other (name, j) hm
  unfold tagged?
  rw [if_pos ⟨whole.depth, whole.readable⟩]
  simp [tags, rest]

/-- A choice whose content is a record of other fields, all of them there. -/
theorem tagged_record?_obj {tag kind : String} {known : List String}
    {members : List (String × Json)} (distinct : (tag :: known).Nodup)
    (names : members.map (·.1) = known) (h : ∀ m ∈ members, Held 126 m.2) :
    (obj ((tag, str kind) :: members)).tagged? tag = some (kind, obj members) ∧
      ∃ r, (obj members).record? known = some r ∧
        ∀ name, r.get? name = (members.find? (·.1 == name)).map (·.2) := by
  obtain ⟨absent, distinct⟩ := List.nodup_cons.1 distinct
  refine ⟨tagged?_obj ?_ h, record?_obj distinct (by rw [names])⟩
  rintro m hm rfl
  exact absent (names ▸ List.mem_map_of_mem hm)

end Json

end JobAdmission
