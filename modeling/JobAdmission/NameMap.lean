/-
Maps from names to values, stored as lists of entries whose names strictly increase.
Names compare by their code points, which is the order of their UTF-8 bytes, so the stored order
is also the order in which every listing of the library shows its entries. The order is a field of
the type: two maps that answer every lookup alike are equal (`NameMap.ext_get?`).
-/

namespace JobAdmission

universe u v

/-- A finite map from names to values, its entries in increasing order of their names. -/
structure NameMap (α : Type u) where
  /-- The entries, smallest name first. -/
  entries : List (String × α)
  /-- No name occurs twice and the names increase. -/
  sorted : entries.Pairwise (fun a b => a.1 < b.1)

namespace NameMap

variable {α : Type u} {β : Type v}

/-! ## Entry lists -/

/-- Put an entry at its place in a sorted list, replacing the one of the same name. -/
def insertEntry (name : String) (value : α) : List (String × α) → List (String × α)
  | [] => [(name, value)]
  | e :: rest =>
    if name < e.1 then (name, value) :: e :: rest
    else if name = e.1 then (name, value) :: rest
    else e :: insertEntry name value rest

theorem fst_of_mem_insertEntry {name : String} {value : α} {e : String × α} :
    ∀ {l : List (String × α)}, e ∈ insertEntry name value l → e = (name, value) ∨ e ∈ l
  | [], h => by simpa [insertEntry] using h
  | x :: l, h => by
    rw [insertEntry] at h
    split at h
    · simpa using h
    · split at h
      · rcases List.mem_cons.1 h with h | h
        · exact .inl h
        · exact .inr (List.mem_cons_of_mem _ h)
      · rcases List.mem_cons.1 h with h | h
        · exact .inr (h ▸ List.mem_cons_self)
        · exact (fst_of_mem_insertEntry h).imp id (List.mem_cons_of_mem _)

theorem lt_of_not_lt_of_ne {a b : String} (h : ¬ a < b) (hne : a ≠ b) : b < a := by
  apply Classical.byContradiction
  intro h'
  exact hne (String.le_antisymm (String.not_lt.1 h') (String.not_lt.1 h))

theorem pairwise_insertEntry (name : String) (value : α) :
    ∀ {l : List (String × α)}, l.Pairwise (fun a b => a.1 < b.1) →
      (insertEntry name value l).Pairwise (fun a b => a.1 < b.1)
  | [], _ => by simp [insertEntry]
  | x :: l, h => by
    have hx := List.pairwise_cons.1 h
    rw [insertEntry]
    split
    · rename_i hlt
      refine List.pairwise_cons.2 ⟨fun e he => ?_, h⟩
      rcases List.mem_cons.1 he with rfl | he
      · exact hlt
      · exact String.lt_trans hlt (hx.1 e he)
    · split
      · rename_i heq
        exact List.pairwise_cons.2 ⟨fun e he => heq ▸ hx.1 e he, hx.2⟩
      · rename_i hlt hne
        refine List.pairwise_cons.2 ⟨fun e he => ?_, pairwise_insertEntry name value hx.2⟩
        rcases fst_of_mem_insertEntry he with rfl | he
        · exact lt_of_not_lt_of_ne hlt hne
        · exact hx.1 e he

/-! ## Operations -/

/-- The map without entries. -/
def empty : NameMap α := ⟨[], .nil⟩

instance : EmptyCollection (NameMap α) := ⟨empty⟩

instance : Inhabited (NameMap α) := ⟨empty⟩

instance [DecidableEq α] : DecidableEq (NameMap α) := fun a b =>
  if h : a.entries = b.entries then
    isTrue (by cases a; cases b; cases h; rfl)
  else isFalse (fun e => h (e ▸ rfl))

/-- The value under a name. -/
def get? (m : NameMap α) (name : String) : Option α :=
  (m.entries.find? (·.1 == name)).map (·.2)

/-- Whether a name has a value. -/
def contains (m : NameMap α) (name : String) : Bool :=
  (m.get? name).isSome

/-- Bind a name, replacing its previous value. -/
def insert (m : NameMap α) (name : String) (value : α) : NameMap α :=
  ⟨insertEntry name value m.entries, pairwise_insertEntry name value m.sorted⟩

/-- Drop a name. -/
def erase (m : NameMap α) (name : String) : NameMap α :=
  ⟨m.entries.filter (·.1 != name), m.sorted.filter _⟩

/-- Apply a function to every value. -/
def map (f : α → β) (m : NameMap α) : NameMap β :=
  ⟨m.entries.map fun e => (e.1, f e.2), List.pairwise_map.2 m.sorted⟩

/-- The entries in increasing order of names. -/
def toList (m : NameMap α) : List (String × α) := m.entries

/-- The names in increasing order. -/
def names (m : NameMap α) : List String := m.entries.map (·.1)

/-- The values in the order of their names. -/
def values (m : NameMap α) : List α := m.entries.map (·.2)

/-- The map of a list of bindings; of two bindings of one name the later wins. -/
def ofList (l : List (String × α)) : NameMap α :=
  l.foldl (fun m e => m.insert e.1 e.2) empty

/-- The number of names bound. -/
def size (m : NameMap α) : Nat := m.entries.length

/-- Whether no name is bound. -/
def isEmpty (m : NameMap α) : Bool := m.entries.isEmpty

/-! ## Lookup laws -/

@[simp] theorem get?_empty (name : String) : (empty : NameMap α).get? name = none := rfl

theorem find?_insertEntry (name other : String) (value : α) :
    ∀ l : List (String × α), (insertEntry name value l).find? (·.1 == other) =
      if name = other then some (name, value) else l.find? (·.1 == other)
  | [] => by
    by_cases h : name = other <;> simp [insertEntry, h]
  | x :: l => by
    rw [insertEntry]
    split
    · by_cases h : name = other <;> simp [List.find?_cons, h]
    · split
      · rename_i h
        by_cases ho : name = other
        · simp [ho]
        · have : ¬ x.1 = other := fun e => ho (h.trans e)
          simp [ho, this]
      · rename_i h
        rw [List.find?_cons, List.find?_cons, find?_insertEntry name other value l]
        by_cases ho : name = other
        · subst ho
          have : (x.1 == name) = false := by simpa using fun e : x.1 = name => h e.symm
          simp [this]
        · simp [ho]

theorem get?_insert (m : NameMap α) (name other : String) (value : α) :
    (m.insert name value).get? other = if name = other then some value else m.get? other := by
  unfold get? insert
  rw [find?_insertEntry]
  split <;> simp

theorem get?_erase (m : NameMap α) (name other : String) :
    (m.erase name).get? other = if name = other then none else m.get? other := by
  unfold get? erase
  simp only [List.find?_filter]
  by_cases h : name = other
  · subst h
    rw [if_pos rfl, List.find?_eq_none.2, Option.map_none]
    intro e _ he
    simp_all
  · rw [if_neg h]
    congr 2
    funext e
    by_cases he : e.1 = other
    · have : ¬ other = name := fun e' => h e'.symm
      simp [he, this]
    · simp [he]

theorem get?_map (f : α → β) (m : NameMap α) (name : String) :
    (m.map f).get? name = (m.get? name).map f := by
  simp [get?, map, List.find?_map, Function.comp_def]

theorem get?_eq_some_iff {m : NameMap α} {name : String} {value : α} :
    m.get? name = some value ↔ (name, value) ∈ m.entries := by
  have huniq : ∀ l : List (String × α), l.Pairwise (fun a b => a.1 < b.1) →
      ((l.find? (·.1 == name)).map (·.2) = some value ↔ (name, value) ∈ l) := by
    intro l hl
    induction l with
    | nil => simp
    | cons x l ih =>
      have hx := List.pairwise_cons.1 hl
      by_cases h : x.1 = name
      · have : (name, value) ∉ l := fun hm =>
          String.lt_irrefl name (by simpa [h] using hx.1 _ hm)
        rw [List.find?_cons]
        simp only [h, beq_self_eq_true, Option.map_some, Option.some.injEq, List.mem_cons,
          this, or_false]
        constructor
        · rintro rfl; exact Prod.ext h.symm rfl
        · intro e; exact (congrArg Prod.snd e).symm
      · have : (name, value) ≠ x := fun e => h (by rw [← e])
        simp [h, ih hx.2, this]
  exact huniq m.entries m.sorted

/-- Maps that answer every lookup alike are equal. -/
theorem ext_get? {a b : NameMap α} (h : ∀ name, a.get? name = b.get? name) : a = b := by
  have hmem : ∀ e, e ∈ a.entries ↔ e ∈ b.entries := fun e => by
    have ha : a.get? e.1 = some e.2 ↔ e ∈ a.entries := get?_eq_some_iff
    have hb : b.get? e.1 = some e.2 ↔ e ∈ b.entries := get?_eq_some_iff
    rw [← ha, h, hb]
  have heq : ∀ l r : List (String × α), l.Pairwise (fun a b => a.1 < b.1) →
      r.Pairwise (fun a b => a.1 < b.1) → (∀ e, e ∈ l ↔ e ∈ r) → l = r := by
    intro l
    induction l with
    | nil =>
      intro r _ _ h
      cases r with
      | nil => rfl
      | cons y r => exact absurd ((h y).2 List.mem_cons_self) (by simp)
    | cons x l ih =>
      intro r hl hr h
      cases r with
      | nil => exact absurd ((h x).1 List.mem_cons_self) (by simp)
      | cons y r =>
        have hx := List.pairwise_cons.1 hl
        have hy := List.pairwise_cons.1 hr
        have hxy : x = y := by
          rcases List.mem_cons.1 ((h x).1 List.mem_cons_self) with e | e
          · exact e
          · rcases List.mem_cons.1 ((h y).2 List.mem_cons_self) with e' | e'
            · exact e'.symm
            · exact absurd (hx.1 y e') (String.lt_asymm (hy.1 x e))
        subst hxy
        congr 1
        apply ih r hx.2 hy.2
        intro e
        have := h e
        constructor
        · intro he
          rcases List.mem_cons.1 (this.1 (List.mem_cons_of_mem _ he)) with rfl | he'
          · exact absurd (hx.1 _ he) (String.lt_irrefl _)
          · exact he'
        · intro he
          rcases List.mem_cons.1 (this.2 (List.mem_cons_of_mem _ he)) with rfl | he'
          · exact absurd (hy.1 _ he) (String.lt_irrefl _)
          · exact he'
  have := heq a.entries b.entries a.sorted b.sorted hmem
  cases a; cases b; cases this; rfl

end NameMap

/-- A set of names. -/
abbrev NameSet := NameMap Unit

namespace NameSet

/-- The set with one more name. -/
def add (s : NameSet) (name : String) : NameSet := s.insert name ()

end NameSet

end JobAdmission
