/-
The order of visits. Every registered queue is visited once; the queues are in the order of the
set, and by the bytes of their names where that does not tell them apart. There is only one such
arrangement, so it depends neither on the order in which the registry happens to list its queues
nor on the order in which they were registered.
-/
import JobAdmission.Proofs.Queue.Next
import JobAdmission.Proofs.Text.ByteOrder

namespace JobAdmission

/-! ## The order of definitions -/

namespace QueueRules

variable {rules : QueueRules} {a b : QueueDef}

/-- Queues and jobs in the order of priority, with the standard times. -/
def byPriority : QueueRules :=
  ⟨Priority.queueOrder, NameMap.empty.insert Priority.name Priority.jobOrder, .standard,
    Priority.name⟩

/-- A queue of the first definition comes before one of the second. -/
def Before (rules : QueueRules) (a b : QueueDef) : Prop :=
  rules.queueOrder a b = true ∨ rules.queueOrder b a = false ∧ a.name < b.name

theorem Before.not_after (weak : StrictWeak rules.queueOrder) (h : rules.Before a b) :
    rules.queueOrder b a = false :=
  h.elim weak.asymm fun tie => tie.1

theorem Before.asymm (weak : StrictWeak rules.queueOrder) (h : rules.Before a b) :
    ¬ rules.Before b a := by
  intro h'
  have not_after := h.not_after weak
  have not_before := h'.not_after weak
  rcases h with strict | ⟨-, less⟩
  · rw [not_before] at strict
    cases strict
  · rcases h' with strict | ⟨-, greater⟩
    · rw [not_after] at strict
      cases strict
    · exact String.lt_asymm less greater

end QueueRules

namespace QueueSet

variable {s t : QueueSet}

/-! ## The registered queues -/

theorem Named.names_byName (named : s.Named) : s.byName.map (·.2.name) = s.names := by
  have each : ∀ e ∈ s.ids.entries, ∃ q, s.queue? e.2 = some q ∧ q.name = e.1 := fun e he =>
    named e.1 e.2 (NameMap.get?_eq_some_iff.2 he)
  unfold byName names NameMap.values NameMap.names
  generalize s.ids.entries = entries at each
  induction entries with
  | nil => rfl
  | cons e rest ih =>
    obtain ⟨⟨q, there, same⟩, later⟩ := List.forall_mem_cons.1 each
    rw [List.map_cons, List.filterMap_cons, there, Option.map_some, List.map_cons, List.map_cons,
      ih later, same]

/-- Every name is visited once. -/
theorem Named.names_visited (named : s.Named) : (s.visited.map (·.2.name)).Perm s.names := by
  rw [← named.names_byName]
  exact (List.mergeSort_perm s.byName s.mayPrecede).map _

/-- The visited queues have the definitions that are found under the names. -/
theorem mem_definitions {d : QueueDef} : d ∈ s.visited.map (·.2.definition) ↔
    ∃ name, (s.lookup? name).map (·.2.definition) = some d := by
  rw [List.mem_map]
  constructor
  · rintro ⟨⟨id, q⟩, visited, rfl⟩
    obtain ⟨name, found⟩ := mem_visited.1 visited
    exact ⟨name, by rw [found, Option.map_some]⟩
  · rintro ⟨name, found⟩
    obtain ⟨⟨id, q⟩, there, rfl⟩ := Option.map_eq_some_iff.1 found
    exact ⟨(id, q), mem_visited.2 ⟨name, there⟩, rfl⟩

/-! ## Only one arrangement -/

/-- Some listing of queues sorted by name, and then in the order of the set. -/
def arranged (s : QueueSet) (listing : List (QueueId × JobQueue)) : List (QueueId × JobQueue) :=
  (listing.mergeSort fun a b => decide (a.2.name ≤ b.2.name)).mergeSort s.mayPrecede

/-- The registered queues sorted by name, from any listing of them. -/
theorem Named.sort_by_name (named : s.Named) {listing : List (QueueId × JobQueue)}
    (all : listing.Perm s.byName) :
    listing.mergeSort (fun a b => decide (a.2.name ≤ b.2.name)) = s.byName := by
  have trans : ∀ a b c : QueueId × JobQueue, decide (a.2.name ≤ b.2.name) = true →
      decide (b.2.name ≤ c.2.name) = true → decide (a.2.name ≤ c.2.name) = true := by
    simpa using fun a b c => String.le_trans
  have total : ∀ a b : QueueId × JobQueue,
      (decide (a.2.name ≤ b.2.name) || decide (b.2.name ≤ a.2.name)) = true := by
    simpa using fun a b => String.le_total ..
  have sorted : (listing.mergeSort fun a b => decide (a.2.name ≤ b.2.name)).Pairwise
      fun a b => a.2.name ≤ b.2.name := by
    simpa using List.pairwise_mergeSort trans total listing
  have sorted' : s.byName.Pairwise fun a b => a.2.name ≤ b.2.name :=
    named.pairwise_byName.imp fun less => String.not_lt.1 (String.lt_asymm less)
  have perm := (List.mergeSort_perm listing fun a b => decide (a.2.name ≤ b.2.name)).trans all
  have nodup : (s.byName.map (·.2.name)).Nodup := by
    rw [named.names_byName]
    exact s.ids.nodup_names
  refine List.Perm.eq_of_pairwise (fun a b ha hb le ge => ?_) sorted sorted' perm
  exact List.inj_on_of_nodup_map nodup (perm.mem_iff.1 ha) hb (String.le_antisymm le ge)

theorem Named.sorted_visited (named : s.Named) (weak : StrictWeak s.rules.queueOrder) :
    (s.visited.map (·.2.definition)).Pairwise s.rules.Before := by
  rw [List.pairwise_map]
  exact named.pairwise_visited weak

/-- Definitions that come one before the other are those of the visited queues if they are the same
in any order. -/
theorem Named.definitions_of_perm (named : s.Named) (weak : StrictWeak s.rules.queueOrder)
    {definitions : List QueueDef} (sorted : definitions.Pairwise s.rules.Before)
    (all : (s.visited.map (·.2.definition)).Perm definitions) :
    s.visited.map (·.2.definition) = definitions :=
  List.Perm.eq_of_pairwise (fun _ _ _ _ before after => absurd after (before.asymm weak))
    (named.sorted_visited weak) sorted all

/-- Registries with the same definitions under their names are visited in the same order. -/
theorem Named.definitions_eq (named : s.Named) (named' : t.Named) (same : t.rules = s.rules)
    (weak : StrictWeak s.rules.queueOrder)
    (found : ∀ name, (t.lookup? name).map (·.2.definition) =
      (s.lookup? name).map (·.2.definition)) :
    t.visited.map (·.2.definition) = s.visited.map (·.2.definition) := by
  have here := named.sorted_visited weak
  have there := same ▸ named'.sorted_visited (same ▸ weak)
  have once : ∀ {l : List QueueDef}, l.Pairwise s.rules.Before → l.Nodup := fun h =>
    h.imp fun before same => (same ▸ before).asymm weak (same ▸ before)
  refine (named.definitions_of_perm weak there ?_).symm
  refine (List.perm_ext_iff_of_nodup (once here) (once there)).2 fun d => ?_
  simp only [mem_definitions, found]

/-- In every registry whose queues have a strict weak order, each registered queue is visited once.
None comes after one that it precedes, and those that are not told apart come by the bytes of their
names. Two stable sorts, by name and by the order of queues, lead to this arrangement from any
listing of the registered queues, and every other registry with the same definitions under the same
names, however it was made, is visited in the same order. -/
theorem visits_determined {rules : QueueRules} (weak : StrictWeak rules.queueOrder)
    (run : List RegistryStep) :
    let s := (new rules).after run
    (s.visited.map (·.2.name)).Perm s.names ∧
      (∀ id q, (id, q) ∈ s.visited ↔ ∃ name, s.lookup? name = some (id, q)) ∧
      (s.visited.Pairwise fun a b => rules.queueOrder b.2.definition a.2.definition = false) ∧
      (s.visited.Pairwise fun a b => rules.queueOrder a.2.definition b.2.definition = false →
        Text.bytes a.2.name < Text.bytes b.2.name) ∧
      (∀ listing, listing.Perm s.byName → s.arranged listing = s.visited) ∧
      ∀ other, let t := (new rules).after other
        (∀ name, (t.lookup? name).map (·.2.definition) =
          (s.lookup? name).map (·.2.definition)) →
        t.visited.map (·.2.definition) = s.visited.map (·.2.definition) := by
  intro s
  have named : s.Named := ((sound_new rules).after run).named
  have same : s.rules = rules := ((new rules).descends_after run).rules
  have sorted : s.visited.Pairwise fun a b => rules.Before a.2.definition b.2.definition :=
    same ▸ named.pairwise_visited (same ▸ weak)
  refine ⟨named.names_visited, fun id q => mem_visited, sorted.imp fun before =>
    before.not_after weak, sorted.imp fun before tie => ?_, fun listing all => ?_,
    fun other found => ?_⟩
  · rcases before with strict | ⟨-, less⟩
    · rw [tie] at strict
      cases strict
    · exact Text.bytes_lt_iff.2 less
  · unfold arranged visited
    rw [named.sort_by_name all]
  · exact named.definitions_eq ((sound_new rules).after other).named
      (((new rules).descends_after other).rules.trans same.symm) (same ▸ weak) found

/-- A registry by priority with queues of these names and priorities, registered in this order. -/
def registered (queues : List (String × Int32)) : QueueSet :=
  (new .byPriority).after (queues.map fun e => .add (QueueDef.new e.1 e.2))

/-- Two queues of one priority and one of a higher, registered in either of two orders. -/
theorem visits_determined_of_three :
    StrictWeak QueueRules.byPriority.queueOrder ∧
      (registered [("c", 5), ("a", 5), ("b", 10)]).visited.map (·.2.definition) =
        [QueueDef.new "b" 10, QueueDef.new "a" 5, QueueDef.new "c" 5] ∧
      (registered [("b", 10), ("c", 5), ("a", 5)]).visited.map (·.2.definition) =
        [QueueDef.new "b" 10, QueueDef.new "a" 5, QueueDef.new "c" 5] := by
  have weak : StrictWeak QueueRules.byPriority.queueOrder := Priority.strictWeak_queueOrder
  have named : (registered [("c", 5), ("a", 5), ("b", 10)]).Named :=
    ((sound_new .byPriority).after _).named
  have byName : (registered [("c", 5), ("a", 5), ("b", 10)]).byName.map (·.2.definition) =
      [QueueDef.new "a" 5, QueueDef.new "b" 10, QueueDef.new "c" 5] := by decide +kernel
  have first : (registered [("c", 5), ("a", 5), ("b", 10)]).visited.map (·.2.definition) =
      [QueueDef.new "b" 10, QueueDef.new "a" 5, QueueDef.new "c" 5] := by
    refine named.definitions_of_perm weak ?_ ?_
    · unfold QueueRules.Before
      decide +kernel
    · refine ((List.mergeSort_perm _ _).map _).trans ?_
      rw [byName]
      exact .swap ..
  have names : (registered [("c", 5), ("a", 5), ("b", 10)]).ids =
      ((NameMap.empty.insert "c" 0).insert "a" 1).insert "b" 2 := by decide +kernel
  have names' : (registered [("b", 10), ("c", 5), ("a", 5)]).ids =
      ((NameMap.empty.insert "b" 0).insert "c" 1).insert "a" 2 := by decide +kernel
  have found : ∀ name,
      ((registered [("b", 10), ("c", 5), ("a", 5)]).lookup? name).map (·.2.definition) =
        ((registered [("c", 5), ("a", 5), ("b", 10)]).lookup? name).map (·.2.definition) := by
    intro name
    unfold lookup? idOf?
    rw [names, names']
    simp only [NameMap.get?_insert]
    by_cases a : "a" = name
    · subst a
      rfl
    · by_cases b : "b" = name
      · subst b
        rfl
      · by_cases c : "c" = name
        · subst c
          rfl
        · simp [a, b, c]
  obtain ⟨-, -, -, -, -, same⟩ := visits_determined weak
    ([("c", 5), ("a", 5), ("b", 10)].map fun e => .add (QueueDef.new e.1 e.2))
  exact ⟨weak, first, (same _ found).trans first⟩

end QueueSet

end JobAdmission
