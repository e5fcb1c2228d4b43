/-
The quotas of a book, told from the changes alone. A namespace lists the quotas that were set last
and not struck since, each name once, in the order in which the names were first set since they were
struck last. Which of them governs does not depend on that order, so two histories that leave the
same quotas in a namespace leave it the same governing quota.
-/
import JobAdmission.Quota.Book
import JobAdmission.Proofs.Quota.Verdict
import JobAdmission.Proofs.Run
import Mathlib.Data.List.DropRight
import Mathlib.Data.List.Find
import Mathlib.Data.List.Induction
import Mathlib.Data.List.Nodup

namespace JobAdmission

/-! ## Changes -/

/-- A change of the quotas that are known. -/
inductive QuotaChange where
  | set (quota : Quota)
  | remove (ns name : String)
deriving DecidableEq

namespace QuotaChange

/-- The namespace that a change is about. -/
def ns : QuotaChange → String
  | .set quota => quota.ns
  | .remove ns _ => ns

/-- A change sets a quota of a name in a namespace. -/
def Sets (ns name : String) : QuotaChange → Prop
  | .set quota => quota.ns = ns ∧ quota.name = name
  | .remove _ _ => False

instance (ns name : String) : DecidablePred (Sets ns name)
  | .set quota => inferInstanceAs (Decidable (quota.ns = ns ∧ quota.name = name))
  | .remove _ _ => inferInstanceAs (Decidable False)

variable {changes : List QuotaChange} {c : QuotaChange} {ns name : String} {quota : Quota}

/-- After some changes a quota stands: it was set, and none of the changes after that set or struck
its name. -/
def Stands (changes : List QuotaChange) (quota : Quota) : Prop :=
  ∃ before later, changes = before ++ .set quota :: later ∧
    ∀ c ∈ later, ¬ c.Sets quota.ns quota.name ∧ c ≠ .remove quota.ns quota.name

/-- The changes from the one on that first set a name since it was struck last. The longer ago that
was, the more they are. -/
def tenure (changes : List QuotaChange) (ns name : String) : List QuotaChange :=
  (changes.rtakeWhile (· ≠ .remove ns name)).dropWhile (¬ ·.Sets ns name)

theorem not_stands_nil : ¬ Stands [] quota := by
  rintro ⟨before, later, whole, -⟩
  simp at whole

/-- A quota stands after one more change if that set it, or if it stood before and the change
neither set nor struck its name. -/
theorem stands_concat : Stands (changes ++ [c]) quota ↔
    c = .set quota ∨
      (¬ c.Sets quota.ns quota.name ∧ c ≠ .remove quota.ns quota.name) ∧ Stands changes quota := by
  unfold Stands
  simp only [concat_eq_append_cons]
  constructor
  · rintro ⟨before, later, ⟨rfl, rfl, same⟩ | ⟨rest, rfl, rfl⟩, kept⟩
    · -- the last change is the one that set the quota
      exact .inl same.symm
    · obtain ⟨kept, here⟩ := List.forall_mem_append.1 kept
      exact .inr ⟨here c (List.mem_singleton_self c), before, rest, rfl, kept⟩
  · rintro (rfl | ⟨here, before, later, rfl, kept⟩)
    · exact ⟨changes, [], .inl ⟨rfl, rfl, rfl⟩, by simp⟩
    · exact ⟨before, later ++ [c], .inr ⟨later, rfl, rfl⟩,
        List.forall_mem_append.2 ⟨kept, List.forall_mem_singleton.2 here⟩⟩

/-- Striking a name ends its tenure, setting it begins one unless it has one, and any other change
comes to the one that it has. -/
theorem tenure_concat (changes : List QuotaChange) (c : QuotaChange) (ns name : String) :
    tenure (changes ++ [c]) ns name =
      if c = .remove ns name then []
      else if tenure changes ns name = [] then if c.Sets ns name then [c] else []
      else tenure changes ns name ++ [c] := by
  unfold tenure
  rw [List.rtakeWhile_concat]
  by_cases struck : c = .remove ns name
  · simp [struck]
  · rw [if_pos (by simpa using struck), if_neg struck, List.dropWhile_append]
    simp only [List.isEmpty_iff]
    split
    · by_cases sets : c.Sets ns name
      · simp [sets]
      · simp [sets]
    · rfl

theorem tenure_concat_ne_nil : tenure (changes ++ [c]) ns name ≠ [] ↔
    c.Sets ns name ∨ c ≠ .remove ns name ∧ tenure changes ns name ≠ [] := by
  rw [tenure_concat]
  by_cases struck : c = .remove ns name
  · subst struck
    simp [Sets]
  · by_cases none : tenure changes ns name = []
    · by_cases sets : c.Sets ns name
      · simp [struck, none, sets]
      · simp [struck, none, sets]
    · simp [struck, none]

theorem length_tenure_concat (struck : c ≠ .remove ns name) (entered : tenure changes ns name ≠ []) :
    (tenure (changes ++ [c]) ns name).length = (tenure changes ns name).length + 1 := by
  rw [tenure_concat, if_neg struck, if_neg entered, List.length_append, List.length_singleton]

/-- A name that is set while it has no tenure comes after every one that has. -/
theorem tenure_concat_set (fresh : tenure changes quota.ns quota.name = []) :
    tenure (changes ++ [.set quota]) quota.ns quota.name = [.set quota] := by
  rw [tenure_concat, if_neg nofun, if_pos fresh, if_pos ⟨rfl, rfl⟩]

end QuotaChange

/-! ## One listing -/

namespace QuotaBook

open QuotaChange

variable {changes : List QuotaChange} {c : QuotaChange} {ns : String} {quotas : List Quota}
  {quota : Quota}

theorem names_putInto (quotas : List Quota) (quota : Quota) :
    (putInto quotas quota).map Quota.name =
      if quota.name ∈ quotas.map Quota.name then quotas.map Quota.name
      else quotas.map Quota.name ++ [quota.name] := by
  induction quotas with
  | nil => rfl
  | cons x rest ih =>
    rw [putInto, List.map_cons]
    by_cases here : x.name = quota.name
    · simp [here]
    · rw [if_neg here, List.map_cons, ih]
      by_cases later : quota.name ∈ rest.map Quota.name
      · rw [if_pos later, if_pos (List.mem_cons_of_mem _ later)]
      · rw [if_neg later, if_neg fun h => (List.mem_cons.1 h).elim (here ·.symm) later]
        rfl

/-- A quota that is put in takes the place of the one that bears its name. -/
theorem mem_putInto {x : Quota} (distinct : (quotas.map Quota.name).Nodup) :
    x ∈ putInto quotas quota ↔ x = quota ∨ x ∈ quotas ∧ x.name ≠ quota.name := by
  induction quotas with
  | nil => simp [putInto]
  | cons y rest ih =>
    obtain ⟨single, distinct⟩ := List.nodup_cons.1 distinct
    rw [putInto]
    by_cases here : y.name = quota.name
    · have others : ∀ z ∈ rest, z.name ≠ quota.name := fun z hz same =>
        single (List.mem_map.2 ⟨z, hz, same.trans here.symm⟩)
      rw [if_pos here, List.mem_cons, List.mem_cons]
      refine or_congr_right ⟨fun hx => ⟨.inr hx, others x hx⟩, ?_⟩
      rintro ⟨rfl | hx, other⟩
      · exact absurd here other
      · exact hx
    · rw [if_neg here, List.mem_cons, List.mem_cons, ih distinct]
      constructor
      · rintro (rfl | rfl | ⟨hx, other⟩)
        · exact .inr ⟨.inl rfl, here⟩
        · exact .inl rfl
        · exact .inr ⟨.inr hx, other⟩
      · rintro (rfl | ⟨rfl | hx, other⟩)
        · exact .inr (.inl rfl)
        · exact .inl rfl
        · exact .inr (.inr ⟨hx, other⟩)

/-- A listing shows what some changes left in a namespace: the quotas that stand, under the names
that have a tenure, those with the longest first. -/
structure Shows (changes : List QuotaChange) (ns : String) (quotas : List Quota) : Prop where
  entered : ∀ name, name ∈ quotas.map Quota.name ↔ tenure changes ns name ≠ []
  ordered : (quotas.map Quota.name).Pairwise fun a b =>
    (tenure changes ns b).length < (tenure changes ns a).length
  stands : ∀ quota, quota ∈ quotas ↔ quota.ns = ns ∧ Stands changes quota

theorem shows_nil (ns : String) : Shows [] ns [] where
  entered _ := iff_of_false List.not_mem_nil fun h => h rfl
  ordered := .nil
  stands _ := iff_of_false List.not_mem_nil fun h => not_stands_nil h.2

theorem Shows.distinct (h : Shows changes ns quotas) : (quotas.map Quota.name).Nodup :=
  h.ordered.imp fun {a b} longer (same : a = b) => Nat.lt_irrefl _ (same ▸ longer)

/-- Names that a change does not strike stay in their order. -/
theorem ordered_concat {names : List String}
    (kept : ∀ name ∈ names, c ≠ .remove ns name ∧ tenure changes ns name ≠ [])
    (ordered : names.Pairwise fun a b =>
      (tenure changes ns b).length < (tenure changes ns a).length) :
    names.Pairwise fun a b =>
      (tenure (changes ++ [c]) ns b).length < (tenure (changes ++ [c]) ns a).length := by
  refine ordered.imp_of_mem fun {a b} ha hb longer => ?_
  rw [length_tenure_concat (kept a ha).1 (kept a ha).2,
    length_tenure_concat (kept b hb).1 (kept b hb).2]
  exact Nat.succ_lt_succ longer

theorem Shows.elsewhere (h : Shows changes ns quotas) (other : c.ns ≠ ns) :
    Shows (changes ++ [c]) ns quotas := by
  have unset : ∀ name, ¬ c.Sets ns name := by
    cases c with
    | set quota => exact fun name sets => other sets.1
    | remove ns' name' => exact fun name sets => sets
  have unstruck : ∀ name, c ≠ .remove ns name := by
    rintro name rfl
    exact other rfl
  refine ⟨fun name => ?_, ordered_concat (fun name there => ?_) h.ordered, fun quota => ?_⟩
  · rw [tenure_concat_ne_nil, or_iff_right (unset name), and_iff_right (unstruck name)]
    exact h.entered name
  · exact ⟨unstruck name, (h.entered name).1 there⟩
  · rw [h.stands, stands_concat]
    refine and_congr_right ?_
    rintro rfl
    rw [or_iff_right, and_iff_right ⟨unset _, unstruck _⟩]
    rintro rfl
    exact other rfl

theorem Shows.set (h : Shows changes quota.ns quotas) :
    Shows (changes ++ [.set quota]) quota.ns (putInto quotas quota) := by
  have unstruck : ∀ ns name, QuotaChange.set quota ≠ .remove ns name := nofun
  have old : ∀ name ∈ quotas.map Quota.name,
      QuotaChange.set quota ≠ .remove quota.ns name ∧ tenure changes quota.ns name ≠ [] :=
    fun name there => ⟨unstruck _ name, (h.entered name).1 there⟩
  have order := ordered_concat old h.ordered
  refine ⟨fun name => ?_, ?_, fun x => ?_⟩
  · rw [tenure_concat_ne_nil, and_iff_right (unstruck _ name), ← h.entered, names_putInto]
    show _ ↔ (quota.ns = quota.ns ∧ quota.name = name) ∨ _
    rw [eq_self, true_and]
    split
    · rename_i there
      exact (or_iff_right_of_imp fun same => same ▸ there).symm
    · rw [List.mem_append, List.mem_singleton, or_comm, eq_comm]
  · rw [names_putInto]
    split
    · exact order
    · rename_i fresh
      -- the new name has the shortest tenure of all
      rw [h.entered, not_not] at fresh
      refine List.pairwise_append.2 ⟨order, List.pairwise_singleton _ _, fun a ha b hb => ?_⟩
      rw [List.mem_singleton.1 hb, tenure_concat_set fresh,
        length_tenure_concat (old a ha).1 (old a ha).2, List.length_singleton]
      exact Nat.succ_lt_succ (List.length_pos_iff.2 (old a ha).2)
  · rw [mem_putInto h.distinct, h.stands, stands_concat, QuotaChange.set.injEq]
    show _ ↔ _ ∧ (_ ∨ (¬ (quota.ns = x.ns ∧ quota.name = x.name) ∧ _) ∧ _)
    rw [and_iff_left (unstruck _ _)]
    constructor
    · rintro (rfl | ⟨⟨here, standing⟩, other⟩)
      · exact ⟨rfl, .inl rfl⟩
      · exact ⟨here, .inr ⟨fun same => other same.2.symm, standing⟩⟩
    · rintro ⟨here, rfl | ⟨other, standing⟩⟩
      · exact .inl rfl
      · exact .inr ⟨⟨here, standing⟩, fun same => other ⟨here.symm, same.symm⟩⟩

theorem Shows.remove (h : Shows changes ns quotas) (name : String) :
    Shows (changes ++ [.remove ns name]) ns (quotas.filter (·.name != name)) := by
  have names : (quotas.filter (·.name != name)).map Quota.name =
      (quotas.map Quota.name).filter (· != name) := by
    rw [List.filter_map]
    rfl
  have struck : ∀ other, QuotaChange.remove ns name ≠ .remove ns other ↔ other ≠ name :=
    fun other => not_congr (by rw [QuotaChange.remove.injEq, eq_self, true_and, eq_comm])
  refine ⟨fun other => ?_, ?_, fun quota => ?_⟩
  · rw [names, List.mem_filter, h.entered, bne_iff_ne, tenure_concat_ne_nil, struck,
      or_iff_right (show ¬ Sets ns other (.remove ns name) from id), and_comm]
  · rw [names]
    refine ordered_concat (fun other there => ?_) (h.ordered.filter _)
    obtain ⟨there, kept⟩ := List.mem_filter.1 there
    exact ⟨(struck other).2 (bne_iff_ne.1 kept), (h.entered other).1 there⟩
  · rw [List.mem_filter, h.stands, bne_iff_ne, stands_concat, and_assoc]
    refine and_congr_right ?_
    rintro rfl
    rw [or_iff_right nofun, struck, and_comm,
      and_iff_right (show ¬ Sets quota.ns quota.name (.remove quota.ns name) from id)]

/-! ## Any changes -/

theorem entered_set (b : QuotaBook) (quota : Quota) (ns : String) :
    (b.set quota).entered ns =
      if quota.ns = ns then putInto (b.entered ns) quota else b.entered ns := by
  unfold entered set
  rw [NameMap.get?_insert]
  split
  · rename_i here
    rw [← here]
    rfl
  · rfl

theorem entered_remove (b : QuotaBook) (ns' name ns : String) :
    (b.remove ns' name).2.entered ns =
      if ns' = ns then (b.entered ns).filter (·.name != name) else b.entered ns := by
  unfold entered remove
  rcases known : b.byNamespace.get? ns' with _ | quotas
  · dsimp only
    split
    · rename_i here
      rw [← here, known]
      rfl
    · rfl
  · dsimp only
    rw [NameMap.get?_insert]
    split
    · rename_i here
      rw [← here, known]
      rfl
    · rfl

/-- The book after a change. -/
def change (b : QuotaBook) : QuotaChange → QuotaBook
  | .set quota => b.set quota
  | .remove ns name => (b.remove ns name).2

/-- The book after some changes, in which nothing was entered before. -/
def after (changes : List QuotaChange) : QuotaBook := changes.foldl change empty

theorem after_concat (changes : List QuotaChange) (c : QuotaChange) :
    after (changes ++ [c]) = (after changes).change c := List.foldl_append

theorem shows_entered (changes : List QuotaChange) (ns : String) :
    Shows changes ns ((after changes).entered ns) := by
  induction changes using List.reverseRecOn with
  | nil => exact shows_nil ns
  | append_singleton changes c ih =>
    rw [after_concat]
    cases c with
    | set quota =>
      rw [change, entered_set]
      split
      · rename_i here
        subst here
        exact ih.set
      · rename_i other
        exact ih.elsewhere other
    | remove ns' name =>
      rw [change, entered_remove]
      split
      · rename_i here
        subst here
        exact ih.remove name
      · rename_i other
        exact ih.elsewhere other

theorem offline_change (b : QuotaBook) (c : QuotaChange) : (b.change c).offline = b.offline := by
  cases c with
  | set quota => rfl
  | remove ns name =>
    show (b.remove ns name).2.offline = b.offline
    unfold remove
    split <;> rfl

/-- No change makes the listing fail. -/
theorem list_after (changes : List QuotaChange) (ns : String) :
    (after changes).list ns = .ok ((after changes).entered ns) := by
  have online : (after changes).offline = false := by
    induction changes using List.reverseRecOn with
    | nil => rfl
    | append_singleton changes c ih => rw [after_concat, offline_change, ih]
  unfold list
  rw [online]
  rfl

end QuotaBook

/-! ## The choice of the governing quota -/

namespace Quota

variable {quotas quotas' : List Quota}

/-- Which of some quotas with distinct names governs does not depend on their order. -/
theorem governing_perm (distinct : (quotas.map Quota.name).Nodup) (p : quotas.Perm quotas')
    (ns : String) : governing quotas ns = governing quotas' ns := by
  match quotas, quotas' with
  | [], _ => rw [p.nil_eq]
  | [only], _ => rw [List.singleton_perm.1 p]
  | a :: b :: rest, [] => exact absurd p.length_eq (by simp)
  | a :: b :: rest, [only] => exact absurd p.length_eq (by simp)
  | a :: b :: rest, a' :: b' :: rest' =>
    -- at most one of them bears the name of the namespace
    have single : Set.Subsingleton {q ∈ a :: b :: rest | (q.name == ns) = true} :=
      fun x hx y hy => List.inj_on_of_nodup_map distinct hx.1 hy.1
        ((beq_iff_eq.1 hx.2).trans (beq_iff_eq.1 hy.2).symm)
    unfold governing
    dsimp only
    rw [List.find?_eq_find?_of_perm p single]

end Quota

namespace QuotaBook

open QuotaChange

/-- After any changes the listing of a namespace never fails. It has each name once, and its quotas
are those that were set last and not struck since, in the order in which their names were first set
since they were struck last. Any other changes that leave the same quotas, in whatever order, leave
the same one to govern, or fail to for the same reason. -/
theorem lists_what_stands (changes : List QuotaChange) (ns : String) :
    ∃ quotas, (after changes).list ns = .ok quotas ∧
      (quotas.map Quota.name).Nodup ∧
      (∀ quota, quota ∈ quotas ↔ quota.ns = ns ∧ Stands changes quota) ∧
      (quotas.Pairwise fun a b =>
        (tenure changes ns b.name).length < (tenure changes ns a.name).length) ∧
      ∀ changes' quotas', (after changes').list ns = .ok quotas' →
        (∀ quota, quota ∈ quotas' ↔ quota ∈ quotas) →
        Quota.governing quotas' ns = Quota.governing quotas ns := by
  have shows := shows_entered changes ns
  refine ⟨_, list_after changes ns, shows.distinct, shows.stands, List.pairwise_map.1 shows.ordered,
    fun changes' quotas' listed same => ?_⟩
  cases (list_after changes' ns).symm.trans listed
  have distinct := (shows_entered changes' ns).distinct
  have p := (List.perm_ext_iff_of_nodup (.of_map _ distinct) (.of_map _ shows.distinct)).2 same
  exact Quota.governing_perm distinct p ns

/-- A quota that bears the name of its namespace `n`. -/
def ownQuota : Quota := ⟨"n", "n", none⟩

/-- Another quota of that namespace. -/
def otherQuota : Quota := ⟨"q", "n", none⟩

/-- To strike a quota and set it again moves it to the end, and it governs as before. -/
theorem lists_what_stands_reset :
    (after [.set ownQuota, .set otherQuota]).list "n" = .ok [ownQuota, otherQuota] ∧
    (after [.set ownQuota, .set otherQuota, .remove "n" "n", .set ownQuota]).list "n" =
      .ok [otherQuota, ownQuota] ∧
    (∀ quota, quota ∈ [otherQuota, ownQuota] ↔ quota ∈ [ownQuota, otherQuota]) ∧
    Quota.governing [otherQuota, ownQuota] "n" = Quota.governing [ownQuota, otherQuota] "n" := by
  have set : (after [.set ownQuota, .set otherQuota]).list "n" = .ok [ownQuota, otherQuota] := by
    decide +kernel
  have reset : (after [.set ownQuota, .set otherQuota, .remove "n" "n", .set ownQuota]).list "n" =
      .ok [otherQuota, ownQuota] := by
    decide +kernel
  have same : ∀ quota, quota ∈ [otherQuota, ownQuota] ↔ quota ∈ [ownQuota, otherQuota] :=
    fun quota => (List.Perm.swap ownQuota otherQuota []).mem_iff
  obtain ⟨quotas, listed, -, -, -, governs⟩ :=
    lists_what_stands [.set ownQuota, .set otherQuota] "n"
  cases set.symm.trans listed
  exact ⟨set, reset, same, governs _ _ reset same⟩

end QuotaBook

end JobAdmission
