/-
The ledger as a function of the jobs that are recorded in it. The keys, the namespaces, the
resources and the totals that it shows are those of the jobs, whichever came first, and they
determine the ledger. A job that is entered again changes nothing, so entering jobs in any order and
any number of times each leads to one and the same ledger.
-/
import JobAdmission.Proofs.NameMap
import JobAdmission.Proofs.Quota.Undone
import Mathlib.Algebra.Order.BigOperators.Group.List

namespace JobAdmission

/-- A map is known by the names that it binds and by what is read under each of them. -/
theorem NameMap.ext_getD {α : Type} {a b : NameMap α} (absent : α)
    (named : ∀ name, a.contains name = true ↔ b.contains name = true)
    (read : ∀ name, (a.get? name).getD absent = (b.get? name).getD absent) : a = b := by
  refine ext_get? fun name => ?_
  have named := named name
  have read := read name
  unfold contains at named
  generalize a.get? name = x at *
  generalize b.get? name = y at *
  rcases x with _ | x <;> rcases y with _ | y
  · rfl
  · exact absurd (named.2 rfl) Bool.false_ne_true
  · exact absurd (named.1 rfl) Bool.false_ne_true
  · exact congrArg some read

theorem Resources.contains_add (total request : Resources) (name : String) :
    (total.add request).contains name = true ↔
      request.contains name = true ∨ total.contains name = true := by
  unfold NameMap.contains
  rw [get?_add]
  rcases request.get? name with _ | q <;> simp

/-- How many thousandths of a resource a job asks for in a namespace. -/
def Job.asks (job : Job) (ns resource : String) : Int :=
  if job.ns = ns then (job.resources.amount resource).milli else 0

namespace Ledger

variable {l l' : Ledger} {jobs jobs' done : List Job} {job : Job}

/-- The ledger once a job was entered, unless it was there. -/
def enter (l : Ledger) (job : Job) : Ledger := (l.reserve (.fresh job 0)).2

/-- Some jobs are recorded in a ledger, each once, and no others. -/
structure Recorded (jobs : List Job) (l : Ledger) : Prop where
  holders : ∀ key, l.isReserved key = true ↔ ∃ job ∈ jobs, job.key = key
  namespaces : ∀ ns, l.reserved.contains ns = true ↔ ∃ job ∈ jobs, job.ns = ns
  resources : ∀ ns resource, (l.reservedFor ns).contains resource = true ↔
    ∃ job ∈ jobs, job.ns = ns ∧ job.resources.contains resource = true
  totals : ∀ ns resource, l.total ns resource = (jobs.map (·.asks ns resource)).sum

/-- Jobs whose requests can be summed up: none is negative, and each sum is representable. -/
structure Summable (jobs : List Job) : Prop where
  nonneg : ∀ job ∈ jobs, job.resources.Nonneg
  fits : ∀ ns resource, Quantity.Fits (jobs.map (·.asks ns resource)).sum

/-! ## The jobs determine the ledger -/

theorem recorded_empty : Recorded [] empty where
  holders _ := iff_of_false nofun nofun
  namespaces _ := iff_of_false nofun nofun
  resources _ _ := iff_of_false nofun nofun
  totals _ _ := rfl

theorem Recorded.perm (h : Recorded jobs l) (p : jobs.Perm jobs') : Recorded jobs' l where
  holders key := (h.holders key).trans (by simp only [p.mem_iff])
  namespaces ns := (h.namespaces ns).trans (by simp only [p.mem_iff])
  resources ns resource := (h.resources ns resource).trans (by simp only [p.mem_iff])
  totals ns resource := (h.totals ns resource).trans (p.map _).sum_eq

/-- There is one ledger at most in which given jobs are recorded. -/
theorem Recorded.unique (h : Recorded jobs l) (h' : Recorded jobs l') : l = l' := by
  have lists : ∀ ns, l.reservedFor ns = l'.reservedFor ns := fun ns =>
    NameMap.ext_getD .zero
      (fun resource => (h.resources ns resource).trans (h'.resources ns resource).symm)
      fun resource => Quantity.eq_of_milli
        ((h.totals ns resource).trans (h'.totals ns resource).symm)
  have reserved : l.reserved = l'.reserved :=
    NameMap.ext_getD .empty (fun ns => (h.namespaces ns).trans (h'.namespaces ns).symm) lists
  have holders : l.holders = l'.holders :=
    NameMap.ext_getD () (fun key => (h.holders key).trans (h'.holders key).symm) fun _ => rfl
  obtain ⟨_, _⟩ := l
  obtain ⟨_, _⟩ := l'
  cases reserved
  cases holders
  rfl

/-! ## Sums of requests -/

theorem asks_nonneg (h : job.resources.Nonneg) (ns resource : String) :
    0 ≤ job.asks ns resource :=
  Candidate.asks_nonneg (c := .fresh job 0) h ns resource

theorem sum_asks_nonneg (h : ∀ job ∈ jobs, job.resources.Nonneg) (ns resource : String) :
    0 ≤ (jobs.map (·.asks ns resource)).sum := by
  refine List.sum_nonneg fun n hn => ?_
  obtain ⟨job, hj, rfl⟩ := List.mem_map.1 hn
  exact asks_nonneg (h job hj) ns resource

/-- Some of the jobs ask for no more than all of them do. -/
theorem Summable.subperm (h : Summable jobs) (sub : List.Subperm jobs' jobs) : Summable jobs' := by
  have nonneg : ∀ job ∈ jobs', job.resources.Nonneg := fun job hj => h.nonneg job (sub.subset hj)
  refine ⟨nonneg, fun ns resource => ?_⟩
  obtain ⟨some, p, part⟩ := sub
  have least := sum_asks_nonneg nonneg ns resource
  have most := (part.map (·.asks ns resource)).sum_le_sum fun n hn => by
    obtain ⟨job, hj, rfl⟩ := List.mem_map.1 hn
    exact asks_nonneg (h.nonneg job hj) ns resource
  rw [(p.map _).sum_eq] at most
  have bound := (h.fits ns resource).2
  unfold Quantity.Fits Quantity.minMilli
  omega

/-! ## Entering jobs -/

theorem enter_of_recorded (h : Recorded jobs l) (there : job ∈ jobs) : l.enter job = l := by
  unfold enter
  rw [reserve_of_reserved ((h.holders job.key).2 ⟨job, there, rfl⟩)]

theorem reserved_reserve {c : Candidate} (free : l.isReserved c.key = false) :
    (l.reserve c).2.reserved =
      l.reserved.insert c.job.ns ((l.reservedFor c.job.ns).add c.job.resources) := by
  unfold reserve
  rw [free, if_neg Bool.false_ne_true]

/-- A job of a new key is recorded beside the others. -/
theorem Recorded.enter (h : Recorded jobs l) (summable : Summable (job :: jobs))
    (fresh : ∀ other ∈ jobs, other.key ≠ job.key) : Recorded (job :: jobs) (l.enter job) := by
  have free : l.isReserved (Candidate.fresh job 0).key = false := by
    rw [Bool.eq_false_iff]
    intro held
    obtain ⟨other, there, same⟩ := (h.holders _).1 held
    exact fresh other there same
  have before : Summable jobs := summable.subperm (List.sublist_cons_self job jobs).subperm
  have inRange : l.InRange := fun ns resource => by
    rw [h.totals]
    exact ⟨sum_asks_nonneg before.nonneg ns resource, before.fits ns resource⟩
  unfold Ledger.enter
  refine ⟨fun key => ?_, fun ns => ?_, fun ns resource => ?_, fun ns resource => ?_⟩
  · rw [isReserved_reserve, Bool.or_eq_true, beq_iff_eq, h.holders, List.exists_mem_cons_iff]
    rfl
  · rw [reserved_reserve free, NameMap.contains_insert, h.namespaces, List.exists_mem_cons_iff,
      eq_comm]
    rfl
  · rw [reservedFor_reserve free, List.exists_mem_cons_iff, ← h.resources]
    split
    · rename_i same
      rw [Resources.contains_add]
      exact or_congr_left (and_iff_right same).symm
    · rename_i other
      exact (or_iff_right fun asked => other asked.1).symm
  · rw [total_reserve inRange free, h.totals, List.map_cons, List.sum_cons, Int.add_comm]
    exact Quantity.clamp_of_fits (summable.fits ns resource)

/-- Jobs of distinct keys entered one after the other, each any number of times: those that were
entered are recorded. -/
theorem Recorded.enterAll {deliveries : List Job} (h : Recorded done l)
    (summable : Summable jobs) (distinct : (jobs.map Job.key).Nodup) (once : done.Nodup)
    (past : done ⊆ jobs) (known : deliveries ⊆ jobs) :
    ∃ done', Recorded done' (deliveries.foldl Ledger.enter l) ∧ done'.Nodup ∧
      ∀ job, job ∈ done' ↔ job ∈ deliveries ∨ job ∈ done := by
  induction deliveries generalizing done l with
  | nil => exact ⟨done, h, once, fun job => by simp⟩
  | cons job deliveries ih =>
    obtain ⟨here, known⟩ := List.cons_subset.1 known
    rw [List.foldl_cons]
    by_cases there : job ∈ done
    · rw [enter_of_recorded h there]
      obtain ⟨done', recorded, once', members⟩ := ih h once past known
      refine ⟨done', recorded, once', fun other => (members other).trans ?_⟩
      rw [List.mem_cons]
      constructor
      · exact Or.imp_left .inr
      · rintro ((rfl | later) | old)
        · exact .inr there
        · exact .inl later
        · exact .inr old
    · have once' : (job :: done).Nodup := List.nodup_cons.2 ⟨there, once⟩
      have past' : job :: done ⊆ jobs := List.cons_subset.2 ⟨here, past⟩
      have fresh : ∀ other ∈ done, other.key ≠ job.key := fun other old same =>
        there (List.inj_on_of_nodup_map distinct (past old) here same ▸ old)
      have entered := h.enter (summable.subperm (once'.subperm past')) fresh
      obtain ⟨done', recorded, once'', members⟩ := ih entered once' past' known
      refine ⟨done', recorded, once'', fun other => (members other).trans ?_⟩
      rw [List.mem_cons, List.mem_cons]
      exact or_left_comm.trans or_assoc.symm

/-- Entered from nothing, the jobs are recorded, whatever the order was and however often each was
entered. -/
theorem recorded_enterAll {deliveries : List Job} (summable : Summable jobs)
    (distinct : (jobs.map Job.key).Nodup) (same : ∀ job, job ∈ deliveries ↔ job ∈ jobs) :
    Recorded jobs (deliveries.foldl Ledger.enter empty) := by
  obtain ⟨done, recorded, once, members⟩ := recorded_empty.enterAll summable distinct .nil
    (List.nil_subset jobs) fun job hj => (same job).1 hj
  refine recorded.perm ((List.perm_ext_iff_of_nodup once (.of_map _ distinct)).2 fun job => ?_)
  rw [members, same, or_iff_left List.not_mem_nil]

end Ledger

end JobAdmission
