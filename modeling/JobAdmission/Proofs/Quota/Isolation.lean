/-
Isolation of namespaces. One ledger serves all namespaces, and its set of keys is common to them.
Still, what the quota plugin answers to the calls for one namespace, and what the ledger shows of
that namespace afterwards, depends on those calls only. The keys decide it: a key begins with the
namespace of its job and a slash, so where no namespace contains a slash two of them share no key.
-/
import JobAdmission.Plugin.InTree
import JobAdmission.Proofs.Quota.Amounts
import Mathlib.Data.List.Forall2

namespace JobAdmission

/-! ## Keys and namespaces -/

/-- Keys of different namespaces without a slash are different. -/
theorem Job.keyOf_ne {ns ns' : String} (h : '/' ∉ ns.toList) (h' : '/' ∉ ns'.toList)
    (hne : ns ≠ ns') (name name' : String) : Job.keyOf ns name ≠ Job.keyOf ns' name' := by
  intro e
  have first : ∀ {ns : String}, '/' ∉ ns.toList → ∀ name,
      ((Job.keyOf ns name).toList.splitOn '/').head? = some ns.toList := by
    intro ns h name
    have hl : (Job.keyOf ns name).toList = ns.toList ++ '/' :: name.toList := by
      simp [Job.keyOf]
    rw [hl, List.splitOn_append_cons_self_of_not_mem h]
    rfl
  have same := first h name
  rw [e, first h' name', Option.some.injEq] at same
  exact hne (String.toList_inj.1 same).symm

/-- A candidate held under the key of its job, in a namespace without a slash. -/
def Candidate.Plain (c : Candidate) : Prop := c.key = c.job.key ∧ '/' ∉ c.job.ns.toList

instance (c : Candidate) : Decidable c.Plain :=
  inferInstanceAs (Decidable (c.key = c.job.key ∧ '/' ∉ c.job.ns.toList))

theorem Candidate.Plain.key_ne {c : Candidate} (h : c.Plain) {ns : String} (hne : c.job.ns ≠ ns)
    (hns : '/' ∉ ns.toList) (name : String) : c.key ≠ Job.keyOf ns name := by
  rw [h.1]
  exact Job.keyOf_ne h.2 hns hne _ _

/-! ## Calls of the plugin -/

/-- A call of the quota plugin. The filter comes with the quotas that are listed at its time. -/
inductive QuotaCall where
  | filter (quotas : String → Except AdmissionError (List Quota)) (c : Candidate)
  | reserve (c : Candidate)
  | unreserve (c : Candidate)

namespace QuotaCall

/-- The candidate that a call is made with. -/
def candidate : QuotaCall → Candidate
  | filter _ c => c
  | reserve c => c
  | unreserve c => c

/-- The namespace that a call is made for. -/
def ns (call : QuotaCall) : String := call.candidate.job.ns

/-- An environment that is a ledger and nothing else. -/
def slot : LedgerSlot Ledger := ⟨id, fun l _ => l⟩

/-- What the plugin answers over a ledger, and the ledger after that. -/
def run : QuotaCall → Ledger → Verdict × Ledger
  | filter quotas c => QuotaPlugin.filter slot (fun _ => quotas) c
  | reserve c => QuotaPlugin.reserve slot c
  | unreserve c => QuotaPlugin.unreserve slot c

/-- The ledger after calls, oldest first. -/
def after (l : Ledger) (calls : List QuotaCall) : Ledger :=
  calls.foldl (fun l call => (call.run l).2) l

/-- What the calls for one namespace are answered in the course of all calls. -/
def answersIn (ns : String) : Ledger → List QuotaCall → List Verdict
  | _, [] => []
  | l, call :: rest =>
    let (v, l') := call.run l
    if call.ns = ns then v :: answersIn ns l' rest else answersIn ns l' rest

/-- The same call, where a namespace is concerned: the listings of its quotas are the same. -/
inductive Alike (ns : String) : QuotaCall → QuotaCall → Prop
  | filter {quotas quotas' : String → Except AdmissionError (List Quota)} (c : Candidate)
      (listed : quotas' ns = quotas ns) : Alike ns (.filter quotas c) (.filter quotas' c)
  | reserve (c : Candidate) : Alike ns (.reserve c) (.reserve c)
  | unreserve (c : Candidate) : Alike ns (.unreserve c) (.unreserve c)

end QuotaCall

/-! ## What a ledger shows of a namespace -/

namespace Ledger

/-- Ledgers that show the same of a namespace: its totals, and which of its keys hold a
reservation. -/
structure SameIn (ns : String) (l l' : Ledger) : Prop where
  reservedFor : l'.reservedFor ns = l.reservedFor ns
  isReserved : '/' ∉ ns.toList → ∀ name,
    l'.isReserved (Job.keyOf ns name) = l.isReserved (Job.keyOf ns name)

variable {ns : String} {l l' l'' : Ledger} {c : Candidate}

theorem SameIn.refl (ns : String) (l : Ledger) : SameIn ns l l := ⟨rfl, fun _ _ => rfl⟩

theorem SameIn.symm (h : SameIn ns l l') : SameIn ns l' l :=
  ⟨h.reservedFor.symm, fun hns name => (h.isReserved hns name).symm⟩

theorem SameIn.trans (h : SameIn ns l l') (h' : SameIn ns l' l'') : SameIn ns l l'' :=
  ⟨h'.reservedFor.trans h.reservedFor,
    fun hns name => (h'.isReserved hns name).trans (h.isReserved hns name)⟩

theorem SameIn.held (h : SameIn ns l l') (plain : c.Plain) (hns : c.job.ns = ns) :
    l'.isReserved c.key = l.isReserved c.key := by
  subst hns
  rw [plain.1]
  exact h.isReserved plain.2 c.job.name

/-- The filter reads the totals of the namespace of its candidate, and nothing else. -/
theorem SameIn.filter (h : SameIn c.job.ns l l') (quotas : Except AdmissionError (List Quota)) :
    l'.filter quotas c = l.filter quotas c := by
  unfold Ledger.filter check
  rw [h.reservedFor]

/-- A reservation in another namespace. -/
theorem sameIn_reserve (plain : c.Plain) (hns : c.job.ns ≠ ns) : SameIn ns l (l.reserve c).2 := by
  cases e : l.isReserved c.key with
  | true => rw [reserve_of_reserved e]; exact .refl ns l
  | false =>
    constructor
    · rw [reservedFor_reserve e, if_neg hns]
    · intro hslash name
      have hkey := plain.key_ne hns hslash name
      rw [isReserved_reserve, beq_false_of_ne hkey, Bool.false_or]

/-- A return in another namespace. -/
theorem sameIn_unreserve (plain : c.Plain) (hns : c.job.ns ≠ ns) : SameIn ns l (l.unreserve c) := by
  cases e : l.isReserved c.key with
  | false => rw [unreserve_of_free e]; exact .refl ns l
  | true =>
    constructor
    · rw [reservedFor_unreserve e, if_neg hns]
    · intro hslash name
      have hkey := plain.key_ne hns hslash name
      rw [isReserved_unreserve, bne_iff_ne.2 hkey, Bool.true_and]

/-- The same reservation in the namespace itself. -/
theorem SameIn.reserve (h : SameIn ns l l') (plain : c.Plain) (hns : c.job.ns = ns) :
    (l'.reserve c).1 = (l.reserve c).1 ∧ SameIn ns (l.reserve c).2 (l'.reserve c).2 := by
  have held := h.held plain hns
  cases e : l.isReserved c.key with
  | true =>
    rw [e] at held
    rw [reserve_of_reserved e, reserve_of_reserved held]
    exact ⟨rfl, h⟩
  | false =>
    rw [e] at held
    refine ⟨?_, ?_, fun hslash name => ?_⟩
    · unfold Ledger.reserve
      rw [e, held]
      rfl
    · rw [reservedFor_reserve e, reservedFor_reserve held, h.reservedFor]
    · rw [isReserved_reserve, isReserved_reserve, h.isReserved hslash]

/-- The same return in the namespace itself. -/
theorem SameIn.unreserve (h : SameIn ns l l') (plain : c.Plain) (hns : c.job.ns = ns) :
    SameIn ns (l.unreserve c) (l'.unreserve c) := by
  have held := h.held plain hns
  cases e : l.isReserved c.key with
  | false =>
    rw [e] at held
    rw [unreserve_of_free e, unreserve_of_free held]
    exact h
  | true =>
    rw [e] at held
    refine ⟨?_, fun hslash name => ?_⟩
    · rw [reservedFor_unreserve e, reservedFor_unreserve held, h.reservedFor]
    · rw [isReserved_unreserve, isReserved_unreserve, h.isReserved hslash]

end Ledger

/-! ## One call -/

namespace QuotaCall

open Ledger (SameIn)

variable {ns : String} {l l' : Ledger} {call call' : QuotaCall} {calls calls' : List QuotaCall}

/-- A call for another namespace is not seen. -/
theorem sameIn_run (plain : call.candidate.Plain) (hns : call.ns ≠ ns) :
    SameIn ns l (call.run l).2 := by
  cases call with
  | filter quotas c => exact .refl ns l
  | reserve c => exact Ledger.sameIn_reserve plain hns
  | unreserve c => exact Ledger.sameIn_unreserve plain hns

/-- The same call for the namespace is answered alike, and both ledgers show the same of it
afterwards. -/
theorem Alike.run (alike : Alike ns call call') (h : SameIn ns l l')
    (plain : call.candidate.Plain) (hns : call.ns = ns) :
    (call'.run l').1 = (call.run l).1 ∧ SameIn ns (call.run l).2 (call'.run l').2 := by
  cases alike with
  | @filter quotas quotas' c listed =>
    subst hns
    refine ⟨?_, h⟩
    change quotas' c.job.ns = quotas c.job.ns at listed
    change l'.filter (quotas' c.job.ns) c = l.filter (quotas c.job.ns) c
    rw [listed]
    exact h.filter _
  | reserve c => exact h.reserve plain hns
  | unreserve c => exact ⟨rfl, h.unreserve plain hns⟩

theorem Alike.refl (ns : String) : ∀ call : QuotaCall, Alike ns call call
  | .filter _ c => .filter c rfl
  | .reserve c => .reserve c
  | .unreserve c => .unreserve c

theorem Alike.ns_eq (alike : Alike ns call call') : call'.ns = call.ns := by
  cases alike <;> rfl

/-! ## Runs -/

/-- The calls for other namespaces can be left out. -/
theorem answersIn_filter (plain : ∀ call ∈ calls, call.candidate.Plain) (h : SameIn ns l l') :
    answersIn ns l' (calls.filter (·.ns = ns)) = answersIn ns l calls ∧
      SameIn ns (after l calls) (after l' (calls.filter (·.ns = ns))) := by
  induction calls generalizing l l' with
  | nil => exact ⟨rfl, h⟩
  | cons call rest ih =>
    obtain ⟨hc, later⟩ := List.forall_mem_cons.1 plain
    by_cases hns : call.ns = ns
    · obtain ⟨answer, left⟩ := (Alike.refl ns call).run h hc hns
      obtain ⟨answers, left⟩ := ih later left
      rw [List.filter_cons_of_pos (by simpa using hns)]
      refine ⟨?_, left⟩
      unfold answersIn
      dsimp only
      rw [if_pos hns, if_pos hns, answer, answers]
    · obtain ⟨answers, left⟩ := ih later ((sameIn_run hc hns).symm.trans h)
      rw [List.filter_cons_of_neg (by simpa using hns)]
      refine ⟨?_, left⟩
      rw [answers]
      conv_rhs => unfold answersIn
      dsimp only
      rw [if_neg hns]

/-- Runs of the same calls for the namespace are answered alike. -/
theorem answersIn_alike (alike : List.Forall₂ (Alike ns) calls calls')
    (plain : ∀ call ∈ calls, call.candidate.Plain) (hns : ∀ call ∈ calls, call.ns = ns)
    (h : SameIn ns l l') :
    answersIn ns l' calls' = answersIn ns l calls ∧
      SameIn ns (after l calls) (after l' calls') := by
  induction alike generalizing l l' with
  | nil => exact ⟨rfl, h⟩
  | @cons call call' rest rest' one _ ih =>
    obtain ⟨hc, plain⟩ := List.forall_mem_cons.1 plain
    obtain ⟨first, hns⟩ := List.forall_mem_cons.1 hns
    obtain ⟨answer, left⟩ := one.run h hc first
    obtain ⟨answers, left⟩ := ih plain hns left
    refine ⟨?_, left⟩
    unfold answersIn
    dsimp only
    rw [if_pos first, if_pos (one.ns_eq.trans first), answer, answers]

/-- Two runs in which the calls for a namespace are the same, with the same listings of its quotas,
answer these calls the same, and leave the same totals of the namespace and the same reservations
under its keys. It does not matter what is called for other namespaces in either run. -/
theorem isolated
    (plain : ∀ call ∈ calls, call.candidate.Plain) (plain' : ∀ call ∈ calls', call.candidate.Plain)
    (alike : List.Forall₂ (Alike ns) (calls.filter (·.ns = ns)) (calls'.filter (·.ns = ns))) :
    answersIn ns .empty calls' = answersIn ns .empty calls ∧
      (after .empty calls').reservedFor ns = (after .empty calls).reservedFor ns ∧
      ('/' ∉ ns.toList → ∀ name, (after .empty calls').isReserved (Job.keyOf ns name) =
        (after .empty calls).isReserved (Job.keyOf ns name)) := by
  obtain ⟨answers, left⟩ := answersIn_filter plain (.refl ns .empty)
  obtain ⟨answers', left'⟩ := answersIn_filter plain' (.refl ns .empty)
  obtain ⟨same, between⟩ := answersIn_alike alike
    (fun call hm => plain call (List.mem_filter.1 hm).1)
    (fun call hm => of_decide_eq_true (List.mem_filter.1 hm).2) (.refl ns .empty)
  have seen := (left.trans between).trans left'.symm
  exact ⟨answers'.symm.trans (same.trans answers), seen.reservedFor, seen.isReserved⟩

/-- A job of the namespace `m` that asks for so many processors. -/
def neighbour (name : String) (processors : Int) : Candidate :=
  .fresh { Job.new "m" name "TFJob" with
    resources := NameMap.empty.insert "cpu" (.ofUnits processors) } 0

/-- A quota of so many processors. -/
def quotaOf (processors : Int) : Except AdmissionError (List Quota) :=
  .ok [⟨"q", "n", some (NameMap.empty.insert "cpu" (.ofUnits processors))⟩]

/-- A neighbour that reserves a lot, and for which other quotas are listed, is not noticed. -/
theorem isolated_from_neighbour :
    answersIn "n" .empty [.reserve (neighbour "x" 100), .reserve (.wanting "x" 2),
        .unreserve (neighbour "x" 1),
        .filter (fun ns => if ns = "n" then quotaOf 4 else quotaOf 9) (.wanting "y" 3)] =
      answersIn "n" .empty [.reserve (.wanting "x" 2),
        .filter (fun _ => quotaOf 4) (.wanting "y" 3)] ∧
    answersIn "n" .empty [.reserve (.wanting "x" 2),
        .filter (fun _ => quotaOf 4) (.wanting "y" 3)] =
      [.success, .error ("insufficient resource left for cpu in resource quota q"
        ++ " reserved 5/4, request 3")] := by
  constructor
  · apply And.left
    apply isolated
    · decide
    · decide
    · exact .cons (.reserve _) (.cons (.filter _ rfl) .nil)
  · decide

/-- Namespaces with slashes can share a key: a reservation of the job `b/x` of `a` stands in the
way of the job `x` of `a/b`. -/
example :
    let x := fun ns name : String => Candidate.fresh (.new ns name "TFJob") 0
    answersIn "a/b" .empty [.reserve (x "a" "b/x"), .reserve (x "a/b" "x")] ≠
      answersIn "a/b" .empty [.reserve (x "a/b" "x")] := by
  decide

end QuotaCall

end JobAdmission
