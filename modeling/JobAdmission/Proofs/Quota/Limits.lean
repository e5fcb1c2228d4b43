/-
The limits of the quotas and the ledger. A request that the filter lets through fits what is
reserved already, so entering it in the same ledger stays within every limit; giving back only
lowers the totals.
-/
import JobAdmission.Proofs.Quota.Amounts

namespace JobAdmission

/-- The limit that the governing quota of a namespace sets on a resource, if it sets one. -/
def Quota.limit? (quotas : List Quota) (ns resource : String) : Option Quantity :=
  match governing quotas ns with
  | .error _ => none
  | .ok quota => quota.hard.bind (·.get? resource)

namespace Ledger

/-- A ledger that keeps to every limit that is not negative. -/
def Within (book : String → List Quota) (l : Ledger) : Prop :=
  ∀ ns resource limit, Quota.limit? (book ns) ns resource = some limit → 0 ≤ limit.milli →
    l.total ns resource ≤ limit.milli

variable {book : String → List Quota} {l : Ledger} {c : Candidate}

theorem within_empty : empty.Within book := fun _ _ _ _ h => h

/-! ## What the filter checks -/

/-- A single entry passes exactly if the quota does not name the resource, or the sum with what is
reserved is representable and within the limit. -/
theorem checkEntry_eq_ok_iff {quota : String} {hard already : Resources} {e : String × Quantity} :
    checkEntry quota hard already e = .ok () ↔ ∀ limit, hard.get? e.1 = some limit →
      Quantity.Fits ((already.amount e.1).milli + e.2.milli) ∧
        (already.amount e.1).milli + e.2.milli ≤ limit.milli := by
  unfold checkEntry Quantity.checkedAdd?
  rcases hard.get? e.1 with _ | limit
  · exact iff_of_true rfl nofun
  · simp only [Option.some.injEq, forall_eq']
    by_cases fits : Quantity.Fits ((already.amount e.1).milli + e.2.milli)
    · rw [if_pos fits, and_iff_right fits]
      dsimp only
      split
      · rename_i above
        exact iff_of_false nofun (Int.not_le.2 above)
      · rename_i within
        exact iff_of_true rfl (Int.not_lt.1 within)
    · rw [if_neg fits]
      exact iff_of_false nofun fun h => fits h.1

/-- A request passes exactly if each of its entries does. -/
theorem checkEntries_eq_ok_iff {quota : String} {hard already : Resources}
    {entries : List (String × Quantity)} : checkEntries quota hard already entries = .ok () ↔
      ∀ e ∈ entries, checkEntry quota hard already e = .ok () := by
  induction entries with
  | nil => exact iff_of_true rfl nofun
  | cons first rest ih =>
    rw [List.forall_mem_cons, ← ih, checkEntries]
    rcases checkEntry quota hard already first with fault | ⟨⟩
    · exact iff_of_false nofun fun h => nomatch h.1
    · exact (and_iff_right rfl).symm

/-- A request passes the check exactly if there is a governing quota that states limits, and for
each resource that it asks for and the quota names the sum with what is reserved is representable
and within the limit. -/
theorem check_eq_ok_iff {listing : Except AdmissionError (List Quota)} :
    l.check listing c = .ok () ↔ ∃ quotas quota hard, listing = .ok quotas ∧
      Quota.governing quotas c.job.ns = .ok quota ∧ quota.hard = some hard ∧
      ∀ resource requested limit, c.job.resources.get? resource = some requested →
        hard.get? resource = some limit →
        Quantity.Fits (l.total c.job.ns resource + requested.milli) ∧
          l.total c.job.ns resource + requested.milli ≤ limit.milli := by
  constructor
  · intro ok
    unfold check at ok
    rcases listing with cause | quotas
    · cases ok
    · split at ok
      · cases ok
      · rename_i quota governs
        split at ok
        · cases ok
        · rename_i hard limits
          refine ⟨quotas, quota, hard, rfl, governs, limits, fun resource requested limit hq => ?_⟩
          have entry := checkEntries_eq_ok_iff.1 ok (resource, requested)
            (NameMap.get?_eq_some_iff.1 hq)
          exact checkEntry_eq_ok_iff.1 entry limit
  · rintro ⟨quotas, quota, hard, rfl, governs, limits, fits⟩
    unfold check
    rw [show (Except.ok quotas).bind (Quota.governing · c.job.ns) = .ok quota from governs]
    dsimp only
    rw [limits]
    exact checkEntries_eq_ok_iff.2 fun e he => checkEntry_eq_ok_iff.2 fun limit =>
      fits e.1 e.2 limit (NameMap.get?_eq_some_iff.2 he)

/-- A request that passes the check fits the limits on the resources that it asks for. -/
theorem check_eq_ok {quotas : List Quota} (ok : l.check (.ok quotas) c = .ok ()) {resource : String}
    {limit : Quantity} (hl : Quota.limit? quotas c.job.ns resource = some limit)
    {q : Quantity} (hq : c.job.resources.get? resource = some q) :
    Quantity.Fits (l.total c.job.ns resource + q.milli) ∧
      l.total c.job.ns resource + q.milli ≤ limit.milli := by
  obtain ⟨_, quota, hard, ⟨⟩, governs, limits, fits⟩ := check_eq_ok_iff.1 ok
  unfold Quota.limit? at hl
  rw [governs] at hl
  dsimp only at hl
  rw [limits, Option.bind_some] at hl
  exact fits resource q limit hq hl

/-! ## Reserving and giving back -/

/-- What the filter lets through can be entered. -/
theorem Within.reserve (h : l.Within book) (hl : l.InRange)
    {listing : Except AdmissionError (List Quota)}
    (listed : ∀ quotas, listing = .ok quotas → quotas = book c.job.ns)
    (pass : (l.filter listing c).isSuccess = true) : (l.reserve c).2.Within book := by
  intro ns resource limit hlimit h0
  have before := h ns resource limit hlimit h0
  cases free : l.isReserved c.key with
  | true => rw [reserve_of_reserved free]; exact before
  | false =>
    rw [total_reserve hl free]
    unfold Candidate.asks
    split
    · rename_i hns
      subst hns
      rcases hq : c.job.resources.get? resource with _ | q
      · -- the limits on resources that are not asked for hold as before
        have hz : c.job.resources.amount resource = .zero := by
          unfold Resources.amount; rw [hq]; rfl
        rw [hz]
        show Quantity.clamp (_ + 0) ≤ _
        rw [Int.add_zero, Quantity.clamp_of_fits (hl _ resource).2]
        exact before
      · have hz : c.job.resources.amount resource = q := by
          unfold Resources.amount; rw [hq]; rfl
        rcases listing with cause | quotas
        · cases pass
        · cases listed quotas rfl
          have ok : l.check (.ok (book c.job.ns)) c = .ok () := by
            unfold filter at pass
            rcases hc : l.check (.ok (book c.job.ns)) c with fault | ⟨⟩
            · rw [hc] at pass; cases pass
            · rfl
          obtain ⟨fits, le⟩ := check_eq_ok ok hlimit hq
          rw [hz, Quantity.clamp_of_fits fits]
          exact le
    · rw [Int.add_zero, Quantity.clamp_of_fits (hl ns resource).2]
      exact before

theorem Within.unreserve (h : l.Within book) (hl : l.InRange) (hc : c.job.resources.Nonneg) :
    (l.unreserve c).Within book := by
  intro ns resource limit hlimit h0
  have before := h ns resource limit hlimit h0
  cases held : l.isReserved c.key with
  | false => rw [unreserve_of_free held]; exact before
  | true =>
    rw [total_unreserve hl hc held]
    have := c.asks_nonneg hc ns resource
    omega

end Ledger

end JobAdmission
