/-
What the quota plugin answers to a request. It accepts exactly the requests that fit: the quotas of
the namespace can be listed, one of them governs it and states limits, and each resource that is
asked for and limited stays within its limit together with what is reserved already. Every other
answer is an error that says what is the matter, and asking changes nothing.
-/
import JobAdmission.Plugin.InTree
import JobAdmission.Proofs.Quota.Limits

namespace JobAdmission

/-! ## The governing quota -/

namespace Quota

/-- The quota of a listing that governs a namespace: the only one, or among several the first that
bears the name of the namespace. -/
inductive Governs (ns : String) : List Quota → Quota → Prop where
  | only (quota : Quota) : Governs ns [quota] quota
  | named {quotas before after : List Quota} {quota : Quota} (several : 2 ≤ quotas.length)
      (whole : quotas = before ++ quota :: after) (name : quota.name = ns)
      (first : ∀ other ∈ before, other.name ≠ ns) : Governs ns quotas quota

variable {ns : String} {quotas : List Quota} {quota : Quota}

theorem find?_name_eq_some_iff :
    quotas.find? (·.name == ns) = some quota ↔ ∃ before after,
      quotas = before ++ quota :: after ∧ quota.name = ns ∧ ∀ other ∈ before, other.name ≠ ns := by
  rw [List.find?_eq_some_iff_append]
  constructor
  · rintro ⟨name, before, after, whole, first⟩
    exact ⟨before, after, whole, by simpa using name, fun other h => by simpa using first other h⟩
  · rintro ⟨before, after, whole, name, first⟩
    exact ⟨by simpa using name, before, after, whole, fun other h => by simpa using first other h⟩

theorem governing_of_several {a b : Quota} :
    governing (a :: b :: quotas) ns = .ok quota ↔
      (a :: b :: quotas).find? (·.name == ns) = some quota := by
  unfold governing
  dsimp only
  split
  · rename_i chosen
    rw [chosen, Except.ok.injEq, Option.some.injEq]
  · rename_i none
    rw [none]
    exact iff_of_false nofun nofun

theorem governing_eq_ok_iff : governing quotas ns = .ok quota ↔ Governs ns quotas quota := by
  match quotas with
  | [] =>
    refine iff_of_false nofun ?_
    rintro (_ | ⟨several, -⟩)
    exact absurd several (by decide)
  | [only] =>
    constructor
    · rintro ⟨⟩
      exact .only quota
    · rintro (_ | ⟨several, -⟩)
      · rfl
      · exact absurd several (by simp)
  | a :: b :: rest =>
    rw [governing_of_several, find?_name_eq_some_iff]
    constructor
    · rintro ⟨before, after, whole, name, first⟩
      exact .named (by simp) whole name first
    · rintro (_ | ⟨-, whole, name, first⟩)
      exact ⟨_, _, whole, name, first⟩

end Quota

/-! ## Why a request is refused -/

namespace Ledger

variable {l : Ledger} {listing : Except AdmissionError (List Quota)} {c : Candidate}

/-- A candidate asks for a resource, and the governing quota sets a limit on it. -/
structure Limited (listing : Except AdmissionError (List Quota)) (c : Candidate)
    (quota resource : String) (requested limit : Quantity) : Prop where
  asked : c.job.resources.get? resource = some requested
  stated : ∃ quotas q hard, listing = .ok quotas ∧ Quota.Governs c.job.ns quotas q ∧
    q.name = quota ∧ q.hard = some hard ∧ hard.get? resource = some limit

/-- What a fault says of a request is the case. -/
inductive Refuted (l : Ledger) (listing : Except AdmissionError (List Quota)) (c : Candidate) :
    QuotaFault → Prop where
  | unlisted {cause : AdmissionError} (failed : listing = .error cause) :
      Refuted l listing c (.noQuota cause)
  | ungoverned {quotas : List Quota} {cause : AdmissionError} (listed : listing = .ok quotas)
      (none : ∀ quota, ¬ Quota.Governs c.job.ns quotas quota) : Refuted l listing c (.noQuota cause)
  | unlimited {quotas : List Quota} {quota : Quota} (listed : listing = .ok quotas)
      (governs : Quota.Governs c.job.ns quotas quota) (none : quota.hard = none) :
      Refuted l listing c (.noLimits quota.name)
  | overflow {quota resource : String} {requested limit : Quantity}
      (limited : Limited listing c quota resource requested limit)
      (unfit : ¬ Quantity.Fits (l.total c.job.ns resource + requested.milli)) :
      Refuted l listing c (.overflow quota resource (l.reservedAmount c.job.ns resource) requested)
  | insufficient {quota resource : String} {requested limit : Quantity}
      (limited : Limited listing c quota resource requested limit)
      (above : limit.milli < l.total c.job.ns resource + requested.milli) :
      Refuted l listing c (.insufficient quota resource
        ⟨l.total c.job.ns resource + requested.milli⟩ limit requested)

theorem checkEntries_eq_error {quota : String} {hard already : Resources} {fault : QuotaFault} :
    ∀ {entries : List (String × Quantity)}, checkEntries quota hard already entries = .error fault →
      ∃ e ∈ entries, checkEntry quota hard already e = .error fault
  | [], refused => by cases refused
  | first :: rest, refused => by
    rw [checkEntries] at refused
    rcases h : checkEntry quota hard already first with fault' | ⟨⟩
    · rw [h] at refused
      cases refused
      exact ⟨first, List.mem_cons_self, h⟩
    · rw [h] at refused
      obtain ⟨e, he, found⟩ := checkEntries_eq_error refused
      exact ⟨e, List.mem_cons_of_mem _ he, found⟩

/-- A single entry is refused only for a limit on its resource, and for its sum with what is
reserved. -/
theorem checkEntry_eq_error {quota : String} {hard already : Resources} {e : String × Quantity}
    {fault : QuotaFault} (refused : checkEntry quota hard already e = .error fault) :
    ∃ limit, hard.get? e.1 = some limit ∧
      (¬ Quantity.Fits ((already.amount e.1).milli + e.2.milli) ∧
          fault = .overflow quota e.1 (already.amount e.1) e.2 ∨
        limit.milli < (already.amount e.1).milli + e.2.milli ∧
          fault = .insufficient quota e.1 ⟨(already.amount e.1).milli + e.2.milli⟩ limit e.2) := by
  unfold checkEntry Quantity.checkedAdd? at refused
  rcases hl : hard.get? e.1 with _ | limit
  · rw [hl] at refused
    cases refused
  · rw [hl] at refused
    dsimp only at refused
    by_cases fits : Quantity.Fits ((already.amount e.1).milli + e.2.milli)
    · rw [if_pos fits] at refused
      dsimp only at refused
      split at refused
      · rename_i above
        exact ⟨limit, rfl, .inr ⟨above, (Except.error.inj refused).symm⟩⟩
      · cases refused
    · rw [if_neg fits] at refused
      exact ⟨limit, rfl, .inl ⟨fits, (Except.error.inj refused).symm⟩⟩

/-- Each fault that the check finds is there. -/
theorem check_eq_error {fault : QuotaFault} (refused : l.check listing c = .error fault) :
    l.Refuted listing c fault := by
  unfold check at refused
  rcases listing with cause | quotas
  · cases refused
    exact .unlisted rfl
  · split at refused
    · rename_i cause ungoverned
      cases refused
      refine .ungoverned rfl fun quota governs => ?_
      have chosen := Quota.governing_eq_ok_iff.2 governs
      rw [show Quota.governing quotas c.job.ns = .error cause from ungoverned] at chosen
      cases chosen
    · rename_i quota chosen
      have governs := Quota.governing_eq_ok_iff.1 chosen
      split at refused
      · rename_i none
        cases refused
        exact .unlimited rfl governs none
      · rename_i hard limits
        obtain ⟨e, he, found⟩ := checkEntries_eq_error refused
        obtain ⟨limit, hl, ⟨unfit, rfl⟩ | ⟨above, rfl⟩⟩ := checkEntry_eq_error found
        · exact .overflow ⟨NameMap.get?_eq_some_iff.2 he,
            quotas, quota, hard, rfl, governs, rfl, limits, hl⟩ unfit
        · exact .insufficient ⟨NameMap.get?_eq_some_iff.2 he,
            quotas, quota, hard, rfl, governs, rfl, limits, hl⟩ above

theorem filter_isSuccess : (l.filter listing c).isSuccess = true ↔ l.check listing c = .ok () := by
  unfold filter
  rcases l.check listing c with fault | ⟨⟩
  · exact iff_of_false nofun nofun
  · exact iff_of_true rfl rfl

/-- An answer that does not accept is an error and tells a fault that is there. -/
theorem filter_not_success (refused : (l.filter listing c).isSuccess = false) :
    ∃ fault, l.filter listing c = .error fault.message ∧ l.Refuted listing c fault := by
  unfold filter at refused ⊢
  rcases found : l.check listing c with fault | ⟨⟩
  · exact ⟨fault, rfl, check_eq_error found⟩
  · rw [found] at refused
    cases refused

end Ledger

/-! ## The answer -/

/-- The quota plugin accepts a request exactly if a quota governs its namespace and states limits,
and the sum of each resource that is asked for and limited with what is reserved of it is
representable and at most the limit. Otherwise it answers an error that says what is the matter.
The ledger, like all the rest of the environment, is as before. -/
theorem QuotaPlugin.filter_accepts_iff_fits {E : Type} (slot : LedgerSlot E)
    (quotas : QuotaListing E) (c : Candidate) (env : E) :
    let r := QuotaPlugin.filter slot quotas c env
    (r.1.isSuccess = true ↔ ∃ listed quota hard, quotas env c.job.ns = .ok listed ∧
      Quota.Governs c.job.ns listed quota ∧ quota.hard = some hard ∧
      ∀ resource requested limit, c.job.resources.get? resource = some requested →
        hard.get? resource = some limit →
        Quantity.Fits ((slot.get env).total c.job.ns resource + requested.milli) ∧
          (slot.get env).total c.job.ns resource + requested.milli ≤ limit.milli) ∧
    (r.1.isSuccess = false → r.1.code = .error ∧ ∃ fault : QuotaFault,
      r.1.message = fault.message ∧
        (slot.get env).Refuted (quotas env c.job.ns) c fault) ∧
    r.2 = env := by
  refine ⟨?_, fun refused => ?_, rfl⟩
  · refine (Ledger.filter_isSuccess.trans Ledger.check_eq_ok_iff).trans ?_
    simp only [Quota.governing_eq_ok_iff]
  · obtain ⟨fault, answer, found⟩ := Ledger.filter_not_success refused
    have same : (QuotaPlugin.filter slot quotas c env).1 = .error fault.message := answer
    rw [same]
    exact ⟨rfl, fault, rfl, found⟩

end JobAdmission
