/-
What the operations of the reservation ledger do to each single total: how much of a resource is
reserved in a namespace after a reservation or a return of it. Both are sums and differences of
resource lists entry by entry, so they come down to one amount at a time.
-/
import JobAdmission.Quota.Ledger

namespace JobAdmission

theorem Quantity.eq_of_milli {a b : Quantity} (h : a.milli = b.milli) : a = b := by
  cases a; cases b; cases h; rfl

theorem NameMap.eq_empty_of_isEmpty {α : Type} {m : NameMap α} (h : m.isEmpty = true) :
    m = .empty := by
  obtain ⟨entries, _⟩ := m
  unfold NameMap.isEmpty at h
  rw [List.isEmpty_iff] at h
  cases h
  rfl

namespace Resources

/-- A resource list without negative amounts. -/
def Nonneg (r : Resources) : Prop := ∀ e ∈ r.entries, 0 ≤ e.2.milli

instance (r : Resources) : Decidable r.Nonneg :=
  inferInstanceAs (Decidable (∀ e ∈ r.entries, 0 ≤ e.2.milli))

theorem Nonneg.amount {r : Resources} (h : r.Nonneg) (name : String) :
    0 ≤ (r.amount name).milli := by
  unfold Resources.amount
  rcases e : r.get? name with _ | q
  · exact Int.le_refl 0
  · exact h (name, q) (NameMap.get?_eq_some_iff.1 e)

theorem amount_insert (r : Resources) (name other : String) (q : Quantity) :
    amount (r.insert name q) other = if name = other then q else r.amount other := by
  unfold amount
  rw [NameMap.get?_insert]
  split <;> rfl

theorem amount_erase (r : Resources) (name other : String) :
    amount (r.erase name) other = if name = other then .zero else r.amount other := by
  unfold amount
  rw [NameMap.get?_erase]
  split <;> rfl

/-! ## Entry by entry -/

/-- A fold over the entries of a list, none of whose names occurs twice, acts on what is seen of a
resource once if the list names it, and not at all otherwise. -/
theorem view_foldl {β : Type} (view : Resources → String → β)
    {f : Resources → String × Quantity → Resources} {g : β → Quantity → β} (request : Resources)
    (hf : ∀ e ∈ request.entries, ∀ r name,
      view (f r e) name = if e.1 = name then g (view r name) e.2 else view r name)
    (total : Resources) (name : String) :
    view (request.entries.foldl f total) name =
      ((request.get? name).map (g (view total name))).getD (view total name) := by
  obtain ⟨entries, sorted⟩ := request
  unfold NameMap.get?
  dsimp only at hf ⊢
  induction entries generalizing total with
  | nil => rfl
  | cons e rest ih =>
    obtain ⟨hlt, sorted⟩ := List.pairwise_cons.1 sorted
    rw [List.foldl_cons, ih _ sorted fun x hx => hf x (List.mem_cons_of_mem _ hx),
      hf e List.mem_cons_self, List.find?_cons]
    by_cases h : e.1 = name
    · -- the names increase, so the rest does not name the resource again
      have hn : rest.find? (·.1 == name) = none := by
        rw [List.find?_eq_none]
        intro x hx
        rw [beq_iff_eq]
        rintro rfl
        exact String.lt_irrefl _ (h ▸ hlt x hx)
      rw [hn]
      simp [h]
    · have hb : (e.1 == name) = false := by simpa using h
      simp [h, hb]

theorem amount_addEntry (r : Resources) (e : String × Quantity) (name : String) :
    (r.addEntry e).amount name =
      if e.1 = name then r.amount name + e.2 else r.amount name := by
  unfold addEntry
  rw [amount_insert]
  split
  · rename_i h; rw [h]
  · rfl

/-- What is left of an amount of which some is taken off: nothing once it is used up. -/
def remainder (a b : Quantity) : Quantity := if (a - b).sign ≤ 0 then .zero else a - b

theorem remainder_milli {a b : Quantity} (hf : Quantity.Fits a.milli) (hb : 0 ≤ b.milli) :
    (remainder a b).milli = max 0 (a.milli - b.milli) := by
  obtain ⟨_, hmax⟩ := hf
  have hs : (a - b).sign ≤ 0 ↔ a.milli ≤ b.milli := by
    unfold Quantity.sign
    rw [Int.sign_nonpos_iff, Quantity.sub_milli]
    unfold Quantity.clamp Quantity.minMilli Quantity.maxMilli
    omega
  unfold remainder
  split
  · rename_i h
    have := hs.1 h
    show (0 : Int) = _
    omega
  · rename_i h
    have := mt hs.2 h
    rw [Quantity.sub_milli, Quantity.clamp_of_fits]
    · omega
    · unfold Quantity.Fits Quantity.minMilli
      omega

theorem amount_subEntry (r : Resources) {e : String × Quantity} (he : 0 ≤ e.2.milli)
    (name : String) :
    (r.subEntry e).amount name =
      if e.1 = name then remainder (r.amount name) e.2 else r.amount name := by
  unfold subEntry
  rcases h : r.get? e.1 with _ | current
  · -- nothing is taken off a resource of which there is none
    dsimp only
    split
    · rename_i hn
      have ha : r.amount name = .zero := by unfold amount; rw [← hn, h]; rfl
      have hz : (remainder .zero e.2).milli = max 0 (0 - e.2.milli) :=
        remainder_milli (by decide) he
      rw [ha]
      refine Quantity.eq_of_milli (Eq.trans ?_ hz.symm)
      show (0 : Int) = _
      omega
    · rfl
  · have ha : r.amount e.1 = current := by unfold amount; rw [h]; rfl
    unfold remainder
    dsimp only
    split
    · rename_i hs
      rw [amount_erase]
      split
      · rename_i hn
        rw [← hn, ha, if_pos hs]
      · rfl
    · rename_i hs
      rw [amount_insert]
      split
      · rename_i hn
        rw [← hn, ha, if_neg hs]
      · rfl

/-! ## Sums and differences -/

/-- Nothing is taken off nothing. -/
theorem empty_sub (request : Resources) : sub .empty request = .empty := by
  unfold sub
  induction request.entries with
  | nil => rfl
  | cons e rest ih => exact ih

/-- An amount that is representable grows by what is asked for. -/
theorem amount_add (total request : Resources) {name : String}
    (h : Quantity.Fits (total.amount name).milli) :
    ((total.add request).amount name).milli =
      Quantity.clamp ((total.amount name).milli + (request.amount name).milli) := by
  unfold add
  rw [view_foldl amount (g := (· + ·)) request fun e _ r name => amount_addEntry r e name]
  unfold amount at h ⊢
  rcases request.get? name with _ | q
  · rw [Option.map_none, Option.getD_none, Option.getD_none]
    show _ = Quantity.clamp (_ + 0)
    rw [Int.add_zero, Quantity.clamp_of_fits h]
  · rfl

/-- An amount shrinks by what is taken off, as far as there is that much. -/
theorem amount_sub (total : Resources) {request : Resources} (hr : request.Nonneg) {name : String}
    (h0 : 0 ≤ (total.amount name).milli) (h : Quantity.Fits (total.amount name).milli) :
    ((total.sub request).amount name).milli =
      max 0 ((total.amount name).milli - (request.amount name).milli) := by
  unfold sub
  rw [view_foldl amount (g := remainder) request fun e he r name =>
    amount_subEntry r (hr e he) name]
  have hq := hr.amount name
  rcases e : request.get? name with _ | q
  · have hz : request.amount name = .zero := by unfold amount; rw [e]; rfl
    rw [hz, Option.map_none, Option.getD_none]
    show _ = max 0 (_ - 0)
    omega
  · have hz : request.amount name = q := by unfold amount; rw [e]; rfl
    rw [hz] at hq ⊢
    exact remainder_milli h hq

end Resources

/-! ## The totals of a ledger -/

/-- How much of a resource a candidate asks for in a namespace. -/
def Candidate.asks (c : Candidate) (ns resource : String) : Int :=
  if c.job.ns = ns then (c.job.resources.amount resource).milli else 0

theorem Candidate.asks_nonneg {c : Candidate} (h : c.job.resources.Nonneg) (ns resource : String) :
    0 ≤ c.asks ns resource := by
  unfold Candidate.asks
  split
  · exact h.amount resource
  · exact Int.le_refl 0

/-- A candidate of the namespace `n` that asks for so many processors. -/
def Candidate.wanting (name : String) (processors : Int) : Candidate :=
  .fresh { Job.new "n" name "TFJob" with
    resources := NameMap.empty.insert "cpu" (.ofUnits processors) } 0

theorem Candidate.asks_wanting (name : String) (processors : Int) (ns resource : String) :
    (wanting name processors).asks ns resource =
      if "n" = ns ∧ "cpu" = resource then processors * 1000 else 0 := by
  unfold asks
  show (if "n" = ns then (Resources.amount (NameMap.insert NameMap.empty "cpu" _) resource).milli
    else 0) = _
  rw [Resources.amount_insert]
  by_cases hn : "n" = ns <;> by_cases hr : "cpu" = resource <;> simp [hn, hr] <;> rfl

namespace Ledger

/-- How many thousandths of a resource are reserved in a namespace. -/
def total (l : Ledger) (ns resource : String) : Int := (l.reservedAmount ns resource).milli

/-- No total is negative, and each is representable. -/
def InRange (l : Ledger) : Prop := ∀ ns resource, 0 ≤ l.total ns resource ∧
  Quantity.Fits (l.total ns resource)

theorem inRange_empty : empty.InRange := fun _ _ =>
  ⟨Int.le_refl 0, show Quantity.Fits 0 by decide⟩

theorem reserve_of_reserved {l : Ledger} {c : Candidate} (h : l.isReserved c.key = true) :
    l.reserve c = (.error ("queue unit " ++ c.key ++ " already reserved"), l) := by
  unfold reserve; rw [if_pos h]

theorem unreserve_of_free {l : Ledger} {c : Candidate} (h : l.isReserved c.key = false) :
    l.unreserve c = l := by
  unfold unreserve; rw [h]; rfl

theorem isSuccess_reserve (l : Ledger) (c : Candidate) :
    (l.reserve c).1.isSuccess = !l.isReserved c.key := by
  unfold reserve
  split <;> rename_i h
  · rw [h]; rfl
  · rw [Bool.not_eq_true] at h; rw [h]; rfl

theorem isReserved_reserve (l : Ledger) (c : Candidate) (key : String) :
    (l.reserve c).2.isReserved key = (c.key == key || l.isReserved key) := by
  unfold reserve
  split <;> rename_i h
  · by_cases hk : c.key = key
    · rw [← hk, h]; simp
    · simp [hk]
  · unfold isReserved NameMap.contains NameSet.add
    dsimp only
    rw [NameMap.get?_insert]
    by_cases hk : c.key = key <;> simp [hk]

theorem isReserved_unreserve (l : Ledger) (c : Candidate) (key : String) :
    (l.unreserve c).isReserved key = (c.key != key && l.isReserved key) := by
  unfold unreserve
  split <;> rename_i h
  · unfold isReserved NameMap.contains
    dsimp only
    rw [NameMap.get?_erase]
    by_cases hk : c.key = key <;> simp [hk]
  · by_cases hk : c.key = key
    · rw [← hk]; simpa using h
    · simp [hk]

theorem reservedFor_reserve {l : Ledger} {c : Candidate} (h : l.isReserved c.key = false)
    (ns : String) :
    (l.reserve c).2.reservedFor ns =
      if c.job.ns = ns then (l.reservedFor ns).add c.job.resources else l.reservedFor ns := by
  unfold reserve
  rw [h, if_neg Bool.false_ne_true]
  unfold reservedFor
  dsimp only
  rw [NameMap.get?_insert]
  split
  · rename_i hn; rw [hn]; rfl
  · rfl

/-- Where nothing is left the namespace is dropped, which is no other answer to any question
about it. -/
theorem reservedFor_unreserve {l : Ledger} {c : Candidate} (h : l.isReserved c.key = true)
    (ns : String) :
    (l.unreserve c).reservedFor ns =
      if c.job.ns = ns then (l.reservedFor ns).sub c.job.resources else l.reservedFor ns := by
  unfold unreserve
  rw [if_pos h]
  unfold reservedFor
  rcases e : l.reserved.get? c.job.ns with _ | total
  · dsimp only
    split
    · rename_i hn
      rw [← hn, e]
      exact (Resources.empty_sub c.job.resources).symm
    · rfl
  · dsimp only
    split
    · rename_i hempty
      rw [NameMap.get?_erase]
      split
      · rename_i hn
        have hz : total.sub c.job.resources = .empty :=
          NameMap.eq_empty_of_isEmpty hempty
        rw [← hn, e, Option.getD_some, hz]
        rfl
      · rfl
    · rw [NameMap.get?_insert]
      split
      · rename_i hn; rw [← hn, e]; rfl
      · rfl

/-- A reservation raises the totals by what is asked for, up to the largest quantity. -/
theorem total_reserve {l : Ledger} (hl : l.InRange) {c : Candidate}
    (h : l.isReserved c.key = false) (ns resource : String) :
    (l.reserve c).2.total ns resource =
      Quantity.clamp (l.total ns resource + c.asks ns resource) := by
  unfold total reservedAmount Candidate.asks
  rw [reservedFor_reserve h]
  split
  · exact Resources.amount_add _ _ (hl ns resource).2
  · rw [Int.add_zero]
    exact (Quantity.clamp_of_fits (hl ns resource).2).symm

/-- A return lowers the totals by what is asked for, as far as there is that much. -/
theorem total_unreserve {l : Ledger} (hl : l.InRange) {c : Candidate}
    (hc : c.job.resources.Nonneg) (h : l.isReserved c.key = true) (ns resource : String) :
    (l.unreserve c).total ns resource =
      max 0 (l.total ns resource - c.asks ns resource) := by
  obtain ⟨h0, hf⟩ := hl ns resource
  unfold total reservedAmount Candidate.asks at *
  rw [reservedFor_unreserve h]
  split
  · exact Resources.amount_sub _ hc h0 hf
  · omega

theorem InRange.reserve {l : Ledger} (hl : l.InRange) {c : Candidate}
    (hc : c.job.resources.Nonneg) : (l.reserve c).2.InRange := by
  cases h : l.isReserved c.key with
  | true => rw [reserve_of_reserved h]; exact hl
  | false =>
    intro ns resource
    rw [total_reserve hl h]
    refine ⟨?_, Quantity.fits_clamp _⟩
    have := (hl ns resource).1
    have := c.asks_nonneg hc ns resource
    unfold Quantity.clamp Quantity.minMilli Quantity.maxMilli
    omega

theorem InRange.unreserve {l : Ledger} (hl : l.InRange) {c : Candidate}
    (hc : c.job.resources.Nonneg) : (l.unreserve c).InRange := by
  cases h : l.isReserved c.key with
  | false => rw [unreserve_of_free h]; exact hl
  | true =>
    intro ns resource
    rw [total_unreserve hl hc h]
    obtain ⟨h0, hmin, hmax⟩ := hl ns resource
    have := c.asks_nonneg hc ns resource
    unfold Quantity.Fits Quantity.minMilli
    omega

/-- Ledgers with the same keys and the same totals. -/
def Agrees (l l' : Ledger) : Prop :=
  (∀ key, l'.isReserved key = l.isReserved key) ∧
    ∀ ns resource, l'.reservedAmount ns resource = l.reservedAmount ns resource

theorem isReserved_reserve_self (l : Ledger) (c : Candidate) :
    (l.reserve c).2.isReserved c.key = true := by
  rw [isReserved_reserve, beq_self_eq_true, Bool.true_or]

theorem isReserved_undone {l : Ledger} {c : Candidate} (free : l.isReserved c.key = false)
    (key : String) : ((l.reserve c).2.unreserve c).isReserved key = l.isReserved key := by
  rw [isReserved_unreserve, isReserved_reserve]
  by_cases h : c.key = key
  · rw [← h, free]; simp
  · have hb : (c.key == key) = false := by simpa using h
    rw [bne, hb]
    rfl

/-- Giving a reservation back restores what the ledger held before it. -/
theorem agrees_undone {l : Ledger} (hl : l.InRange) {c : Candidate} (hc : c.job.resources.Nonneg)
    (free : l.isReserved c.key = false)
    (fits : ∀ ns resource, Quantity.Fits (l.total ns resource + c.asks ns resource)) :
    l.Agrees ((l.reserve c).2.unreserve c) := by
  refine ⟨isReserved_undone free, fun ns resource => ?_⟩
  apply Quantity.eq_of_milli
  have total := total_unreserve (hl.reserve hc) hc (l.isReserved_reserve_self c) ns resource
  rw [total_reserve hl free, Quantity.clamp_of_fits (fits ns resource)] at total
  have := (hl ns resource).1
  unfold Ledger.total at total this
  omega

theorem not_agrees_reserve {l : Ledger} {c : Candidate} (free : l.isReserved c.key = false) :
    ¬ l.Agrees (l.reserve c).2 := by
  intro h
  have := h.1 c.key
  rw [isReserved_reserve_self, free] at this
  cases this

end Ledger

end JobAdmission
