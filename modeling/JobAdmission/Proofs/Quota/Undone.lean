/-
What is left in the reservation ledger of a reservation that is given back at once. The keys are as
they were. A total that was asked for is not if it was negative or the sum was out of range: sums
stop at the largest quantity, and what drops to nothing or below is dropped.
-/
import JobAdmission.Proofs.Quantity.Display
import JobAdmission.Proofs.Quota.Balance

namespace JobAdmission

/-- Adding and taking off the same again stops at both ends of the range. -/
theorem Quantity.clamp_undone {t q : Int} (ht : Fits t) (hq : Fits q) :
    max 0 (clamp (clamp (t + q) - q)) = max 0 (min t (maxMilli - q)) := by
  unfold Fits clamp minMilli maxMilli at *
  omega

/-- The cut at both ends changes nothing exactly between them. -/
theorem max_min_eq_self_iff {t room : Int} (h : 0 ≤ room) :
    max 0 (min t room) = t ↔ 0 ≤ t ∧ t ≤ room := by
  omega

namespace Resources

/-! ## Sums and differences as they are listed -/

theorem get?_addEntry (r : Resources) (e : String × Quantity) (name : String) :
    (r.addEntry e).get? name =
      if e.1 = name then some ((r.get? name).getD .zero + e.2) else r.get? name := by
  unfold addEntry amount
  rw [NameMap.get?_insert]
  split
  · rename_i h
    rw [h]
  · rfl

/-- What is left of a listed amount: nothing, and it is dropped, once it is used up. -/
def rest? (a b : Quantity) : Option Quantity := if (a - b).sign ≤ 0 then none else some (a - b)

theorem get?_subEntry (r : Resources) (e : String × Quantity) (name : String) :
    (r.subEntry e).get? name =
      if e.1 = name then (r.get? name).bind (rest? · e.2) else r.get? name := by
  unfold subEntry rest?
  rcases h : r.get? e.1 with _ | current
  · dsimp only
    split
    · rename_i hn
      rw [← hn, h]
      rfl
    · rfl
  · dsimp only
    split
    · rename_i hs
      rw [NameMap.get?_erase]
      split
      · rename_i hn
        rw [← hn, h, Option.bind_some, if_pos hs]
      · rfl
    · rename_i hs
      rw [NameMap.get?_insert]
      split
      · rename_i hn
        rw [← hn, h, Option.bind_some, if_neg hs]
      · rfl

theorem get?_add (total request : Resources) (name : String) :
    (total.add request).get? name =
      ((request.get? name).map fun q => some (total.amount name + q)).getD (total.get? name) :=
  view_foldl NameMap.get? (g := fun o q => some (o.getD .zero + q)) request
    (fun e _ r name => get?_addEntry r e name) total name

theorem get?_sub (total request : Resources) (name : String) :
    (total.sub request).get? name =
      ((request.get? name).map fun q => (total.get? name).bind (rest? · q)).getD
        (total.get? name) :=
  view_foldl NameMap.get? (g := fun o q => o.bind (rest? · q)) request
    (fun e _ r name => get?_subEntry r e name) total name

theorem rest?_milli (a b : Quantity) :
    ((rest? a b).getD .zero).milli = max 0 (Quantity.clamp (a.milli - b.milli)) := by
  have sign : (a - b).sign ≤ 0 ↔ Quantity.clamp (a.milli - b.milli) ≤ 0 := Int.sign_nonpos_iff
  unfold rest?
  split
  · rename_i h
    exact (max_eq_left (sign.1 h)).symm
  · rename_i h
    exact (max_eq_right (Int.not_le.1 (mt sign.2 h)).le).symm

/-- A request added and taken off again leaves the amounts that it does not name, and of the others
what is not negative and had room for the sum. -/
theorem amount_undone {total request : Resources} {name : String}
    (ht : Quantity.Fits (total.amount name).milli)
    (hr : ∀ e ∈ request.entries, Quantity.Fits e.2.milli) :
    (((total.add request).sub request).amount name).milli =
      match request.get? name with
      | some q => max 0 (min (total.amount name).milli (Quantity.maxMilli - q.milli))
      | none => (total.amount name).milli := by
  have undone := get?_sub (total.add request) request name
  rw [get?_add] at undone
  unfold amount at ht undone ⊢
  rw [undone]
  rcases named : request.get? name with _ | q
  · rfl
  · rw [Option.map_some, Option.getD_some, Option.map_some, Option.getD_some, Option.bind_some,
      rest?_milli, Quantity.add_milli]
    exact Quantity.clamp_undone ht (hr _ (NameMap.get?_eq_some_iff.1 named))

theorem fits_amount_sub {total : Resources} {name : String}
    (ht : Quantity.Fits (total.amount name).milli) (request : Resources) :
    Quantity.Fits ((total.sub request).amount name).milli := by
  unfold amount at ht ⊢
  rw [get?_sub]
  rcases request.get? name with _ | q
  · exact ht
  · rw [Option.map_some, Option.getD_some]
    rcases total.get? name with _ | t
    · exact show Quantity.Fits 0 by decide
    · rw [Option.bind_some, rest?_milli]
      obtain ⟨low, high⟩ := Quantity.fits_clamp (t.milli - q.milli)
      unfold Quantity.Fits Quantity.minMilli Quantity.maxMilli at *
      omega

/-- What can be written is representable. -/
theorem Written.fits {r : Resources} (h : r.Written) :
    ∀ e ∈ r.entries, Quantity.Fits e.2.milli := by
  intro e he
  obtain ⟨text, parsed⟩ := h e he
  have bound := Quantity.abs_le_of_parse? parsed
  obtain ⟨low, high⟩ := abs_le.1 bound
  unfold Quantity.maxMilli at *
  unfold Quantity.Fits Quantity.minMilli Quantity.maxMilli
  omega

end Resources

/-! ## Ledgers -/

namespace Ledger

/-- Totals that are representable, negative or not. -/
def Representable (l : Ledger) : Prop := ∀ ns resource, Quantity.Fits (l.total ns resource)

theorem representable_empty : empty.Representable := fun _ _ => show Quantity.Fits 0 by decide

theorem Representable.reserve {l : Ledger} (hl : l.Representable) (c : Candidate) :
    (l.reserve c).2.Representable := by
  intro ns resource
  cases h : l.isReserved c.key with
  | true =>
    rw [reserve_of_reserved h]
    exact hl ns resource
  | false =>
    have before := hl ns resource
    unfold total reservedAmount at before ⊢
    rw [reservedFor_reserve h]
    split
    · exact (Resources.amount_add _ _ before) ▸ Quantity.fits_clamp _
    · exact before

theorem Representable.unreserve {l : Ledger} (hl : l.Representable) (c : Candidate) :
    (l.unreserve c).Representable := by
  intro ns resource
  cases h : l.isReserved c.key with
  | false =>
    rw [unreserve_of_free h]
    exact hl ns resource
  | true =>
    have before := hl ns resource
    unfold total reservedAmount at before ⊢
    rw [reservedFor_unreserve h]
    split
    · exact Resources.fits_amount_sub before _
    · exact before

theorem representable_run (calls : List LedgerCall) :
    (Bookings.new.run calls).ledger.Representable := by
  induction calls using List.reverseRecOn with
  | nil => exact representable_empty
  | append_singleton done call ih =>
    rw [Bookings.run_concat]
    cases call with
    | reserve c => exact ih.reserve c
    | unreserve c => exact ih.unreserve c

/-- A reservation of a free key that is given back at once. The keys are as before, and so is every
total but those that were asked for; of these is left what is not negative and had room for the sum.
So all is as before exactly if there was room for each sum and none of these totals was negative. -/
theorem undone_iff_room (calls : List LedgerCall) {c : Candidate}
    (written : c.job.resources.Written)
    (free : (Bookings.new.run calls).ledger.isReserved c.key = false) :
    let l := (Bookings.new.run calls).ledger
    let l' := (l.reserve c).2.unreserve c
    (l.reserve c).1.isSuccess = true ∧
      (∀ key, l'.isReserved key = l.isReserved key) ∧
      (∀ ns resource, l'.total ns resource =
        match if c.job.ns = ns then c.job.resources.get? resource else none with
        | some q => max 0 (min (l.total ns resource) (Quantity.maxMilli - q.milli))
        | none => l.total ns resource) ∧
      ((∀ ns resource, l'.reservedAmount ns resource = l.reservedAmount ns resource) ↔
        ∀ e ∈ c.job.resources.entries,
          0 ≤ l.total c.job.ns e.1 ∧ l.total c.job.ns e.1 + e.2.milli ≤ Quantity.maxMilli) := by
  have fits := representable_run calls
  dsimp only
  generalize (Bookings.new.run calls).ledger = l at free fits
  have totals : ∀ ns resource, ((l.reserve c).2.unreserve c).total ns resource =
      match if c.job.ns = ns then c.job.resources.get? resource else none with
      | some q => max 0 (min (l.total ns resource) (Quantity.maxMilli - q.milli))
      | none => l.total ns resource := by
    intro ns resource
    have before := fits ns resource
    unfold total reservedAmount at before ⊢
    rw [reservedFor_unreserve (l.isReserved_reserve_self c), reservedFor_reserve free]
    split
    · exact Resources.amount_undone before written.fits
    · rfl
  refine ⟨by rw [isSuccess_reserve, free]; rfl, isReserved_undone free, totals, ?_⟩
  have same : (∀ ns resource, ((l.reserve c).2.unreserve c).reservedAmount ns resource =
        l.reservedAmount ns resource) ↔
      ∀ ns resource, ((l.reserve c).2.unreserve c).total ns resource = l.total ns resource :=
    forall₂_congr fun _ _ => ⟨congrArg Quantity.milli, Quantity.eq_of_milli⟩
  rw [same]
  constructor
  · intro h e he
    have asked := totals c.job.ns e.1
    rw [if_pos rfl, NameMap.get?_eq_some_iff.2 he, h] at asked
    have room := (written.fits e he).2
    have := (max_min_eq_self_iff (by omega)).1 asked.symm
    omega
  · intro room ns resource
    rw [totals]
    rcases asked : (if c.job.ns = ns then c.job.resources.get? resource else none) with _ | q
    · rfl
    · split at asked
      · rename_i ns_eq
        obtain ⟨low, high⟩ := room _ (NameMap.get?_eq_some_iff.1 asked)
        rw [ns_eq] at low high
        dsimp only at low high
        exact (max_min_eq_self_iff (by omega)).2 ⟨low, by omega⟩
      · cases asked

/-- One processor asked for beside two that are reserved. -/
theorem undone_beside_two :
    let l := (Bookings.new.run [.reserve (.wanting "x" 2)]).ledger
    let c := Candidate.wanting "y" 1
    c.job.resources.Written ∧ l.isReserved c.key = false ∧
      ((l.reserve c).2.unreserve c).total "n" "cpu" = 2000 := by
  have written : (Candidate.wanting "y" 1).job.resources.Written := by
    have one : Quantity.parse? "1" = some (.ofUnits 1) := by decide +kernel
    exact List.forall_mem_singleton.2 ⟨"1", one⟩
  have free : (Bookings.new.run [.reserve (.wanting "x" 2)]).ledger.isReserved
      (Candidate.wanting "y" 1).key = false := by
    decide
  refine ⟨written, free, ?_⟩
  obtain ⟨-, -, totals, -⟩ := undone_iff_room [.reserve (.wanting "x" 2)] written free
  rw [totals]
  decide

/-- A negative total, which is gone once a processor was reserved beside it and given back. -/
theorem negative_total_lost :
    let l := (Bookings.new.run [.reserve (.wanting "a" (-1))]).ledger
    let c := Candidate.wanting "b" 1
    Quantity.parse? "-1" = some (.ofUnits (-1)) ∧ Quantity.parse? "1" = some (.ofUnits 1) ∧
      l.isReserved c.key = false ∧ (l.reserve c).1.isSuccess = true ∧
      ((l.reserve c).2.unreserve c).total "n" "cpu" ≠ l.total "n" "cpu" := by
  refine ⟨by decide +kernel, by decide +kernel, by decide, by decide, by decide⟩

end Ledger

end JobAdmission
