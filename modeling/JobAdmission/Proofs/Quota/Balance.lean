/-
The balance of the reservation ledger over any run of reservations and returns: each total is the
sum, over the keys that hold a reservation, of what the accepted reservation of that key carried.
The ledger itself keeps no amount per key, so a return takes off what it is called with; the run is
in balance exactly as long as every return of a held key gives back what that key carried.
-/
import JobAdmission.Proofs.NameMap
import JobAdmission.Proofs.Quota.Amounts
import JobAdmission.Proofs.Run
import Mathlib

namespace JobAdmission

/-! ## Runs of a ledger -/

/-- The calls that may change a ledger. -/
inductive LedgerCall where
  | reserve (c : Candidate)
  | unreserve (c : Candidate)

/-- The candidate that a call is made with. -/
def LedgerCall.candidate : LedgerCall → Candidate
  | reserve c => c
  | unreserve c => c

/-- A ledger, and beside it what the accepted reservation of each key carried, the last one if
there were several. -/
structure Bookings where
  ledger : Ledger
  carried : NameMap Candidate

namespace Bookings

def new : Bookings := ⟨.empty, .empty⟩

def step (b : Bookings) : LedgerCall → Bookings
  | .reserve c =>
    let (v, ledger) := b.ledger.reserve c
    { ledger, carried := if v.isSuccess then b.carried.insert c.key c else b.carried }
  | .unreserve c => { b with ledger := b.ledger.unreserve c }

def run (b : Bookings) (calls : List LedgerCall) : Bookings := calls.foldl step b

theorem run_concat (b : Bookings) (calls : List LedgerCall) (call : LedgerCall) :
    b.run (calls ++ [call]) = (b.run calls).step call := by
  unfold run; rw [List.foldl_append]; rfl

/-- How much of a resource the reservation of a key carried in a namespace. -/
def share (b : Bookings) (key ns resource : String) : Int :=
  ((b.carried.get? key).map (·.asks ns resource)).getD 0

/-- What the keys that hold a reservation carried together. -/
def booked (b : Bookings) (ns resource : String) : Int :=
  (b.ledger.holders.names.map (b.share · ns resource)).sum

def Balanced (b : Bookings) : Prop :=
  ∀ ns resource, b.ledger.total ns resource = b.booked ns resource

/-- A return that gives back what the reservation of its key carried, of every resource in every
namespace. Where no other key carried any, giving back more than that comes to the same. -/
def GivenBack (b : Bookings) (c : Candidate) : Prop :=
  ∀ ns resource, c.asks ns resource = b.share c.key ns resource ∨
    b.booked ns resource = b.share c.key ns resource ∧
      b.share c.key ns resource ≤ c.asks ns resource

/-- A call that keeps the balance: a reservation, or a return that finds no reservation of its
key, or one that gives back what is due. -/
def InOrder (b : Bookings) : LedgerCall → Prop
  | .reserve _ => True
  | .unreserve c => b.ledger.isReserved c.key = true → b.GivenBack c

/-- What every run of calls without negative amounts keeps. -/
structure Sound (b : Bookings) : Prop where
  inRange : b.ledger.InRange
  carried : ∀ key c, b.carried.get? key = some c → c.job.resources.Nonneg

variable {b : Bookings} {c : Candidate}

theorem sound_new : new.Sound := ⟨Ledger.inRange_empty, fun _ _ e => by cases e⟩

theorem Sound.share_nonneg (h : b.Sound) (key ns resource : String) :
    0 ≤ b.share key ns resource := by
  unfold share
  rcases e : b.carried.get? key with _ | c
  · exact Int.le_refl 0
  · exact c.asks_nonneg (h.carried key c e) ns resource

/-! ## One call -/

theorem step_reserve_of_reserved (h : b.ledger.isReserved c.key = true) :
    b.step (.reserve c) = b := by
  unfold step
  dsimp only
  rw [Ledger.reserve_of_reserved h]
  rfl

theorem step_unreserve_of_free (h : b.ledger.isReserved c.key = false) :
    b.step (.unreserve c) = b := by
  unfold step
  dsimp only
  rw [Ledger.unreserve_of_free h]

theorem Sound.step (h : b.Sound) {call : LedgerCall}
    (hc : call.candidate.job.resources.Nonneg) : (b.step call).Sound := by
  cases call with
  | reserve c =>
    refine ⟨h.inRange.reserve hc, fun key c' e => ?_⟩
    change (if _ then _ else _ : NameMap Candidate).get? key = some c' at e
    split at e
    · rw [NameMap.get?_insert] at e
      split at e
      · cases e; exact hc
      · exact h.carried key c' e
    · exact h.carried key c' e
  | unreserve c => exact ⟨h.inRange.unreserve hc, h.carried⟩

/-- An accepted reservation adds what it carries. -/
theorem booked_reserve (h : b.ledger.isReserved c.key = false) (ns resource : String) :
    (b.step (.reserve c)).booked ns resource = b.booked ns resource + c.asks ns resource := by
  have hs : (b.ledger.reserve c).1.isSuccess = true := by rw [Ledger.isSuccess_reserve, h]; rfl
  have names : (b.step (.reserve c)).ledger.holders.names.Perm
      (c.key :: b.ledger.holders.names) := by
    show (b.ledger.reserve c).2.holders.names.Perm _
    unfold Ledger.reserve
    rw [h]
    exact NameMap.names_insert_perm h ()
  have share : ∀ key, (b.step (.reserve c)).share key ns resource =
      if c.key = key then c.asks ns resource else b.share key ns resource := by
    intro key
    unfold Bookings.share Bookings.step
    dsimp only
    rw [hs, if_pos rfl, NameMap.get?_insert]
    split <;> rfl
  unfold booked
  rw [(names.map _).sum_eq, List.map_cons, List.sum_cons, share, if_pos rfl, Int.add_comm]
  congr 2
  -- the key was free, so the shares of the other keys are as before
  refine List.map_congr_left fun key hm => ?_
  rw [share, if_neg]
  rintro rfl
  rw [Ledger.isReserved, NameMap.mem_names.1 hm] at h
  cases h

/-- A return strikes out the share of its key. -/
theorem booked_unreserve (h : b.ledger.isReserved c.key = true) (ns resource : String) :
    b.booked ns resource =
      b.share c.key ns resource + (b.step (.unreserve c)).booked ns resource := by
  have names : b.ledger.holders.names.Perm
      (c.key :: (b.step (.unreserve c)).ledger.holders.names) := by
    show List.Perm _ (c.key :: (b.ledger.unreserve c).holders.names)
    unfold Ledger.unreserve
    rw [if_pos h]
    exact NameMap.names_erase_perm h
  unfold booked
  rw [(names.map _).sum_eq, List.map_cons, List.sum_cons]
  rfl

theorem Sound.booked_nonneg (h : b.Sound) (ns resource : String) : 0 ≤ b.booked ns resource := by
  unfold booked
  apply List.sum_nonneg
  intro x hx
  obtain ⟨key, _, rfl⟩ := List.mem_map.1 hx
  exact h.share_nonneg key ns resource

/-- From a state in balance a call leads to one in balance exactly if it is in order. -/
theorem balanced_step_iff (h : b.Sound) (hb : b.Balanced) {call : LedgerCall}
    (hc : call.candidate.job.resources.Nonneg)
    (fits : ∀ ns resource, Quantity.Fits ((b.step call).booked ns resource)) :
    (b.step call).Balanced ↔ b.InOrder call := by
  cases call with
  | reserve c =>
    refine iff_of_true (fun ns resource => ?_) trivial
    cases hk : b.ledger.isReserved c.key with
    | true => rw [step_reserve_of_reserved hk]; exact hb ns resource
    | false =>
      have total : (b.step (.reserve c)).ledger.total ns resource = _ :=
        Ledger.total_reserve h.inRange hk ns resource
      rw [total, hb, ← booked_reserve hk, Quantity.clamp_of_fits (fits ns resource)]
  | unreserve c =>
    cases hk : b.ledger.isReserved c.key with
    | false =>
      rw [step_unreserve_of_free hk]
      exact iff_of_true hb fun hk' => by rw [hk] at hk'; cases hk'
    | true =>
      -- what is left after the cut at zero is what the other keys carried
      have one : ∀ ns resource, (b.step (.unreserve c)).ledger.total ns resource =
            (b.step (.unreserve c)).booked ns resource ↔
          (c.asks ns resource = b.share c.key ns resource ∨
            b.booked ns resource = b.share c.key ns resource ∧
              b.share c.key ns resource ≤ c.asks ns resource) := by
        intro ns resource
        have total : (b.step (.unreserve c)).ledger.total ns resource = _ :=
          Ledger.total_unreserve h.inRange (c := c) hc hk ns resource
        have split := booked_unreserve hk ns resource
        have rest := (h.step hc).booked_nonneg ns resource
        rw [total, hb]
        omega
      constructor
      · exact fun balanced _ ns resource => (one ns resource).1 (balanced ns resource)
      · exact fun ok ns resource => (one ns resource).2 (ok hk ns resource)

/-! ## Whole runs -/

/-- A run of calls without negative amounts, whose sums are representable, is in balance after
every call exactly if every call is in order. A reservation of a key that holds one and a return of
a key that holds none change nothing. -/
theorem balanced_along_iff {calls : List LedgerCall}
    (nonneg : ∀ call ∈ calls, call.candidate.job.resources.Nonneg)
    (fits : ∀ done, done <+: calls → ∀ ns resource,
      Quantity.Fits ((new.run done).booked ns resource)) :
    ((∀ done, done <+: calls → (new.run done).Balanced) ↔
      ∀ done call, done ++ [call] <+: calls → (new.run done).InOrder call) ∧
    (∀ done c, (new.run done).ledger.isReserved c.key = true →
      new.run (done ++ [.reserve c]) = new.run done) ∧
    ∀ done c, (new.run done).ledger.isReserved c.key = false →
      new.run (done ++ [.unreserve c]) = new.run done := by
  have given : ∀ done call, done ++ [call] <+: calls → call.candidate.job.resources.Nonneg :=
    fun done call hp => nonneg call (hp.subset (List.mem_append_right done List.mem_cons_self))
  have fits : ∀ done call, done ++ [call] <+: calls → ∀ ns resource,
      Quantity.Fits (((new.run done).step call).booked ns resource) :=
    fun done call hp => run_concat new done call ▸ fits _ hp
  refine ⟨?_, fun done c h => ?_, fun done c h => ?_⟩
  · exact good_along_iff (P := fun b : Bookings => b.Sound ∧ b.Balanced) (R := InOrder)
      ⟨sound_new, fun _ _ => rfl⟩ (fun _ h => h.2)
      (fun done call hp h balanced => ⟨h.1.step (given done call hp), balanced⟩)
      (fun done call hp h => balanced_step_iff h.1 h.2 (given done call hp) (fits done call hp))
  · rw [run_concat, step_reserve_of_reserved h]
  · rw [run_concat, step_unreserve_of_free h]

/-- A candidate that gives back what it reserved leaves the ledger in balance. -/
theorem balanced_along_return :
    (new.run [.reserve (.wanting "x" 2)]).Balanced ∧
      (new.run [.reserve (.wanting "x" 2), .unreserve (.wanting "x" 2)]).Balanced := by
  have nonneg : ∀ call ∈ [LedgerCall.reserve (.wanting "x" 2), .unreserve (.wanting "x" 2)],
      call.candidate.job.resources.Nonneg := by decide
  suffices along : ∀ done, done <+: [.reserve (.wanting "x" 2), .unreserve (.wanting "x" 2)] →
      (new.run done).Balanced from ⟨along _ (List.prefix_append _ _), along _ List.prefix_rfl⟩
  refine (balanced_along_iff nonneg fun done hp ns resource => ?_).1.2 fun done call hp => ?_
  · simp only [List.prefix_cons_iff, List.prefix_nil] at hp
    obtain rfl | ⟨_, rfl, rfl | ⟨_, rfl, rfl⟩⟩ := hp
    · show Quantity.Fits 0
      decide
    · show Quantity.Fits ((Candidate.wanting "x" 2).asks ns resource + 0)
      rw [Candidate.asks_wanting]
      split <;> decide
    · show Quantity.Fits 0
      decide
  · simp only [concat_prefix_cons] at hp
    obtain ⟨rfl, rfl⟩ | ⟨_, rfl, ⟨rfl, rfl⟩ | ⟨_, _, hp⟩⟩ := hp
    · trivial
    · exact fun _ _ _ => .inl rfl
    · exact absurd (List.prefix_nil.1 hp) (by simp)

/-- What is left of a reservation of which less was given back is held by nobody. -/
theorem unbalanced_after_smaller_return :
    ¬ (new.run [.reserve (.wanting "x" 2), .unreserve (.wanting "x" 1)]).Balanced := by
  intro h
  exact absurd (h "n" "cpu") (by decide)

end Bookings

end JobAdmission
