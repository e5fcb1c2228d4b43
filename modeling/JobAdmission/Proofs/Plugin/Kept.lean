/-
What leaves a part of an environment alone. The quota plugin acts on its ledger and on nothing
else, and a pipeline changes the ledger by the quota plugin only, if its other plugins leave the
ledger alone.
-/
import JobAdmission.Plugin.InTree
import JobAdmission.Plugin.Pipeline
import JobAdmission.Proofs.Quota.Amounts

namespace JobAdmission

variable {E S α β : Type}

namespace Slot

/-- A part that is read as it was written. -/
def Lawful (slot : Slot E S) : Prop := ∀ part env, slot.get (slot.set part env) = part

/-- An action that leaves the part alone. -/
def Kept (slot : Slot E S) (m : StateM E α) : Prop := ∀ env, slot.get (m env).2 = slot.get env

theorem kept_pure (slot : Slot E S) (a : α) : slot.Kept (pure a) := fun _ => rfl

theorem Kept.bind {slot : Slot E S} {m : StateM E α} {k : α → StateM E β} (h : slot.Kept m)
    (hk : ∀ a, slot.Kept (k a)) : slot.Kept (m >>= k) := fun env =>
  (hk _ _).trans (h env)

end Slot

/-- The reservation of the quota plugin over a ledger. -/
def QuotaPlugin.booking (slot : LedgerSlot E) : Reservation E :=
  { reserve := QuotaPlugin.reserve slot, unreserve := QuotaPlugin.unreserve slot }

namespace Pipeline

variable {slot : LedgerSlot E}

theorem kept_askInTurn {part : Slot E S} {asks : List (Consultation E)}
    (h : ∀ ask ∈ asks, ∀ c, part.Kept (ask c)) (c : Candidate) : part.Kept (askInTurn asks c) := by
  induction asks with
  | nil => exact part.kept_pure _
  | cons ask rest ih =>
    refine (h ask List.mem_cons_self c).bind fun v => ?_
    split
    · exact ih fun ask hm => h ask (List.mem_cons_of_mem _ hm)
    · exact part.kept_pure _

/-- How many of the asked accept before one refuses. -/
def acceptedBy : List (Consultation E) → Candidate → E → Nat
  | [], _, _ => 0
  | ask :: rest, c, env =>
    if (ask c env).1.isSuccess then acceptedBy rest c (ask c env).2 + 1 else 0

/-- Whether the reservation of a place is that of the quota plugin over a ledger. -/
def QuotaAt (slot : LedgerSlot E) (rs : List (String × Reservation E)) (place : Nat) : Prop :=
  ∃ name, rs[place]? = some (name, QuotaPlugin.booking slot)

/-- Reservations that leave a ledger alone, but for those of the quota plugin over it. -/
def Guards (slot : LedgerSlot E) (rs : List (String × Reservation E)) : Prop :=
  ∀ r ∈ rs, r.2 = QuotaPlugin.booking slot ∨
    (∀ c, slot.Kept (r.2.reserve c)) ∧ ∀ c, slot.Kept (r.2.unreserve c)

theorem askInTurn_cons (ask : Consultation E) (rest : List (Consultation E)) (c : Candidate)
    (env : E) :
    askInTurn (ask :: rest) c env =
      if (ask c env).1.isSuccess then askInTurn rest c (ask c env).2
      else ((ask c env).1, (ask c env).2) := by
  show (if (ask c env).1.isSuccess then askInTurn rest c else pure (ask c env).1 : StateM E Verdict)
    (ask c env).2 = _
  split <;> rfl

/-- The quota plugin has one of the first places of a list if it has the first, or one of those
after it. -/
theorem quotaAt_cons {r : String × Reservation E} {rest : List (String × Reservation E)} {k : Nat} :
    (∃ i < k + 1, QuotaAt slot (r :: rest) i) ↔
      r.2 = QuotaPlugin.booking slot ∨ ∃ i < k, QuotaAt slot rest i := by
  constructor
  · rintro ⟨_ | i, hi, name, e⟩
    · cases e
      exact .inl rfl
    · exact .inr ⟨i, Nat.lt_of_succ_lt_succ hi, name, e⟩
  · rintro (e | ⟨i, hi, h⟩)
    · exact ⟨0, Nat.succ_pos k, r.1, by rw [← e]; rfl⟩
    · exact ⟨i + 1, Nat.succ_lt_succ hi, h⟩

theorem isSuccess_booking (slot : LedgerSlot E) (c : Candidate) (env : E) :
    ((QuotaPlugin.booking slot).reserve c env).1.isSuccess = !(slot.get env).isReserved c.key :=
  Ledger.isSuccess_reserve (slot.get env) c

/-- The ledger after the first `n` reservations accepted a candidate: if the quota plugin is one of
them the candidate is entered, whose key was free, and otherwise the ledger is as before. -/
def Entered (slot : LedgerSlot E) (rs : List (String × Reservation E)) (c : Candidate) (n : Nat)
    (before after : Ledger) : Prop :=
  (∃ i < n, QuotaAt slot rs i) ∧ before.isReserved c.key = false ∧ after = (before.reserve c).2 ∨
    (¬ ∃ i < n, QuotaAt slot rs i) ∧ after = before

/-- The ledger after all reservations were told to give a candidate back. -/
def Struck (slot : LedgerSlot E) (rs : List (String × Reservation E)) (c : Candidate)
    (before after : Ledger) : Prop :=
  (∃ i < rs.length, QuotaAt slot rs i) ∧ after = before.unreserve c ∨
    (¬ ∃ i < rs.length, QuotaAt slot rs i) ∧ after = before

theorem entered_reserve (law : slot.Lawful) {rs : List (String × Reservation E)}
    (guards : Guards slot rs) (c : Candidate) (env : E) :
    Entered slot rs c (acceptedBy (rs.map (·.2.reserve)) c env) (slot.get env)
      (slot.get (askInTurn (rs.map (·.2.reserve)) c env).2) := by
  unfold Entered
  induction rs generalizing env with
  | nil => exact .inr ⟨fun ⟨i, hi, _⟩ => absurd hi (Nat.not_lt_zero i), rfl⟩
  | cons r rest ih =>
    rw [List.map_cons, askInTurn_cons]
    unfold acceptedBy
    -- the first reservation is that of the quota plugin, or it leaves the ledger alone
    have entered : r.2 = QuotaPlugin.booking slot →
        slot.get (r.2.reserve c env).2 = ((slot.get env).reserve c).2 := by
      intro quota
      rw [quota]
      exact law _ env
    have success : r.2 = QuotaPlugin.booking slot →
        (r.2.reserve c env).1.isSuccess = !(slot.get env).isReserved c.key := by
      intro quota
      rw [quota]
      exact isSuccess_booking slot c env
    have kept : r.2 ≠ QuotaPlugin.booking slot →
        slot.get (r.2.reserve c env).2 = slot.get env := by
      intro other
      rcases guards r List.mem_cons_self with quota | alone
      · exact absurd quota other
      · exact alone.1 c env
    split
    · rename_i accepted
      rw [quotaAt_cons]
      specialize ih (fun r hr => guards r (List.mem_cons_of_mem _ hr)) (r.2.reserve c env).2
      by_cases quota : r.2 = QuotaPlugin.booking slot
      · -- the key is taken from here on, so no later place of the plugin accepts
        rw [success quota, Bool.not_eq_true'] at accepted
        rw [entered quota] at ih
        obtain ⟨_, free, _⟩ | ⟨_, after⟩ := ih
        · rw [Ledger.isReserved_reserve, beq_self_eq_true, Bool.true_or] at free
          cases free
        · exact .inl ⟨.inl quota, accepted, after⟩
      · rw [kept quota] at ih
        exact ih.imp (fun h => ⟨.inr h.1, h.2⟩) fun h => ⟨fun h' => h'.elim quota h.1, h.2⟩
    · rename_i refused
      refine .inr ⟨fun ⟨i, hi, _⟩ => absurd hi (Nat.not_lt_zero i), ?_⟩
      by_cases quota : r.2 = QuotaPlugin.booking slot
      · rw [success quota, Bool.not_eq_true', Bool.not_eq_false] at refused
        rw [entered quota, Ledger.reserve_of_reserved refused]
      · exact kept quota

theorem unreserve_unreserve (l : Ledger) (c : Candidate) :
    (l.unreserve c).unreserve c = l.unreserve c := by
  apply Ledger.unreserve_of_free
  rw [Ledger.isReserved_unreserve]
  simp

theorem struck_unreserve (law : slot.Lawful) {rs : List (String × Reservation E)}
    (guards : Guards slot rs) (c : Candidate) (env : E) :
    Struck slot rs c (slot.get env) (slot.get (askAll (rs.map (·.2.unreserve)) c env).2) := by
  unfold Struck
  induction rs generalizing env with
  | nil => exact .inr ⟨fun ⟨i, hi, _⟩ => absurd hi (Nat.not_lt_zero i), rfl⟩
  | cons r rest ih =>
    rw [List.length_cons, quotaAt_cons]
    specialize ih (fun r hr => guards r (List.mem_cons_of_mem _ hr)) (r.2.unreserve c env).2
    by_cases quota : r.2 = QuotaPlugin.booking slot
    · -- a second return of the same key finds none
      have struck : slot.get (r.2.unreserve c env).2 = (slot.get env).unreserve c := by
        rw [quota]
        exact law _ env
      refine .inl ⟨.inl quota, ?_⟩
      rw [struck] at ih
      obtain ⟨_, after⟩ | ⟨_, after⟩ := ih
      · exact after.trans (unreserve_unreserve _ c)
      · exact after
    · have kept : slot.get (r.2.unreserve c env).2 = slot.get env := by
        rcases guards r List.mem_cons_self with quota' | alone
        · exact absurd quota' quota
        · exact alone.2 c env
      rw [kept] at ih
      exact ih.imp (fun h => ⟨.inr h.1, h.2⟩) fun h => ⟨fun h' => h'.elim quota h.1, h.2⟩

end Pipeline

end JobAdmission
