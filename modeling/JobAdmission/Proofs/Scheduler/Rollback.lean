/-
What a cycle that ends in a retry leaves behind. A candidate that gets no slot has all its
reservations given back; one that a filter refuses has none. But a reservation that is refused
leaves those before it as they are, so such a cycle is undone exactly if nothing was accepted
before the refusal, and the ledger of the quota plugin is as before exactly if the quota plugin did
not accept before one.
-/
import JobAdmission.Proofs.Queue.Contents
import JobAdmission.Proofs.Scheduler.Course
import JobAdmission.Proofs.Site

namespace JobAdmission

variable {E : Type}

namespace Scheduling

open Asked Pipeline

/-! ## From a candidate to its outcome -/

/-- The way of one candidate through a cycle, which waits for a slot as long as it takes. While it
waits the scheduler is otherwise free to change, within what `keeps` says of the environment. -/
inductive ScheduleOne (w : Wiring E) (keeps : E → E → Prop) :
    SchedulerState E → Outcome → List Asked → SchedulerState E → Prop where
  | ends (s : SchedulerState E) (h : (cycle w s).1 ≠ .blocked) :
      ScheduleOne w keeps s (cycle w s).1 (asked w s) (cycle w s).2
  | waits (s u : SchedulerState E) (o : Outcome) (calls : List Asked) (t : SchedulerState E)
      (h : (cycle w s).1 = .blocked) (same : u.suspended = (cycle w s).2.suspended)
      (meanwhile : keeps (cycle w s).2.env u.env) (rest : ScheduleOne w keeps u o calls t) :
      ScheduleOne w keeps s o (asked w s ++ calls) t

/-- A wiring in which the ledger is changed by the quota plugin over it alone, in a time in which
nobody else changes it. -/
structure Quiet (w : Wiring E) (keeps : E → E → Prop) (slot : LedgerSlot E) : Prop
    extends w.Guards slot where
  kept : ∀ a b, keeps a b → slot.get b = slot.get a

section

variable {w : Wiring E} {keeps : E → E → Prop} {c : Candidate} {s t : SchedulerState E}
  {o : Outcome} {calls : List Asked} {slot : LedgerSlot E}

/-- A candidate that holds its reservations and is retried in the end has been given back by all
of them. -/
theorem ScheduleOne.of_held (slot : LedgerSlot E) (run : ScheduleOne w keeps s o calls t)
    {ticket : Option Nat} (held : s.suspended = some ⟨c, ticket⟩) (retrying : o = .retrying) :
    calls = returned c 0 w.pipeline.reservations.length ∧
      (Quiet w keeps slot →
        Struck slot w.pipeline.reservations c (slot.get s.env) (slot.get t.env)) := by
  -- every wait ends in the same suspension, so the induction is on the number of waits
  induction run generalizing ticket with
  | ends s h =>
    have course := resume_course (w := w) held
    rw [retrying] at course
    generalize asked w s = calls, (cycle w s).2 = t at course
    cases course with
    | undone _ left =>
      refine ⟨rfl, fun quiet => ?_⟩
      rw [left, quiet.get]
      exact struck_unreserve quiet.lawful quiet.reservations c s.env
  | waits s u o calls t h same meanwhile _ ih =>
    have course := resume_course (w := w) held
    rw [h] at course
    generalize asked w s = first, (cycle w s).2 = v at course same meanwhile
    cases course with
    | blocked _ env suspended =>
      obtain ⟨ticket', suspended⟩ := suspended
      obtain ⟨hc, hl⟩ := ih (same.trans suspended) retrying
      refine ⟨hc, fun quiet => ?_⟩
      rw [← env, ← quiet.kept _ _ meanwhile]
      exact hl quiet

/-- What a retry in the end leaves of a candidate: nothing if a filter refused it, what was
accepted before the refusal of a reservation, and after a refused dispatch all acceptances with
all returns. -/
inductive Retreat (w : Wiring E) (keeps : E → E → Prop) (s t : SchedulerState E) :
    List Asked → Prop where
  | unfiltered (ledger : ∀ slot, Quiet w keeps slot → slot.get t.env = slot.get s.env) :
      Retreat w keeps s t []
  | refused (c : Candidate) (queues : QueueSet) (pop : s.queues.popNext = some (c, queues))
      (k : Nat) (early : k < w.pipeline.reservations.length)
      (ledger : ∀ slot, Quiet w keeps slot →
        Entered slot w.pipeline.reservations c k (slot.get s.env) (slot.get t.env)) :
      Retreat w keeps s t (accepted c 0 k ++ [.reserve k c false])
  | undone (c : Candidate) (queues : QueueSet) (pop : s.queues.popNext = some (c, queues))
      (ledger : ∀ slot, Quiet w keeps slot → ∃ between,
        Entered slot w.pipeline.reservations c w.pipeline.reservations.length (slot.get s.env)
          between ∧
        Struck slot w.pipeline.reservations c between (slot.get t.env)) :
      Retreat w keeps s t (accepted c 0 w.pipeline.reservations.length ++
        returned c 0 w.pipeline.reservations.length)

/-- The filters leave the ledger alone, so the reservations find it as the cycle did. -/
theorem entered_filtered {env : E} (guards : w.Guards slot)
    (filter : env = (w.pipeline.filter c s.env).2) {k : Nat}
    (stop : k = acceptedBy (w.pipeline.reservations.map (·.2.reserve)) c env) :
    Entered slot w.pipeline.reservations c k (slot.get s.env)
      (slot.get (w.pipeline.reserve c env).2) := by
  have entered := entered_reserve guards.lawful guards.reservations c env
  have same : slot.get env = slot.get s.env := by rw [filter, guards.filter]
  rw [same, ← stop] at entered
  exact entered

theorem ScheduleOne.retreat (run : ScheduleOne w keeps s o calls t) (free : s.suspended = none)
    (retrying : o = .retrying) : Retreat w keeps s t calls := by
  cases run with
  | ends h =>
    have course := start_course (w := w) free
    rw [retrying] at course
    generalize asked w s = calls, (cycle w s).2 = t at course
    cases course with
    | unfiltered c queues pop _ left =>
      refine .unfiltered fun slot quiet => ?_
      rw [left, quiet.get, quiet.toGuards.filter]
    | refused c queues pop env filter k stop early _ left =>
      refine .refused c queues pop k early fun slot quiet => ?_
      rw [left, quiet.get]
      exact entered_filtered quiet.toGuards filter stop
    | held c queues pop env filter all _ _ _ course =>
      cases course with
      | undone _ left =>
        refine .undone c queues pop fun slot quiet =>
          ⟨_, entered_filtered quiet.toGuards filter all, ?_⟩
        rw [left, quiet.get]
        exact struck_unreserve quiet.lawful quiet.reservations c _
  | waits _ u _ calls _ h same meanwhile rest =>
    have course := start_course (w := w) free
    rw [h] at course
    generalize asked w s = first, (cycle w s).2 = v at course same meanwhile
    cases course with
    | held c queues pop env filter all _ _ _ course =>
      cases course with
      | blocked _ left suspended =>
        obtain ⟨ticket, suspended⟩ := suspended
        have later := fun slot => ScheduleOne.of_held slot rest (same.trans suspended) retrying
        rw [List.append_nil, (later ⟨fun _ => .empty, fun _ env => env⟩).1]
        refine .undone c queues pop fun slot quiet =>
          ⟨_, entered_filtered quiet.toGuards filter all, ?_⟩
        rw [← left, ← quiet.kept _ _ meanwhile]
        exact (later slot).2 quiet

end

/-! ## Rolled back or not -/

/-- Whoever accepted a candidate was told to give it back afterwards. -/
def RolledBack (calls : List Asked) : Prop :=
  ∀ before place c after, calls = before ++ .reserve place c true :: after →
    .unreserve place c ∈ after

theorem rolledBack_undone (c : Candidate) (n : Nat) :
    RolledBack (accepted c 0 n ++ returned c 0 n) := by
  intro before place c' after e
  -- the acceptance is not among the returns
  rcases List.append_eq_append_iff.1 e with ⟨between, _, e'⟩ | ⟨between, e', e''⟩
  · have hm : Asked.reserve place c' true ∈ returned c 0 n := by
      rw [e']
      exact List.mem_append_right _ List.mem_cons_self
    obtain ⟨_, _, h⟩ := mem_returned.1 hm
    cases h
  · rcases between with _ | ⟨x, between⟩
    · have hm : Asked.reserve place c' true ∈ returned c 0 n := by
        rw [← List.nil_append (returned c 0 n), ← e'']
        exact List.mem_cons_self
      obtain ⟨_, _, h⟩ := mem_returned.1 hm
      cases h
    · obtain ⟨rfl, rfl⟩ := List.cons.inj e''
      have hm : Asked.reserve place c' true ∈ accepted c 0 n := by
        rw [e']
        exact List.mem_append_right _ List.mem_cons_self
      obtain ⟨i, hi, h⟩ := mem_accepted.1 hm
      cases h
      exact List.mem_append_right _ (mem_returned.2 ⟨_, hi, rfl⟩)

theorem not_rolledBack_refused (c : Candidate) {k : Nat} (hk : 0 < k) :
    ¬ RolledBack (accepted c 0 k ++ [.reserve k c false]) := by
  intro rolled
  obtain ⟨k, rfl⟩ := Nat.exists_eq_succ_of_ne_zero (Nat.ne_of_gt hk)
  have hm := rolled [] 0 c (accepted c 1 k ++ [.reserve (k + 1) c false]) rfl
  rcases List.mem_append.1 hm with h | h
  · unfold accepted at h
    obtain ⟨_, _, h⟩ := List.mem_map.1 h
    cases h
  · cases List.mem_singleton.1 h

/-- In the calls of a cycle, a candidate was accepted by a reservation that satisfies `p`, and
refused by one. -/
def HalfWay (p : Nat → Prop) (calls : List Asked) : Prop :=
  (∃ place c, p place ∧ .reserve place c true ∈ calls) ∧
    ∃ place c, .reserve place c false ∈ calls

theorem halfWay_refused {p : Nat → Prop} {c : Candidate} {k : Nat} :
    HalfWay p (accepted c 0 k ++ [.reserve k c false]) ↔ ∃ i < k, p i := by
  constructor
  · rintro ⟨⟨place, c', hp, hm⟩, _⟩
    rcases List.mem_append.1 hm with h | h
    · obtain ⟨i, hi, h⟩ := mem_accepted.1 h
      cases h
      exact ⟨_, hi, hp⟩
    · cases List.mem_singleton.1 h
  · rintro ⟨i, hi, hp⟩
    exact ⟨⟨i, c, hp, List.mem_append_left _ (mem_accepted.2 ⟨i, hi, rfl⟩)⟩, k, c,
      List.mem_append_right _ List.mem_cons_self⟩

theorem not_halfWay_undone (p : Nat → Prop) (c : Candidate) (n : Nat) :
    ¬ HalfWay p (accepted c 0 n ++ returned c 0 n) := by
  rintro ⟨_, place, c', hm⟩
  rcases List.mem_append.1 hm with h | h
  · obtain ⟨_, _, h⟩ := mem_accepted.1 h
    cases h
  · obtain ⟨_, _, h⟩ := mem_returned.1 h
    cases h

/-- When a candidate is retried in the end, everybody who accepted it has been told to give it
back exactly if no reservation was refused after others had accepted. The ledger of a quota plugin
agrees with the one before exactly if the quota plugin is none of these others. -/
theorem rolledBack_iff_not_halfWay {w : Wiring E} {keeps : E → E → Prop} {s t : SchedulerState E}
    {calls : List Asked} (free : s.suspended = none)
    (run : ScheduleOne w keeps s .retrying calls t) :
    (RolledBack calls ↔ ¬ HalfWay (fun _ => True) calls) ∧
      ∀ slot, Quiet w keeps slot → (slot.get s.env).InRange →
        (∀ c queues, s.queues.popNext = some (c, queues) → c.job.resources.Nonneg ∧
          ∀ ns resource, Quantity.Fits ((slot.get s.env).total ns resource + c.asks ns resource)) →
        ((slot.get s.env).Agrees (slot.get t.env) ↔
          ¬ HalfWay (QuotaAt slot w.pipeline.reservations) calls) := by
  cases run.retreat free rfl with
  | unfiltered ledger =>
    have none : ∀ p, ¬ HalfWay p [] := fun p ⟨⟨_, _, _, hm⟩, _⟩ => by cases hm
    refine ⟨iff_of_true (fun before _ _ _ e => ?_) (none _), fun slot quiet _ _ => ?_⟩
    · cases before <;> cases e
    · rw [ledger slot quiet]
      exact iff_of_true ⟨fun _ => rfl, fun _ _ => rfl⟩ (none _)
  | refused c queues pop k early ledger =>
    refine ⟨?_, fun slot quiet _ _ => ?_⟩
    · rw [halfWay_refused]
      rcases Nat.eq_zero_or_pos k with rfl | hk
      · refine iff_of_true (fun before place c' after e => ?_) fun ⟨i, hi, _⟩ =>
          absurd hi (Nat.not_lt_zero i)
        rcases before with _ | ⟨_, _ | _⟩ <;> cases e
      · exact iff_of_false (not_rolledBack_refused c hk) fun h => h ⟨0, hk, trivial⟩
    · rw [halfWay_refused]
      rcases ledger slot quiet with ⟨quota, unheld, after⟩ | ⟨quota, after⟩
      · rw [after]
        exact iff_of_false (Ledger.not_agrees_reserve unheld) (not_not_intro quota)
      · rw [after]
        exact iff_of_true ⟨fun _ => rfl, fun _ _ => rfl⟩ quota
  | undone c queues pop ledger =>
    refine ⟨iff_of_true (rolledBack_undone c _) (not_halfWay_undone _ c _),
      fun slot quiet range request => iff_of_true ?_ (not_halfWay_undone _ c _)⟩
    obtain ⟨nonneg, fits⟩ := request c queues pop
    -- the quota plugin has a place in the list, and both entered and struck the candidate, or not
    obtain ⟨between, ⟨quota, unheld, entered⟩ | ⟨quota, entered⟩, struck⟩ := ledger slot quiet
    · obtain ⟨_, struck⟩ | ⟨none, _⟩ := struck
      · rw [struck, entered]
        exact Ledger.agrees_undone range nonneg unheld fits
      · exact absurd quota none
    · obtain ⟨some, _⟩ | ⟨_, struck⟩ := struck
      · exact absurd some quota
      · rw [struck, entered]
        exact ⟨fun _ => rfl, fun _ _ => rfl⟩

end Scheduling

/-! ## A quota plugin before a gate -/

namespace Site

/-- The reservations of the quota plugin and of a gate, and no filter. -/
def gated : Wiring Site where
  pipeline := {
    queueOrder := (Priority.name, Priority.queueOrder)
    jobOrders := .empty
    filters := []
    reservations := [(QuotaPlugin.name, QuotaPlugin.booking sharedLedger),
      ("G", {
        reserve := fun c => gateSlot.act (GateBook.ask "G" .reserve c)
        unreserve := fun c => gateSlot.act (GateBook.ask "G" .unreserve c) })] }
  client := client
  routes := none
  idleEvery := 0

theorem quiet_gated : Scheduling.Quiet gated (· = ·) sharedLedger where
  lawful := lawful_sharedLedger
  filters := fun _ h => by cases h
  reservations := by
    intro r hr
    rcases List.mem_cons.1 hr with rfl | hr
    · exact .inl rfl
    · rw [List.mem_singleton.1 hr]
      exact .inr ⟨fun _ => kept_gate _, fun _ => kept_gate _⟩
  get := kept_read
  kept := fun _ _ h => by rw [h]

/-- A site at which one candidate is ready, with what the gate answers to a reservation. -/
def beforeGate (reserve : Verdict) (dispatcher : Dispatcher Candidate) : SchedulerState Site where
  now := 0
  queues := .holding (.wanting "x" 2)
  dispatcher := dispatcher
  suspended := none
  turn := none
  stopped := false
  trail := none
  env := { empty with gates := GateBook.empty.enter "G" { GateAnswers.standard with reserve } }

end Site

namespace Scheduling

open Asked Site

/-- Both reservations accept, and with the dispatcher closed both are told to give back. -/
theorem rolledBack_when_closed :
    ∃ calls t, ScheduleOne gated (· = ·) (beforeGate .success (Dispatcher.new 1).close) .retrying
        calls t ∧ RolledBack calls ∧ Ledger.empty.Agrees t.env.ledger := by
  obtain ⟨queues, pop⟩ := QueueSet.popNext_holding (.wanting "x" 2)
  have outcome : (cycle gated (beforeGate .success (Dispatcher.new 1).close)).1 = .retrying := by
    rw [cycle_of_pop rfl pop]; rfl
  have calls : asked gated (beforeGate .success (Dispatcher.new 1).close) =
      accepted (.wanting "x" 2) 0 2 ++ returned (.wanting "x" 2) 0 2 := by
    unfold asked
    rw [cycle_of_pop rfl pop]
    rfl
  have run : ScheduleOne gated (· = ·) (beforeGate .success (Dispatcher.new 1).close) _ _ _ :=
    .ends _ (by rw [outcome]; decide)
  rw [outcome, calls] at run
  obtain ⟨rolled, agrees⟩ := rolledBack_iff_not_halfWay rfl run
  refine ⟨_, _, run, rolled.2 (not_halfWay_undone _ _ _),
    (agrees sharedLedger quiet_gated Ledger.inRange_empty ?_).2 (not_halfWay_undone _ _ _)⟩
  intro c queues' pop'
  cases pop.symm.trans pop'
  refine ⟨by decide, fun ns resource => ?_⟩
  show Quantity.Fits (0 + _)
  rw [Candidate.asks_wanting]
  split <;> decide

/-- The quota plugin accepts, the gate refuses, and the quota plugin is not told. -/
theorem reservation_left_by_refusal :
    ∃ calls t, ScheduleOne gated (· = ·) (beforeGate ⟨.unschedulable, ""⟩ (.new 1)) .retrying
        calls t ∧ ¬ RolledBack calls ∧ t.env.ledger.isReserved "n/x" = true := by
  obtain ⟨queues, pop⟩ := QueueSet.popNext_holding (.wanting "x" 2)
  have outcome : (cycle gated (beforeGate ⟨.unschedulable, ""⟩ (.new 1))).1 = .retrying := by
    rw [cycle_of_pop rfl pop]; rfl
  have calls : asked gated (beforeGate ⟨.unschedulable, ""⟩ (.new 1)) =
      accepted (.wanting "x" 2) 0 1 ++ [.reserve 1 (.wanting "x" 2) false] := by
    unfold asked
    rw [cycle_of_pop rfl pop]
    rfl
  have run : ScheduleOne gated (· = ·) (beforeGate ⟨.unschedulable, ""⟩ (.new 1)) _ _ _ :=
    .ends _ (by rw [outcome]; decide)
  rw [outcome, calls] at run
  refine ⟨_, _, run, not_rolledBack_refused _ Nat.one_pos, ?_⟩
  rw [cycle_of_pop rfl pop]
  rfl

end Scheduling

end JobAdmission
