/-
What a cycle asks of the plugins, call by call. Each course of a cycle has its list of calls: the
reservations accepted in turn, and after a refused dispatch the returns of all of them.
-/
import JobAdmission.Proofs.Plugin.Kept
import JobAdmission.Proofs.Scheduler.Exits
import JobAdmission.Proofs.Scheduler.Trace

namespace JobAdmission

variable {E : Type}

/-! ## What is noted down -/

namespace Asked

/-- Acceptances at so many places from the given one on. -/
def accepted (c : Candidate) (place n : Nat) : List Asked :=
  (List.range' place n).map (.reserve · c true)

/-- Returns at so many places from the given one on. -/
def returned (c : Candidate) (place n : Nat) : List Asked :=
  (List.range' place n).map (.unreserve · c)

theorem accepted_succ (c : Candidate) (place n : Nat) :
    accepted c place (n + 1) = .reserve place c true :: accepted c (place + 1) n := rfl

theorem returned_succ (c : Candidate) (place n : Nat) :
    returned c place (n + 1) = .unreserve place c :: returned c (place + 1) n := rfl

theorem mem_accepted {c : Candidate} {a : Asked} {n : Nat} :
    a ∈ accepted c 0 n ↔ ∃ i < n, a = .reserve i c true := by
  unfold accepted
  simp only [List.mem_map, List.mem_range'_1, Nat.zero_add, Nat.zero_le, true_and, eq_comm]

theorem mem_returned {c : Candidate} {a : Asked} {n : Nat} :
    a ∈ returned c 0 n ↔ ∃ i < n, a = .unreserve i c := by
  unfold returned
  simp only [List.mem_map, List.mem_range'_1, Nat.zero_add, Nat.zero_le, true_and, eq_comm]

end Asked

namespace Pipeline

open Asked

/-- The calls noted down by reservations asked in turn: acceptances, and a refusal if there is
one. -/
theorem noted_reserve (rs : List (String × Reservation E)) (place : Nat) (c : Candidate)
    (env : E × List Asked) :
    let k := acceptedBy (rs.map (·.2.reserve)) c env.1
    let r := askInTurn ((tracedFrom place rs).map (·.2.reserve)) c env
    r.1.isSuccess = true ∧ k = rs.length ∧ r.2.2 = env.2 ++ accepted c place k ∨
      r.1.isSuccess = false ∧ k < rs.length ∧
        r.2.2 = env.2 ++ accepted c place k ++ [.reserve (place + k) c false] := by
  -- each reservation notes down its own place, so the places go up along the list
  induction rs generalizing place env with
  | nil => exact .inl ⟨rfl, rfl, (List.append_nil _).symm⟩
  | cons r rest ih =>
    unfold tracedFrom acceptedBy
    rw [List.map_cons, List.map_cons, askInTurn_cons]
    dsimp only at ih ⊢
    have verdict : ((r.2.traced place).reserve c env).1 = (r.2.reserve c env.1).1 := rfl
    have noted : ((r.2.traced place).reserve c env).2.2 =
      env.2 ++ [.reserve place c (r.2.reserve c env.1).1.isSuccess] := rfl
    rw [verdict]
    cases pass : (r.2.reserve c env.1).1.isSuccess with
    | false =>
      rw [if_neg Bool.false_ne_true, if_neg Bool.false_ne_true]
      refine .inr ⟨pass, Nat.succ_pos _, ?_⟩
      show ((r.2.traced place).reserve c env).2.2 = _
      rw [noted, pass]
      simp [accepted]
    | true =>
      rw [if_pos rfl, if_pos rfl, List.length_cons]
      have next := ih (place + 1) ((r.2.traced place).reserve c env).2
      have same : ((r.2.traced place).reserve c env).2.1 = (r.2.reserve c env.1).2 := rfl
      rw [noted, pass, same] at next
      refine next.imp ?_ ?_
      · rintro ⟨hs, hk, hl⟩
        exact ⟨hs, by rw [hk], by rw [hl]; simp [accepted_succ]⟩
      · rintro ⟨hs, hk, hl⟩
        refine ⟨hs, Nat.succ_lt_succ hk, ?_⟩
        rw [hl]
        simp [accepted_succ, Nat.add_assoc, Nat.add_comm 1]

theorem noted_unreserve (rs : List (String × Reservation E)) (place : Nat) (c : Candidate)
    (env : E × List Asked) :
    (askAll ((tracedFrom place rs).map (·.2.unreserve)) c env).2.2 =
      env.2 ++ returned c place rs.length := by
  induction rs generalizing place env with
  | nil => exact (List.append_nil _).symm
  | cons r rest ih =>
    unfold tracedFrom
    rw [List.map_cons]
    show (askAll _ c ((r.2.traced place).unreserve c env).2).2.2 = _
    rw [ih]
    show (env.2 ++ [.unreserve place c]) ++ _ = _
    simp [returned_succ]

theorem noted_filter (p : Pipeline E) (c : Candidate) (env : E × List Asked) :
    (p.traced.filter c env).2.2 = env.2 := by
  -- the notes are a part of the environment that no filter touches
  refine @kept_askInTurn _ _ ⟨Prod.snd, fun log env => (env.1, log)⟩ _ ?_ c env
  intro ask hm c env
  obtain ⟨f, hf, rfl⟩ := List.mem_map.1 hm
  obtain ⟨g, _, rfl⟩ := List.mem_map.1 hf
  rfl

end Pipeline

/-- A wiring in which the ledger is changed by the quota plugin over it alone. -/
structure Wiring.Guards (w : Wiring E) (slot : LedgerSlot E) : Prop where
  lawful : slot.Lawful
  filters : ∀ f ∈ w.pipeline.filters, ∀ c, slot.Kept (f.2 c)
  reservations : Pipeline.Guards slot w.pipeline.reservations
  get : ∀ ns name, slot.Kept (w.client.get ns name)

namespace Wiring.Guards

variable {w : Wiring E} {slot : LedgerSlot E}

theorem filter (h : w.Guards slot) (c : Candidate) : slot.Kept (w.pipeline.filter c) := by
  refine Pipeline.kept_askInTurn ?_ c
  intro ask hm c
  obtain ⟨f, hf, rfl⟩ := List.mem_map.1 hm
  exact h.filters f hf c

end Wiring.Guards

namespace Scheduling

open Asked Pipeline

/-- The calls of reservations in one cycle. -/
def asked (w : Wiring E) (s : SchedulerState E) : List Asked := (cycle w.traced s.traced).2.env.2

/-! ## One cycle -/

section

variable {w : Wiring E} {c : Candidate} {o : Outcome}

theorem cycle_eq (w : Wiring E) (s : SchedulerState E) :
    cycle w s = ((cycle w.traced s.traced).1, (cycle w.traced s.traced).2.plain) :=
  simulates_cycle w s.traced

theorem Retried.noted {s t : SchedulerState (E × List Asked)} (h : Retried w.traced c s t) :
    t.env.1 = (w.client.get c.job.ns c.job.name s.env.1).2 ∧ t.env.2 = s.env.2 := by
  rw [h.env]
  exact ⟨rfl, rfl⟩

/-- How a cycle goes on whose candidate holds its reservations: the calls from there on, and the
environment it leaves. -/
inductive HeldCourse (w : Wiring E) (c : Candidate) (env : E) :
    Outcome → List Asked → SchedulerState E → Prop where
  | confirming (t : SchedulerState E) (same : t.env = env) : HeldCourse w c env .confirming [] t
  | blocked (t : SchedulerState E) (same : t.env = env)
      (suspended : ∃ ticket, t.suspended = some ⟨c, ticket⟩) : HeldCourse w c env .blocked [] t
  | undone (t : SchedulerState E)
      (left : t.env = (w.client.get c.job.ns c.job.name (w.pipeline.unreserve c env).2).2) :
      HeldCourse w c env .retrying (returned c 0 w.pipeline.reservations.length) t

theorem held_course {s t : SchedulerState (E × List Asked)} (h : DispatchExit w.traced c s o t) :
    ∃ calls, t.env.2 = s.env.2 ++ calls ∧ HeldCourse w c s.env.1 o calls t.plain := by
  cases h with
  | blocked _ env _ _ _ suspended =>
    refine ⟨[], ?_, .blocked _ (congrArg Prod.fst env) suspended⟩
    rw [env, List.append_nil]
  | confirming _ env =>
    refine ⟨[], ?_, .confirming _ (congrArg Prod.fst env)⟩
    rw [env, List.append_nil]
  | undone u _ env _ _ _ _ retried =>
    obtain ⟨plain, log⟩ := Retried.noted retried
    refine ⟨_, ?_, .undone _ ?_⟩
    · rw [log, env]
      exact noted_unreserve _ 0 c s.env
    · show t.env.1 = _
      have same : (w.pipeline.unreserve c s.env.1).2 = u.env.1 := by
        rw [simulates_unreserve w.pipeline c s.env, env]
        rfl
      rw [plain, same]

/-- How a cycle goes on that takes a candidate from the queues. -/
inductive StartCourse (w : Wiring E) (s : SchedulerState E) :
    Outcome → List Asked → SchedulerState E → Prop where
  | idle (t : SchedulerState E) : StartCourse w s .idle [] t
  | unfiltered (c : Candidate) (queues : QueueSet) (pop : s.queues.popNext = some (c, queues))
      (t : SchedulerState E)
      (left : t.env = (w.client.get c.job.ns c.job.name (w.pipeline.filter c s.env).2).2) :
      StartCourse w s .retrying [] t
  | refused (c : Candidate) (queues : QueueSet) (pop : s.queues.popNext = some (c, queues))
      (env : E) (filter : env = (w.pipeline.filter c s.env).2) (k : Nat)
      (stop : k = acceptedBy (w.pipeline.reservations.map (·.2.reserve)) c env)
      (early : k < w.pipeline.reservations.length) (t : SchedulerState E)
      (left : t.env = (w.client.get c.job.ns c.job.name (w.pipeline.reserve c env).2).2) :
      StartCourse w s .retrying (accepted c 0 k ++ [.reserve k c false]) t
  | held (c : Candidate) (queues : QueueSet) (pop : s.queues.popNext = some (c, queues))
      (env : E) (filter : env = (w.pipeline.filter c s.env).2)
      (all : w.pipeline.reservations.length =
        acceptedBy (w.pipeline.reservations.map (·.2.reserve)) c env)
      (o : Outcome) (calls : List Asked) (t : SchedulerState E)
      (course : HeldCourse w c (w.pipeline.reserve c env).2 o calls t) :
      StartCourse w s o (accepted c 0 w.pipeline.reservations.length ++ calls) t

theorem start_course {s : SchedulerState E} (free : s.suspended = none) :
    StartCourse w s (cycle w s).1 (asked w s) (cycle w s).2 := by
  have exit := cycle_exit w.traced s.traced
  rw [cycle_eq w s]
  unfold asked
  dsimp only
  generalize (cycle w.traced s.traced).1 = o, (cycle w.traced s.traced).2 = t at exit ⊢
  -- what the filters do beside noting nothing down
  have filtered : ∀ {c v} {env : E × List Asked},
      w.traced.pipeline.filter c s.traced.env = (v, env) →
      env.1 = (w.pipeline.filter c s.env).2 ∧ env.2 = [] := by
    intro c v env e
    have plain := simulates_filter w.pipeline c s.traced.env
    have log := noted_filter w.pipeline c s.traced.env
    change w.pipeline.filter c s.env = _ at plain
    rw [show w.pipeline.traced.filter c s.traced.env = (v, env) from e] at plain log
    exact ⟨by rw [plain], log⟩
  -- what the reservations do beside noting it down
  have reserved : ∀ {c v'} {env env' : E × List Asked},
      w.traced.pipeline.reserve c env = (v', env') →
      env'.1 = (w.pipeline.reserve c env.1).2 := by
    intro c v' env env' e
    have plain := simulates_reserve w.pipeline c env
    rw [show w.pipeline.traced.reserve c env = (v', env') from e] at plain
    rw [plain]
  have asks : ∀ {c v'} {env env' : E × List Asked}, w.traced.pipeline.reserve c env = (v', env') →
      askInTurn ((tracedFrom 0 w.pipeline.reservations).map (·.2.reserve)) c env = (v', env') :=
    fun e => e
  cases exit with
  | idle => exact .idle _
  | unfiltered _ c queues v env _ pop filter _ retried =>
    obtain ⟨plain, log⟩ := Retried.noted retried
    obtain ⟨hf, hn⟩ := filtered filter
    dsimp only at plain log
    rw [hf] at plain
    rw [log, hn]
    exact .unfiltered c queues (show s.queues.popNext = _ from pop) _ plain
  | refused _ c queues v v' env env' _ pop filter _ reserve refusal retried =>
    obtain ⟨plain, log⟩ := Retried.noted retried
    obtain ⟨hf, hn⟩ := filtered filter
    have noted := noted_reserve w.pipeline.reservations 0 c env
    dsimp only at noted
    rw [asks reserve, refusal, hn] at noted
    dsimp only at plain log noted
    rw [reserved reserve] at plain
    obtain ⟨h, _⟩ | ⟨_, early, noted⟩ := noted
    · cases h
    · rw [log, noted, List.nil_append, Nat.zero_add]
      exact .refused c queues (show s.queues.popNext = _ from pop) env.1 hf _ rfl early _ plain
  | reserved _ c queues v v' env env' _ _ pop filter _ reserve pass exit =>
    obtain ⟨hf, hn⟩ := filtered filter
    have noted := noted_reserve w.pipeline.reservations 0 c env
    dsimp only at noted
    rw [asks reserve, pass, hn] at noted
    obtain ⟨_, all, noted⟩ | ⟨h, _⟩ := noted
    · obtain ⟨calls, log, course⟩ := held_course exit
      dsimp only at noted log course
      rw [log, noted, List.nil_append, all]
      rw [reserved reserve] at course
      exact .held c queues (show s.queues.popNext = _ from pop) env.1 hf all.symm _ calls _ course
    · cases h
  | resumed c ticket held =>
    have : s.suspended = some ⟨c, ticket⟩ := held
    rw [free] at this
    cases this

theorem resume_course {s : SchedulerState E} {ticket : Option Nat}
    (held : s.suspended = some ⟨c, ticket⟩) :
    HeldCourse w c s.env (cycle w s).1 (asked w s) (cycle w s).2 := by
  have exit := cycle_exit w.traced s.traced
  rw [cycle_eq w s]
  unfold asked
  dsimp only
  generalize (cycle w.traced s.traced).1 = o, (cycle w.traced s.traced).2 = t at exit ⊢
  -- a suspended cycle does not start another
  have busy : ∀ {p : Prop}, s.traced.suspended = none → p := fun free => by
    have : s.suspended = none := free
    rw [held] at this
    cases this
  cases exit with
  | idle free => exact busy free
  | unfiltered free => exact busy free
  | refused free => exact busy free
  | reserved free => exact busy free
  | resumed c' ticket' held' _ _ exit =>
    have same : some (⟨c, ticket⟩ : Suspension) = some ⟨c', ticket'⟩ := held.symm.trans held'
    cases same
    obtain ⟨calls, log, course⟩ := held_course exit
    rw [log]
    exact course

end

end Scheduling

end JobAdmission
