/-
What an admission puts on record. A confirmation reads its job again and puts that version on
record, while the filters and the reservations were asked about the version that was queued. So an
earlier cycle checked and booked the queued version, its request is what the quota plugin has booked
under the key as long as the key is not given back, and what is put on record asks for the same
exactly if the record did not change its request in the meantime.
-/
import JobAdmission.Proofs.Scheduler.OneAdmission

namespace JobAdmission

variable {E : Type}

/-! ## Bookings last -/

/-- From one account to a later one calls are noted, and a booking under a key lasts until one of
them gives the key back. -/
def Continues (place : Nat) (key : String) (a b : Ledger × List Asked) : Prop :=
  ∃ more, b.2 = a.2 ++ more ∧ (Backed place key a → Backed place key b ∧
    ((∀ c, .unreserve place c ∈ more → c.key ≠ key) → ∀ c,
      Asked.booked place key a.2 = some c → Asked.booked place key b.2 = some c))

namespace Continues

open Asked

variable {place : Nat} {key : String} {a b d : Ledger × List Asked}

theorem refl (place : Nat) (key : String) (a : Ledger × List Asked) : Continues place key a a :=
  ⟨[], (List.append_nil _).symm, fun backed => ⟨backed, fun _ _ booked => booked⟩⟩

theorem trans (h : Continues place key a b) (h' : Continues place key b d) :
    Continues place key a d := by
  obtain ⟨more, log, lasts⟩ := h
  obtain ⟨more', log', lasts'⟩ := h'
  refine ⟨more ++ more', by rw [log', log, List.append_assoc], fun backed => ?_⟩
  obtain ⟨backed', kept⟩ := lasts backed
  obtain ⟨backed'', kept'⟩ := lasts' backed'
  refine ⟨backed'', fun unreturned c booked => ?_⟩
  exact kept' (fun c hc => unreturned c (List.mem_append_right _ hc)) c
    (kept (fun c hc => unreturned c (List.mem_append_left _ hc)) c booked)

end Continues

namespace Wiring.Books

open Asked Pipeline

variable {w : Wiring E} {slot : LedgerSlot E} {place : Nat} {key : String}

theorem continues_reserve (books : w.Books slot place) (c : Candidate) (env : E × List Asked) :
    Continues place key (slot.noted.get env)
      (slot.noted.get (w.traced.pipeline.reserve c env).2) := by
  have noted := noted_reserve w.pipeline.reservations 0 c env
  have more : ∃ more, (w.traced.pipeline.reserve c env).2.2 = env.2 ++ more := by
    rcases noted with ⟨_, _, log⟩ | ⟨_, _, log⟩
    · exact ⟨_, log⟩
    · exact ⟨_, log.trans (List.append_assoc ..)⟩
  obtain ⟨more, log⟩ := more
  refine ⟨more, log, fun backed => ?_⟩
  obtain ⟨backed', booked⟩ := books.reserve c backed
  refine ⟨backed', fun _ c' before => ?_⟩
  rcases booked with ⟨_, none, _⟩ | ⟨_, same⟩
  · cases none.symm.trans before
  · exact same.trans before

theorem continues_unreserve (books : w.Books slot place) (c : Candidate) (env : E × List Asked) :
    Continues place key (slot.noted.get env)
      (slot.noted.get (w.traced.pipeline.unreserve c env).2) := by
  refine ⟨returned c 0 w.pipeline.reservations.length,
    noted_unreserve w.pipeline.reservations 0 c env, fun backed => ?_⟩
  obtain ⟨backed', booked⟩ := books.unreserve c backed
  refine ⟨backed', fun unreturned c' before => ?_⟩
  have other : c.key ≠ key := unreturned c (mem_returned.2 ⟨place, books.place_lt, rfl⟩)
  show Asked.booked place key (w.traced.pipeline.unreserve c env).2.2 = some c'
  rw [booked, if_neg other]
  exact before

end Wiring.Books

section

variable {w : Wiring E} {slot : LedgerSlot E} {place : Nat} {key : String} {c : Candidate}
  {s t : SchedulerState (E × List Asked)}

theorem DispatchExit.continues {o : Outcome} (exit : DispatchExit w.traced c s o t)
    (books : w.Books slot place) :
    Continues place key (slot.noted.get s.env) (slot.noted.get t.env) := by
  cases exit with
  | blocked _ env => rw [env]; exact .refl place key _
  | confirming _ env => rw [env]; exact .refl place key _
  | undone u _ env _ _ _ _ retried =>
    rw [books.spares.traced.retried retried, env]
    exact books.continues_unreserve c s.env

theorem ConfirmExit.continues (exit : ConfirmExit w.traced c s t) (books : w.Books slot place) :
    Continues place key (slot.noted.get s.env) (slot.noted.get t.env) := by
  cases exit with
  | recorded admitted env env' trail ok told =>
    show Continues place key _ (slot.noted.get env')
    rw [books.spares.traced.told told, books.spares.traced.put ok]
    exact .refl place key _
  | gone e env trail failed missing =>
    rw [← books.spares.traced.put failed]
    exact books.continues_unreserve c env
  | undone e env _ failed refusal retried =>
    rw [books.spares.traced.retried retried, ← books.spares.traced.put failed]
    exact books.continues_unreserve c env

namespace Scheduling

theorem continues_cycle (books : w.Books slot place) (s : SchedulerState (E × List Asked)) :
    Continues place key (slot.noted.get s.env) (slot.noted.get (cycle w.traced s).2.env) := by
  have exit := cycle_exit w.traced s
  generalize (cycle w.traced s).1 = o, (cycle w.traced s).2 = t at exit ⊢
  cases exit with
  | idle => exact .refl place key _
  | unfiltered _ c queues v env _ _ filter _ retried =>
    rw [books.spares.traced.retried retried, books.spares.traced.filtered filter]
    exact .refl place key _
  | refused _ c queues v v' env env' _ _ filter _ reserve _ retried =>
    rw [books.spares.traced.retried retried, ← books.spares.traced.filtered filter]
    have entered : Continues place key _ _ := books.continues_reserve c env
    rw [reserve] at entered
    exact entered
  | reserved _ c queues v v' env env' _ _ _ filter _ reserve _ exit =>
    rw [← books.spares.traced.filtered filter]
    have entered : Continues place key _ _ := books.continues_reserve c env
    rw [reserve] at entered
    exact entered.trans (exit.continues books)
  | resumed c ticket held _ _ exit => exact exit.continues books

theorem continues_happen (books : w.Books slot place) {x : Happening E}
    (leaves : ∀ change, x = .world change → ∀ env, slot.get (change env) = slot.get env)
    (s : SchedulerState (E × List Asked)) :
    Continues place key (slot.noted.get s.env)
      (slot.noted.get (happen w.traced s x.traced).env) := by
  cases x with
  | job event =>
    have fed := applyJobEvent_fed w.traced event s
    show Continues place key _ (slot.noted.get (applyJobEvent w.traced event s).2.env)
    obtain env | ⟨c, env⟩ | ⟨_, c, env⟩ := fed.env
    · rw [env]; exact .refl place key _
    · rw [env]; exact books.continues_reserve c s.env
    · rw [env]; exact books.continues_unreserve c s.env
  | queue event =>
    obtain ⟨queues, same⟩ := applyQueueEvent_queues event s
    show Continues place key _ (slot.noted.get (applyQueueEvent event s).2.env)
    rw [same]
    exact .refl place key _
  | cycle => exact continues_cycle books s
  | confirm at_place =>
    show Continues place key _ (slot.noted.get (confirmAt w.traced at_place s).2.env)
    rcases confirmAt_exit w.traced at_place s with ⟨_, same⟩ | ⟨c, dispatcher, t, _, exit, same⟩
    · rw [same]; exact .refl place key _
    · rw [same]; exact exit.continues books
  | world change =>
    have same : slot.noted.get (happen w.traced s (Happening.world change).traced).env =
      slot.noted.get s.env := Prod.ext (leaves change rfl s.env.1) rfl
    rw [same]
    exact .refl place key _
  | _ => exact .refl place key _

end Scheduling

end

/-! ## Where a confirmation comes from -/

namespace Scheduling

/-- A cycle takes a candidate from its queue, the filters and all reservations accept it, and it
gets a slot or waits for one. -/
structure Cleared (w : Wiring E) (s : SchedulerState E) (c : Candidate) : Prop where
  free : s.suspended = none
  popped : ∃ queues, s.queues.popNext = some (c, queues)
  filtered : (w.pipeline.filter c s.env).1.isSuccess = true
  reserved : (w.pipeline.reserve c (w.pipeline.filter c s.env).2).1.isSuccess = true
  held : (cycle w s).1 ≠ .retrying

end Scheduling

section

open Scheduling Asked

variable {w : Wiring E} {slot : LedgerSlot E} {place : Nat} {s t : SchedulerState E}
  {c c' : Candidate}

theorem DispatchExit.mem_underway {o : Outcome} (exit : DispatchExit w c s o t)
    (h : c' ∈ t.underway) : c' ∈ s.underway ∨ c' = c ∧ o ≠ .retrying := by
  unfold SchedulerState.underway at h ⊢
  cases exit with
  | blocked _ _ _ _ tasks suspended =>
    obtain ⟨ticket, suspended⟩ := suspended
    rw [tasks, suspended] at h
    rcases List.mem_append.1 h with h | h
    · exact .inl (List.mem_append_left _ h)
    · exact .inr ⟨List.mem_singleton.1 h, by decide⟩
  | confirming _ _ _ _ tasks suspended =>
    rw [tasks, suspended] at h
    simp only [List.mem_append, List.mem_singleton] at h ⊢
    rcases h with (h | h) | h
    · exact .inl (.inl h)
    · exact .inr ⟨h, by decide⟩
    · exact .inl (.inr h)
  | undone u _ _ _ _ tasks suspended retried =>
    rw [retried.dispatcher, retried.suspended, tasks, suspended] at h
    exact .inl h

theorem ConfirmExit.underway (exit : ConfirmExit w c s t) : t.underway = s.underway := by
  cases exit with
  | recorded => rfl
  | gone => rfl
  | undone _ _ _ _ _ retried => exact retried.underway

namespace Scheduling

theorem mem_underway_cycle (h : c ∈ (cycle w s).2.underway) :
    c ∈ s.underway ∨ Cleared w s c := by
  have exit := cycle_exit w s
  generalize hr : cycle w s = r at h exit
  obtain ⟨o, t⟩ := r
  dsimp only at h exit
  cases exit with
  | idle => exact .inl h
  | unfiltered _ _ _ _ _ _ _ _ _ retried =>
    rw [retried.underway] at h
    exact .inl h
  | refused _ _ _ _ _ _ _ _ _ _ _ _ _ retried =>
    rw [retried.underway] at h
    exact .inl h
  | reserved free c' queues v v' env env' _ _ pop filter pass reserve pass' exit =>
    rcases exit.mem_underway h with h | ⟨rfl, held⟩
    · exact .inl h
    · refine .inr ⟨free, ⟨queues, pop⟩, by rw [filter]; exact pass, ?_, by rw [hr]; exact held⟩
      rw [filter, reserve]
      exact pass'
  | resumed c' ticket suspended _ _ exit =>
    unfold SchedulerState.underway
    rcases exit.mem_underway h with h | ⟨rfl, _⟩
    · rw [SchedulerState.underway_free rfl] at h
      exact .inl (List.mem_append_left _ h)
    · rw [suspended]
      exact .inl (List.mem_append_right _ (List.mem_singleton_self _))

theorem mem_underway_happen {x : Happening E} (h : c ∈ (happen w s x).underway) :
    c ∈ s.underway ∨ x = .cycle ∧ Cleared w s c := by
  cases x with
  | job event =>
    have fed := applyJobEvent_fed w event s
    change c ∈ (applyJobEvent w event s).2.underway at h
    unfold SchedulerState.underway at h ⊢
    rw [fed.dispatcher, fed.suspended] at h
    exact .inl h
  | queue event =>
    obtain ⟨queues, same⟩ := applyQueueEvent_queues event s
    change c ∈ (applyQueueEvent event s).2.underway at h
    rw [same] at h
    exact .inl h
  | cycle => exact (mem_underway_cycle h).imp id fun cleared => ⟨rfl, cleared⟩
  | confirm at_place =>
    change c ∈ (confirmAt w at_place s).2.underway at h
    rcases confirmAt_exit w at_place s with ⟨_, same⟩ | ⟨_, _, t, taken, exit, same⟩
    · rw [same] at h
      exact .inl h
    · obtain ⟨_, _, e⟩ := Option.map_eq_some_iff.1 taken
      cases e
      rw [same] at h
      change c ∈ t.underway at h
      rw [exit.underway] at h
      unfold SchedulerState.underway at h ⊢
      refine .inl (List.mem_append.2 ((List.mem_append.1 h).imp ?_ id))
      exact List.mem_of_mem_eraseIdx
  | _ => exact .inl h

/-- Whatever is under way after a run was under way before it, or cleared by one of its cycles. -/
theorem mem_underway_after {run : List (Happening E)} (h : c ∈ (after w s run).underway) :
    c ∈ s.underway ∨ ∃ done rest, run = done ++ .cycle :: rest ∧ Cleared w (after w s done) c := by
  -- from the end: what the last happening did not bring under way was so before it
  induction run using List.reverseRecOn with
  | nil => exact .inl h
  | append_singleton run x ih =>
    rw [after_concat] at h
    rcases mem_underway_happen h with h | ⟨rfl, cleared⟩
    · refine (ih h).imp id ?_
      rintro ⟨done, rest, rfl, cleared⟩
      exact ⟨done, rest ++ [x], by simp, cleared⟩
    · exact .inr ⟨run, [], rfl, cleared⟩

/-- A candidate that a cycle clears is booked. -/
theorem booked_cycle (books : w.Books slot place) {s : SchedulerState (E × List Asked)}
    (backed : Backed place c.key (slot.noted.get s.env)) (cleared : Cleared w s.plain c) :
    booked place c.key (cycle w.traced s).2.env.2 = some c := by
  have held : (cycle w.traced s).1 ≠ .retrying := by
    have := cleared.held
    rwa [show (cycle w s.plain).1 = (cycle w.traced s).1 from
      congrArg Prod.fst (simulates_cycle w s)] at this
  have exit := cycle_exit w.traced s
  generalize (cycle w.traced s).1 = o, (cycle w.traced s).2 = t at exit held ⊢
  obtain ⟨queues, popped⟩ := cleared.popped
  cases exit with
  | idle _ none => cases popped.symm.trans none
  | unfiltered => exact absurd rfl held
  | refused => exact absurd rfl held
  | reserved _ c' queues' v v' env env' _ _ pop filter _ reserve pass exit =>
    cases popped.symm.trans pop
    have before : Backed place c.key (slot.noted.get env) := by
      rw [books.spares.traced.filtered filter]
      exact backed
    have entered := (books.reserve c before).2
    rw [reserve] at entered
    have now : booked place c.key env'.2 = some c := by
      rcases entered with ⟨_, _, now⟩ | ⟨other, _⟩
      · exact now
      · exact absurd rfl (other pass)
    cases exit with
    | blocked _ env => rw [env]; exact now
    | confirming _ env => rw [env]; exact now
    | undone => exact absurd rfl held
  | resumed _ _ suspended => cases cleared.free.symm.trans suspended

/-! ## Runs -/

theorem continues_after (books : w.Books slot place) (key : String) {run : List (Happening E)}
    (leaves : ∀ change, .world change ∈ run → ∀ env, slot.get (change env) = slot.get env)
    (s : SchedulerState (E × List Asked)) :
    Continues place key (slot.noted.get s.env)
      (slot.noted.get (after w.traced s (run.map .traced)).env) := by
  induction run generalizing s with
  | nil => exact .refl place key _
  | cons x run ih =>
    have first : Continues place key (slot.noted.get s.env)
        (slot.noted.get (happen w.traced s x.traced).env) :=
      continues_happen books (fun change e => leaves change (e ▸ List.mem_cons_self)) s
    exact first.trans (ih (fun change hm => leaves change (List.mem_cons_of_mem _ hm)) _)

/-- What is put on record is the version on record, admitted. -/
theorem recordAdmission_eq_ok {client : JobClient E} {job admitted : Job} {env env' : E}
    (put : recordAdmission client job env = (.ok admitted, env')) :
    ∃ latest between, client.get job.ns job.name env = (.ok latest, between) ∧
      client.update admitted between = (.ok (), env') ∧
      admitted = { latest with phase := .dequeued, note := some admissionNote } := by
  unfold recordAdmission at put
  rw [bind_run] at put
  rcases looked : client.get job.ns job.name env with ⟨e | latest, between⟩
  · rw [looked] at put
    cases put
  · rw [looked] at put
    dsimp only at put
    rw [bind_run] at put
    rcases updated : client.update
      { latest with phase := .dequeued, note := some admissionNote } between with ⟨e | _, after⟩
    · rw [updated] at put
      cases put
    · rw [updated] at put
      cases put
      exact ⟨latest, between, rfl, updated, rfl⟩

/-- Nothing is booked before a run, so what is booked after it is held in the ledger. -/
theorem backed_after (books : w.Books slot place) (key : String) {run : List (Happening E)}
    (leaves : ∀ change, .world change ∈ run → ∀ env, slot.get (change env) = slot.get env)
    (s : SchedulerState E) : Backed place key (slot.noted.get (afterTraced w s run).env) := by
  obtain ⟨_, _, lasts⟩ := continues_after books key leaves s.traced
  exact (lasts fun _ h => by cases h).1

theorem booked_of_cleared (books : w.Books slot place) {done : List (Happening E)}
    (leaves : ∀ change, .world change ∈ done → ∀ env, slot.get (change env) = slot.get env)
    (cleared : Cleared w (after w s done) c) :
    booked place c.key (calls w s (done ++ [.cycle])) = some c := by
  rw [← after_traced] at cleared
  unfold calls
  rw [afterTraced_concat]
  exact booked_cycle books (backed_after books c.key leaves s) cleared

/-- A candidate that a cycle of a run cleared stays booked as long as its key is not given back. -/
theorem booked_since_cleared (books : w.Books slot place) {done rest : List (Happening E)}
    (leaves : ∀ change, .world change ∈ done ++ .cycle :: rest →
      ∀ env, slot.get (change env) = slot.get env)
    (cleared : Cleared w (after w s done) c) :
    ∃ since, calls w s (done ++ .cycle :: rest) = calls w s (done ++ [.cycle]) ++ since ∧
      ((∀ c', .unreserve place c' ∈ since → c'.key ≠ c.key) →
        booked place c.key (calls w s (done ++ .cycle :: rest)) = some c ∧
          (slot.get (after w s (done ++ .cycle :: rest)).env).isReserved c.key = true) := by
  have split : done ++ .cycle :: rest = (done ++ [.cycle]) ++ rest := by simp
  have leavesFirst := fun change hm => leaves change (List.mem_append_left _ hm)
  have leavesRest := fun change hm =>
    leaves change (List.mem_append_right _ (List.mem_cons_of_mem _ hm))
  have now := booked_of_cleared books leavesFirst cleared
  obtain ⟨since, log, lasts⟩ := continues_after books c.key leavesRest
    (afterTraced w s (done ++ [.cycle]))
  rw [← afterTraced_append, ← split] at log lasts
  refine ⟨since, log, fun unreturned => ?_⟩
  have leavesCycle : ∀ change, .world change ∈ done ++ [.cycle] →
      ∀ env, slot.get (change env) = slot.get env := by
    intro change hm
    rcases List.mem_append.1 hm with hm | hm
    · exact leavesFirst change hm
    · cases List.mem_singleton.1 hm
  have backed := backed_after books c.key leavesCycle s
  obtain ⟨backed', kept⟩ := lasts backed
  have booking := kept unreturned c now
  refine ⟨booking, ?_⟩
  rw [← after_traced]
  exact backed' c booking

/-- What a confirmation puts on record is the version on record at that time, admitted. The
candidate was cleared by an earlier cycle, and unless its key is given back in the meantime it is
what the quota plugin has booked under the key, which the ledger holds. So what is put on record
asks for what was checked and booked exactly if the version on record does. -/
theorem admission_of_cleared (books : w.Books slot place) (idle : s.dispatcher.tasks = [])
    (free : s.suspended = none) {run : List (Happening E)}
    (leaves : ∀ change, .world change ∈ run → ∀ env, slot.get (change env) = slot.get env)
    (under : c ∈ (after w s run).dispatcher.tasks) {admitted : Job} {env : E}
    (put : recordAdmission w.client c.job (after w s run).env = (.ok admitted, env)) :
    (∃ latest between,
      w.client.get c.job.ns c.job.name (after w s run).env = (.ok latest, between) ∧
      w.client.update admitted between = (.ok (), env) ∧
      admitted = { latest with phase := .dequeued, note := some admissionNote } ∧
      (admitted.resources = c.job.resources ↔ latest.resources = c.job.resources)) ∧
    ∃ done rest since, run = done ++ .cycle :: rest ∧ Cleared w (after w s done) c ∧
      calls w s run = calls w s (done ++ [.cycle]) ++ since ∧
      ((∀ c', .unreserve place c' ∈ since → c'.key ≠ c.key) →
        booked place c.key (calls w s run) = some c ∧
          (slot.get (after w s run).env).isReserved c.key = true) := by
  constructor
  · obtain ⟨latest, between, looked, updated, rfl⟩ := recordAdmission_eq_ok put
    exact ⟨latest, between, looked, updated, rfl, Iff.rfl⟩
  · have origin := mem_underway_after (List.mem_append_left _ under : c ∈ (after w s run).underway)
    rw [(s.underway_free free).trans idle] at origin
    obtain h | ⟨done, rest, rfl, cleared⟩ := origin
    · cases h
    obtain ⟨since, log, lasts⟩ := booked_since_cleared books leaves cleared
    exact ⟨done, rest, since, rfl, cleared, log, lasts⟩

end Scheduling

end

/-! ## A request that is raised in the meantime -/

namespace Site

/-- The record changes the request of a job from two to three processors. -/
def raise (site : Site) : Site :=
  { site with store := site.store.insert (Candidate.wanting "x" 3).job }

end Site

namespace Scheduling

open Site Asked

/-- A candidate that asks for two processors is checked and booked, and admitted as it is. -/
theorem admission_of_cleared_unchanged :
    ∃ admitted env, recordAdmission standard.client (Candidate.wanting "x" 2).job
        (after standard onRecord [.cycle]).env = (.ok admitted, env) ∧
      admitted.resources = (Candidate.wanting "x" 2).job.resources ∧
      ∃ done rest since, [.cycle] = done ++ .cycle :: rest ∧
        Cleared standard (after standard onRecord done) (.wanting "x" 2) ∧
        calls standard onRecord [.cycle] = calls standard onRecord (done ++ [.cycle]) ++ since ∧
        ((∀ c', .unreserve 0 c' ∈ since → c'.key ≠ "n/x") →
          booked 0 "n/x" (calls standard onRecord [.cycle]) = some (.wanting "x" 2) ∧
            (after standard onRecord [.cycle]).env.ledger.isReserved "n/x" = true) := by
  obtain ⟨queues, first⟩ := cycle_onRecord
  have whole : after standard onRecord [.cycle] =
    (attempt standard (.wanting "x" 2) { onRecord with queues }).2 := first
  have under : Candidate.wanting "x" 2 ∈ (after standard onRecord [.cycle]).dispatcher.tasks := by
    rw [whole]
    exact List.mem_singleton_self _
  have put : ∃ env, recordAdmission standard.client (Candidate.wanting "x" 2).job
      (after standard onRecord [.cycle]).env = (.ok
        { (Candidate.wanting "x" 2).job with phase := .dequeued, note := some admissionNote },
        env) := by
    rw [whole]
    exact ⟨_, rfl⟩
  obtain ⟨env, put⟩ := put
  obtain ⟨_, cleared⟩ := admission_of_cleared books_standard rfl rfl
    (fun change hm => by cases List.mem_singleton.1 hm) under put
  exact ⟨_, _, put, rfl, cleared⟩

/-- A candidate that asks for two processors is checked and booked, and then admitted with three. -/
theorem admission_with_raised_request :
    ∃ c admitted env, (after standard onRecord [.cycle, .world raise]).dispatcher.tasks = [c] ∧
      recordAdmission standard.client c.job
        (after standard onRecord [.cycle, .world raise]).env = (.ok admitted, env) ∧
      booked 0 c.key (calls standard onRecord [.cycle, .world raise]) = some c ∧
      c.job.resources.amount "cpu" = .ofUnits 2 ∧ admitted.resources.amount "cpu" = .ofUnits 3 := by
  obtain ⟨queues, pop⟩ := QueueSet.popNext_holding (.wanting "x" 2)
  have plain : after standard onRecord [.cycle, .world raise] =
      happen standard (attempt standard (.wanting "x" 2) { onRecord with queues }).2
        (.world raise) := by
    show happen standard (cycle standard onRecord).2 (.world raise) = _
    rw [cycle_of_pop rfl pop]
  have noted : calls standard onRecord [.cycle, .world raise] =
      (attempt standard.traced (.wanting "x" 2) { onRecord.traced with queues }).2.env.2 := by
    show (happen standard.traced (cycle standard.traced onRecord.traced).2
      (Happening.world raise).traced).env.2 = _
    rw [cycle_of_pop rfl pop]
    rfl
  rw [plain, noted]
  exact ⟨.wanting "x" 2, _, _, rfl, rfl, rfl, rfl, rfl⟩

end Scheduling

end JobAdmission
