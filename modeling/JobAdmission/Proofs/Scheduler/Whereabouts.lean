/-
Where a scheduler keeps the candidate of a key. As long as no event names the key, it has one
candidate of it at most, and that is ready in a queue, delayed in a queue, or in hand while its
confirmation is under way or its cycle is suspended. `goes_happen` says which ways lead from one
spot to the next: a delayed candidate gets ready when its window has ended, a ready one is taken by
a cycle, and one in hand is delayed when its attempt fails.
-/
import JobAdmission.Proofs.Queue.Seats
import JobAdmission.Proofs.Scheduler.OwnKeys

namespace JobAdmission

variable {E : Type}

/-- Where the candidate of a key is. -/
inductive Spot where
  | nowhere
  | inHand (c : Candidate)
  | ready (c : Candidate)
  | delayed (c : Candidate)

namespace Spot

/-- The candidates of the key that are in hand. -/
def hand : Spot → List Candidate
  | inHand c => [c]
  | _ => []

/-- What a queue finds under the key. -/
def seat : Spot → Option Candidate × Option Candidate
  | ready c => (some c, none)
  | delayed c => (none, some c)
  | _ => (none, none)

/-- Where a candidate is after its attempt failed: it is given up, or a version of it is delayed
with one more attempt. -/
inductive Retried (now : Nat) (c : Candidate) : Spot → Prop where
  | lost : Retried now c .nowhere
  | delayed (c' : Candidate) (attempts : c'.attempts = c.attempts)
      (firstSeen : c'.firstSeen = c.firstSeen) : Retried now c (.delayed (c'.failedAt now))

/-- The ways from one spot to the next, with the candidate that is taken from its queue on the way
and the candidate whose attempt fails. -/
inductive Goes (p : RetryPolicy) (now : Nat) :
    Option Candidate → Option Candidate → Spot → Spot → Prop where
  | stays (spot : Spot) : Goes p now none none spot spot
  | due (c : Candidate) (ended : p.deadline c ≤ now) : Goes p now none none (.delayed c) (.ready c)
  | taken (c : Candidate) : Goes p now (some c) none (.ready c) (.inHand c)
  | admitted (c : Candidate) : Goes p now none none (.inHand c) .nowhere
  | failed (c : Candidate) (spot : Spot) (retried : Retried now c spot) :
    Goes p now none (some c) (.inHand c) spot
  | refused (c : Candidate) (spot : Spot) (retried : Retried now c spot) :
    Goes p now (some c) (some c) (.ready c) spot

theorem goes_of_flushed {p : RetryPolicy} {now : Nat} {spot : Spot}
    {found : Option Candidate × Option Candidate}
    (moved : JobQueue.Flushed p now spot.seat found) :
    ∃ spot', spot'.seat = found ∧ spot'.hand = spot.hand ∧ Goes p now none none spot spot' := by
  generalize e : spot.seat = before at moved
  cases moved with
  | same => exact ⟨spot, e, rfl, .stays spot⟩
  | due c ended =>
    cases spot with
    | delayed d =>
      cases e
      exact ⟨.ready c, rfl, rfl, .due c ended⟩
    | _ => cases e

end Spot

/-- A scheduler has one candidate of a key at most, and has it in the spot. -/
structure SchedulerState.Keeps (s : SchedulerState E) (key : String) (spot : Spot) : Prop where
  hand : (s.underway.filter (·.key == key)).Perm spot.hand
  seats : s.queues.Seats key spot.seat

/-- An event about a job of the key. -/
def JobEvent.Mentions (key : String) : JobEvent → Prop
  | .added job => job.key = key
  | .updated old new => old.key = key ∨ new.key = key
  | .deleted job => job.key = key

def Happening.Mentions (key : String) : Happening E → Prop
  | .job event => event.Mentions key
  | _ => False

namespace Scheduling

/-- The candidate that is taken from its queue when something happens, if there is one. -/
def taken (s : SchedulerState E) : Happening E → Option Candidate
  | .cycle => if s.suspended.isSome then none else s.queues.popNext.map (·.1)
  | _ => none

/-- The candidate whose attempt fails when something happens, if there is one: that of a cycle which
hands it to the retry path, or of a confirmation that cannot put the admission on record. -/
def failed (w : Wiring E) (s : SchedulerState E) : Happening E → Option Candidate
  | .cycle =>
    if (cycle w s).1 = .retrying then
      (s.suspended.map (·.candidate)).or (s.queues.popNext.map (·.1))
    else none
  | .confirm place =>
    s.dispatcher.tasks[place]?.filter fun c => !(recordAdmission w.client c.job s.env).1.isOk
  | _ => none

end Scheduling

/-! ## In hand -/

section

variable {s t : SchedulerState E} {key : String} {spot : Spot} {c : Candidate}

/-- A candidate is no longer in hand. -/
theorem SchedulerState.Keeps.release (keeps : s.Keeps key spot)
    (hand : s.underway.Perm (c :: t.underway)) (queues : t.queues = s.queues) :
    (c.key ≠ key → t.Keeps key spot) ∧ (c.key = key → spot = .inHand c ∧ t.Keeps key .nowhere) := by
  have filtered := (hand.filter (·.key == key)).symm.trans keeps.hand
  constructor
  · intro other
    rw [List.filter_cons_of_neg (by simpa using other)] at filtered
    exact ⟨filtered, by rw [queues]; exact keeps.seats⟩
  · intro own
    rw [List.filter_cons_of_pos (by simpa using own)] at filtered
    cases spot with
    | inHand d =>
      have single := List.perm_singleton.1 filtered
      obtain ⟨rfl, none⟩ := List.cons.inj single
      exact ⟨rfl, by rw [none]; exact .refl _, by rw [queues]; exact keeps.seats⟩
    | _ => exact absurd (List.perm_nil.1 filtered) (List.cons_ne_nil _ _)

/-- A candidate comes into hand. -/
theorem SchedulerState.Keeps.gain (keeps : s.Keeps key spot)
    (hand : t.underway.Perm (c :: s.underway)) (queues : t.queues = s.queues) :
    (c.key ≠ key → t.Keeps key spot) ∧
      (c.key = key → spot = .nowhere → t.Keeps key (.inHand c)) := by
  have filtered := hand.filter (·.key == key)
  constructor
  · intro other
    rw [List.filter_cons_of_neg (by simpa using other)] at filtered
    exact ⟨filtered.trans keeps.hand, by rw [queues]; exact keeps.seats⟩
  · rintro own rfl
    rw [List.filter_cons_of_pos (by simpa using own), List.perm_nil.1 keeps.hand] at filtered
    exact ⟨filtered, by rw [queues]; exact keeps.seats⟩

theorem SchedulerState.Orderly.indexed_popNext {store : Slot E JobStore} {rules : QueueRules}
    (orderly : s.Orderly store rules) {queues : QueueSet}
    (pop : s.queues.popNext = some (c, queues)) : queues.Each JobQueue.Indexed := by
  have indexed := (orderly.sound.step .popNext).indexed
  rwa [show s.queues.step .popNext = queues by
    show (s.queues.popNext.map (·.2)).getD s.queues = queues; rw [pop]; rfl] at indexed

/-- A cycle takes a candidate from its queue. -/
theorem SchedulerState.Keeps.popNext (keeps : s.Keeps key spot)
    (indexed : s.queues.Each JobQueue.Indexed) {queues : QueueSet}
    (pop : s.queues.popNext = some (c, queues)) (env : E) :
    (c.key ≠ key → ({ s with queues, env } : SchedulerState E).Keeps key spot) ∧
      (c.key = key →
        spot = .ready c ∧ ({ s with queues, env } : SchedulerState E).Keeps key .nowhere) := by
  obtain ⟨id, q, q', there, popped, rfl⟩ := QueueSet.popNext_eq_some pop
  have found := JobQueue.found_pop (indexed id q there) popped
  constructor
  · intro other
    refine ⟨keeps.hand, keeps.seats.put there ?_⟩
    rw [(found key).2, if_neg other]
  · rintro rfl
    -- the queue finds something, so it is what the spot says
    have first : (q.found c.key).1 = some c := (found c.key).1
    have here : q.found c.key ≠ (none, none) := by
      intro e
      rw [e] at first
      cases first
    have seated := keeps.seats.foundAt_eq id
    rw [QueueSet.foundAt_of_queue? there] at seated
    replace seated : q.found c.key = spot.seat := seated.resolve_right here
    rw [seated] at first
    cases spot with
    | ready d =>
      cases first
      refine ⟨rfl, keeps.hand, keeps.seats.put_last there here ?_⟩
      rw [(found c.key).2, if_pos rfl, seated]
      rfl
    | _ => cases first

end

/-! ## Retrying and dispatching -/

section

open Scheduling JobQueue

variable {w : Wiring E} {store : Slot E JobStore} {s t : SchedulerState E} {key : String}
  {spot : Spot} {c : Candidate}

theorem Retried.keeps (h : Retried w c s t) (files : w.Files store) (filed : store.Filed s.env)
    (indexed : s.queues.Each Indexed) (own : c.Own) (keeps : s.Keeps key spot) :
    (c.key ≠ key → t.Keeps key spot) ∧
      (c.key = key → spot = .nowhere → ∃ spot', t.Keeps key spot' ∧ spot'.Retried s.now c) := by
  obtain same | ⟨c', id, q, q', chosen, there, delayed, same⟩ := h.delayed
  · have stays : t.Keeps key spot :=
      ⟨by rw [h.underway]; exact keeps.hand, by rw [same]; exact keeps.seats⟩
    refine ⟨fun _ => stays, fun _ nowhere => ⟨.nowhere, nowhere ▸ stays, .lost⟩⟩
  · obtain ⟨-, same_key, attempts, firstSeen⟩ := retryable_own files filed own chosen
    have hi := indexed id q there
    constructor
    · intro other
      refine ⟨by rw [h.underway]; exact keeps.hand, ?_⟩
      rw [same]
      exact keeps.seats.put there (found_delay_of_ne hi delayed fun e => other (same_key ▸ e))
    · rintro rfl rfl
      have free : q.found (c'.failedAt s.now).key = (none, none) :=
        same_key ▸ keeps.seats.free_of_queue? there
      have found := found_delay_self hi delayed free
      rw [show (c'.failedAt s.now).key = c.key from same_key] at found
      refine ⟨.delayed (c'.failedAt s.now), ⟨by rw [h.underway]; exact keeps.hand, ?_⟩,
        .delayed c' attempts firstSeen⟩
      rw [same]
      exact keeps.seats.put_first there found (.inl rfl)

/-- What becomes of a candidate that was taken out of its spot: its attempt fails, or it is in
hand. -/
theorem DispatchExit.keeps {o : Outcome} (exit : DispatchExit w c s o t) (files : w.Files store)
    (filed : store.Filed s.env) (indexed : s.queues.Each Indexed) (own : c.Own)
    (free : s.suspended = none) (keeps : s.Keeps key spot) :
    (c.key ≠ key → t.Keeps key spot) ∧
      (c.key = key → spot = .nowhere →
        o = .retrying ∧ (∃ spot', t.Keeps key spot' ∧ spot'.Retried s.now c) ∨
          o ≠ .retrying ∧ t.Keeps key (.inHand c)) := by
  -- while it waits or is confirmed it is one more of those under way
  have gained : o ≠ .retrying → t.underway = s.dispatcher.tasks ++ [c] → t.queues = s.queues →
      (c.key ≠ key → t.Keeps key spot) ∧
        (c.key = key → spot = .nowhere →
          o = .retrying ∧ (∃ spot', t.Keeps key spot' ∧ spot'.Retried s.now c) ∨
            o ≠ .retrying ∧ t.Keeps key (.inHand c)) := by
    intro going hand queues
    have more : t.underway.Perm (c :: s.underway) := by
      rw [hand, s.underway_free free]
      exact List.perm_append_singleton c _
    obtain ⟨others, self⟩ := keeps.gain more queues
    exact ⟨others, fun own nowhere => .inr ⟨going, self own nowhere⟩⟩
  cases exit with
  | blocked _ _ _ queues tasks suspended =>
    obtain ⟨ticket, suspended⟩ := suspended
    refine gained (by decide) ?_ queues
    unfold SchedulerState.underway
    rw [tasks, suspended]
    rfl
  | confirming _ _ _ queues tasks suspended =>
    refine gained (by decide) ?_ queues
    rw [t.underway_free (suspended.trans free), tasks]
  | undone u _ env now queues tasks suspended retried =>
    have same : u.underway = s.underway := by
      unfold SchedulerState.underway
      rw [tasks, suspended]
    have undone : u.Keeps key spot :=
      ⟨by rw [same]; exact keeps.hand, by rw [queues]; exact keeps.seats⟩
    obtain ⟨others, self⟩ := retried.keeps files (by rw [env]; exact files.unreserve c _ filed)
      (by rw [queues]; exact indexed) own undone
    rw [now] at self
    exact ⟨others, fun own nowhere => .inl ⟨rfl, self own nowhere⟩⟩

/-- What becomes of a candidate whose confirmation is done. -/
theorem ConfirmExit.keeps (exit : ConfirmExit w c s t) (files : w.Files store)
    (filed : store.Filed s.env) (indexed : s.queues.Each Indexed) (own : c.Own)
    (keeps : s.Keeps key spot) :
    (c.key ≠ key → t.Keeps key spot) ∧
      (c.key = key → spot = .nowhere →
        (recordAdmission w.client c.job s.env).1.isOk = true ∧ t.Keeps key .nowhere ∨
          (recordAdmission w.client c.job s.env).1.isOk = false ∧
            ∃ spot', t.Keeps key spot' ∧ spot'.Retried s.now c) := by
  cases exit with
  | recorded admitted env env' trail ok told =>
    rw [ok]
    refine ⟨fun _ => ⟨keeps.hand, keeps.seats⟩, ?_⟩
    rintro - rfl
    exact .inl ⟨rfl, keeps.hand, keeps.seats⟩
  | gone e env trail failed missing =>
    rw [failed]
    refine ⟨fun _ => ⟨keeps.hand, keeps.seats⟩, ?_⟩
    rintro - rfl
    exact .inr ⟨rfl, .nowhere, ⟨keeps.hand, keeps.seats⟩, .lost⟩
  | undone e env _ failed refusal retried =>
    have put := files.recordAdmission c.job s.env filed
    rw [failed] at put ⊢
    have returned : store.Filed (w.pipeline.unreserve c env).2 := files.unreserve c env put
    have undone : ({ s with env := (w.pipeline.unreserve c env).2 } : SchedulerState E).Keeps
      key spot := ⟨keeps.hand, keeps.seats⟩
    obtain ⟨others, self⟩ := retried.keeps files returned indexed own undone
    exact ⟨others, fun own nowhere => .inr ⟨rfl, self own nowhere⟩⟩

end

/-! ## Steps -/

namespace Scheduling

open JobQueue

section

variable {w : Wiring E} {store : Slot E JobStore} {rules : QueueRules} {s : SchedulerState E}
  {key : String} {spot : Spot}

theorem taken_cycle (s : SchedulerState E) :
    taken s .cycle = if s.suspended.isSome then none else s.queues.popNext.map (·.1) := rfl

theorem failed_cycle (w : Wiring E) (s : SchedulerState E) :
    failed w s .cycle = if (cycle w s).1 = .retrying then
      (s.suspended.map (·.candidate)).or (s.queues.popNext.map (·.1)) else none := rfl

theorem failed_confirm (w : Wiring E) (s : SchedulerState E) (place : Nat) :
    failed w s (.confirm place) = s.dispatcher.tasks[place]?.filter fun c =>
      !(recordAdmission w.client c.job s.env).1.isOk := rfl

theorem filter_key_self {c : Candidate} (own : c.key = key) :
    (some c).filter (·.key == key) = some c := by
  simp [own]

theorem filter_key_other {c : Candidate} (other : c.key ≠ key) {found : Option Candidate}
    (h : found = some c ∨ found = none) : found.filter (·.key == key) = none := by
  rcases h with rfl | rfl
  · simp [other]
  · rfl

/-- A cycle that takes a candidate from its queue and hands it to the retry path. -/
theorem goes_refused (files : w.Files store) (orderly : s.Orderly store rules)
    (keeps : s.Keeps key spot) {c : Candidate} {queues : QueueSet} {env : E}
    (pop : s.queues.popNext = some (c, queues)) (filed : store.Filed env) {t : SchedulerState E}
    (retried : Retried w c { s with queues, env } t) :
    ∃ spot', t.Keeps key spot' ∧ Spot.Goes rules.timing.retry s.now
      ((some c).filter (·.key == key)) ((some c).filter (·.key == key)) spot spot' := by
  have own := orderly.own_of_popNext pop
  obtain ⟨others, self⟩ := keeps.popNext orderly.sound.indexed pop env
  by_cases hk : c.key = key
  · obtain ⟨rfl, nowhere⟩ := self hk
    obtain ⟨spot', kept, after⟩ :=
      (retried.keeps files filed (orderly.indexed_popNext pop) own nowhere).2 hk rfl
    rw [filter_key_self hk]
    exact ⟨spot', kept, .refused c spot' after⟩
  · rw [filter_key_other hk (.inl rfl)]
    exact ⟨spot, (retried.keeps files filed (orderly.indexed_popNext pop) own (others hk)).1 hk,
      .stays spot⟩

/-- A cycle that takes a candidate from its queue and makes its reservations. -/
theorem goes_dispatched (files : w.Files store) (orderly : s.Orderly store rules)
    (keeps : s.Keeps key spot) {c : Candidate} {queues : QueueSet} {env : E} {o : Outcome}
    {t : SchedulerState E} (free : s.suspended = none)
    (pop : s.queues.popNext = some (c, queues)) (filed : store.Filed env)
    (exit : DispatchExit w c { s with queues, env } o t) :
    ∃ spot', t.Keeps key spot' ∧ Spot.Goes rules.timing.retry s.now
      ((some c).filter (·.key == key))
      ((if o = .retrying then some c else none).filter (·.key == key)) spot spot' := by
  have own := orderly.own_of_popNext pop
  have indexed := orderly.indexed_popNext pop
  obtain ⟨others, self⟩ := keeps.popNext orderly.sound.indexed pop env
  by_cases hk : c.key = key
  · obtain ⟨rfl, nowhere⟩ := self hk
    rw [filter_key_self hk]
    obtain ⟨rfl, spot', kept, after⟩ | ⟨going, kept⟩ :=
      (exit.keeps files filed indexed own free nowhere).2 hk rfl
    · rw [if_pos rfl, filter_key_self hk]
      exact ⟨spot', kept, .refused c spot' after⟩
    · rw [if_neg going]
      exact ⟨_, kept, .taken c⟩
  · rw [filter_key_other hk (.inl rfl), filter_key_other hk (by split <;> simp)]
    exact ⟨spot, (exit.keeps files filed indexed own free (others hk)).1 hk, .stays spot⟩

/-- A cycle that goes on with the candidate it was suspended with. -/
theorem goes_resumed (files : w.Files store) (orderly : s.Orderly store rules)
    (keeps : s.Keeps key spot) {c : Candidate} {ticket : Option Nat} {o : Outcome}
    {t : SchedulerState E} (held : s.suspended = some ⟨c, ticket⟩)
    (exit : DispatchExit w c { s with suspended := none } o t) :
    ∃ spot', t.Keeps key spot' ∧ Spot.Goes rules.timing.retry s.now none
      ((if o = .retrying then some c else none).filter (·.key == key)) spot spot' := by
  have hand : s.underway.Perm
      (c :: ({ s with suspended := none } : SchedulerState E).underway) := by
    unfold SchedulerState.underway
    rw [held]
    exact (List.perm_append_singleton c _).trans (by simp)
  have own := orderly.underway c (hand.mem_iff.2 List.mem_cons_self)
  have indexed := orderly.sound.indexed
  obtain ⟨others, self⟩ := keeps.release hand rfl
  by_cases hk : c.key = key
  · obtain ⟨rfl, nowhere⟩ := self hk
    obtain ⟨rfl, spot', kept, after⟩ | ⟨going, kept⟩ :=
      (exit.keeps files orderly.filed indexed own rfl nowhere).2 hk rfl
    · rw [if_pos rfl, filter_key_self hk]
      exact ⟨spot', kept, .failed c spot' after⟩
    · rw [if_neg going]
      exact ⟨_, kept, .stays _⟩
  · rw [filter_key_other hk (by split <;> simp)]
    exact ⟨spot, (exit.keeps files orderly.filed indexed own rfl (others hk)).1 hk, .stays spot⟩

theorem goes_cycle (files : w.Files store) (orderly : s.Orderly store rules)
    (keeps : s.Keeps key spot) :
    ∃ spot', (cycle w s).2.Keeps key spot' ∧
      Spot.Goes rules.timing.retry s.now ((taken s .cycle).filter (·.key == key))
        ((failed w s .cycle).filter (·.key == key)) spot spot' := by
  have exit := cycle_exit w s
  rw [taken_cycle, failed_cycle]
  generalize (cycle w s).1 = o, (cycle w s).2 = t at exit ⊢
  cases exit with
  | idle free none =>
    rw [free, none]
    exact ⟨spot, keeps, .stays spot⟩
  | unfiltered free c queues v env _ pop filter refusal retried =>
    rw [free, pop]
    exact goes_refused files orderly keeps pop (files.filtered filter orderly.filed) retried
  | refused free c queues v v' env env' _ pop filter pass reserve refusal retried =>
    rw [free, pop]
    exact goes_refused files orderly keeps pop
      (files.reserved reserve (files.filtered filter orderly.filed)) retried
  | reserved free c queues v v' env env' _ _ pop filter pass reserve pass' exit =>
    rw [free, pop]
    exact goes_dispatched files orderly keeps free pop
      (files.reserved reserve (files.filtered filter orderly.filed)) exit
  | resumed c ticket held _ _ exit =>
    rw [held]
    exact goes_resumed files orderly keeps held exit

theorem goes_confirmAt (files : w.Files store) (orderly : s.Orderly store rules)
    (keeps : s.Keeps key spot) (place : Nat) :
    ∃ spot', (confirmAt w place s).2.Keeps key spot' ∧
      Spot.Goes rules.timing.retry s.now none
        ((failed w s (.confirm place)).filter (·.key == key)) spot spot' := by
  rw [failed_confirm]
  rcases confirmAt_exit w place s with ⟨idle, same⟩ | ⟨c, dispatcher, t, taken, exit, same⟩
  · have none : s.dispatcher.tasks[place]? = none := Option.map_eq_none_iff.1 idle
    rw [same, none]
    exact ⟨spot, keeps, .stays spot⟩
  · obtain ⟨_, task, e⟩ := Option.map_eq_some_iff.1 taken
    cases e
    rw [same, task]
    obtain ⟨bound, rfl⟩ := List.getElem?_eq_some_iff.1 task
    have hand := (List.getElem_cons_eraseIdx_perm bound).symm.append_right
      (s.suspended.map (·.candidate)).toList
    have own := orderly.underway _ (hand.mem_iff.2 List.mem_cons_self)
    obtain ⟨others, self⟩ := keeps.release (t := { s with dispatcher := { s.dispatcher with
      tasks := s.dispatcher.tasks.eraseIdx place } }) hand rfl
    by_cases hk : s.dispatcher.tasks[place].key = key
    · obtain ⟨rfl, nowhere⟩ := self hk
      obtain ⟨ok, kept⟩ | ⟨failure, spot', kept, after⟩ :=
        (exit.keeps files orderly.filed orderly.sound.indexed own nowhere).2 hk rfl
      · refine ⟨.nowhere, ⟨kept.hand, kept.seats⟩, ?_⟩
        rw [Option.filter_some, show (recordAdmission w.client _ s.env).1.isOk = true from ok]
        exact .admitted _
      · refine ⟨spot', ⟨kept.hand, kept.seats⟩, ?_⟩
        rw [Option.filter_some, show (recordAdmission w.client _ s.env).1.isOk = false from failure]
        show Spot.Goes _ _ none ((some _).filter _) _ _
        rw [filter_key_self hk]
        exact .failed _ spot' after
    · have kept := (exit.keeps files orderly.filed orderly.sound.indexed own (others hk)).1 hk
      refine ⟨spot, ⟨kept.hand, kept.seats⟩, ?_⟩
      rw [filter_key_other hk (by rw [Option.filter_some]; split <;> simp)]
      exact .stays spot

/-- Where the registry goes through steps that spare the key, its candidate stays or gets ready. -/
theorem goes_of_leads (orderly : s.Orderly store rules) (keeps : s.Keeps key spot)
    {t : SchedulerState E} (hand : t.underway = s.underway)
    (leads : QueueSet.Leads (·.Spares key s.now) s.queues t.queues) :
    ∃ spot', t.Keeps key spot' ∧ Spot.Goes rules.timing.retry s.now none none spot spot' := by
  obtain ⟨steps, same, spares⟩ := leads
  obtain ⟨seat, seats, moved⟩ := keeps.seats.after orderly.sound spares
  rw [orderly.rules] at moved
  obtain ⟨spot', rfl, still, goes⟩ := Spot.goes_of_flushed moved
  exact ⟨spot', ⟨by rw [hand, still]; exact keeps.hand, by rw [same]; exact seats⟩, goes⟩

/-- What an event about other jobs leads to spares the key. -/
theorem spares_of_event {event : JobEvent} (unmentioned : ¬ event.Mentions key)
    {step : RegistryStep} (caused : Causes w s (.job event) step) : step.Spares key s.now := by
  obtain ⟨id, call, rfl, made⟩ := caused
  refine ⟨rfl, ?_⟩
  cases event with
  | added job =>
    cases made
    exact unmentioned
  | updated old new =>
    obtain ⟨other, other'⟩ := not_or.1 unmentioned
    obtain rfl | rfl | rfl := made
    · exact ⟨other, other'⟩
    · exact other
    · exact other'
  | deleted job =>
    cases made
    exact unmentioned

theorem underway_job (w : Wiring E) (s : SchedulerState E) (event : JobEvent) :
    (happen w s (.job event)).underway = s.underway := by
  have fed := applyJobEvent_fed w event s
  show (applyJobEvent w event s).2.underway = _
  unfold SchedulerState.underway
  rw [fed.dispatcher, fed.suspended]

theorem underway_queue (w : Wiring E) (s : SchedulerState E) (event : QueueEvent) :
    (happen w s (.queue event)).underway = s.underway := by
  obtain ⟨queues, same⟩ := applyQueueEvent_queues event s
  show (applyQueueEvent event s).2.underway = _
  rw [same]
  rfl

/-- Whatever happens that does not name the key, its candidate goes one of the ways. -/
theorem goes_happen (files : w.Files store) (orderly : s.Orderly store rules)
    (keeps : s.Keeps key spot) {x : Happening E} (unmentioned : ¬ x.Mentions key) :
    ∃ spot', (happen w s x).Keeps key spot' ∧
      Spot.Goes rules.timing.retry s.now ((taken s x).filter (·.key == key))
        ((failed w s x).filter (·.key == key)) spot spot' := by
  have leads := leads_happen w s x
  cases x with
  | job event =>
    exact goes_of_leads orderly keeps (underway_job w s event)
      (leads.mono fun _ caused => spares_of_event unmentioned caused)
  | queue event =>
    refine goes_of_leads orderly keeps (underway_queue w s event) (leads.mono ?_)
    intro step caused
    cases event <;> cases caused <;> exact trivial
  | cycle => exact goes_cycle files orderly keeps
  | confirm place => exact goes_confirmAt files orderly keeps place
  | flush id =>
    refine goes_of_leads orderly keeps rfl (leads.mono ?_)
    rintro step rfl
    exact ⟨rfl, trivial⟩
  | elapse span =>
    refine goes_of_leads orderly keeps rfl (leads.mono ?_)
    rintro step rfl
    exact (rfl : s.now = s.now)
  | start | cancel | close =>
    refine goes_of_leads orderly keeps rfl (leads.mono ?_)
    rintro step rfl
    exact trivial
  | _ => exact ⟨spot, ⟨keeps.hand, keeps.seats⟩, .stays spot⟩

/-- A job that appears under a key that was nowhere is ready in its queue, or is passed over. -/
theorem keeps_added (orderly : s.Orderly store rules) {job : Job}
    (nowhere : s.Keeps job.key .nowhere) :
    (happen w s (.job (.added job))).Keeps job.key .nowhere ∨
      (happen w s (.job (.added job))).Keeps job.key (.ready (.fresh job s.now)) := by
  show (addJob w job s).2.Keeps _ _ ∨ (addJob w job s).2.Keeps _ _
  unfold addJob
  rcases job.phase with _ | _
  · dsimp only
    obtain ⟨queues, trail, same, change⟩ := enqueue_spec job s
    rw [same]
    rcases change with rfl | ⟨id, q, q', there, submitted, rfl⟩
    · exact .inl ⟨nowhere.hand, nowhere.seats⟩
    · have free : q.found job.key = (none, none) := nowhere.seats.free_of_queue? there
      have found : q'.found job.key = (some (.fresh job s.now), none) := by
        have own : (Candidate.fresh job s.now).key = job.key := rfl
        rw [found_requeue (orderly.sound.indexed id q there) submitted job.key, if_pos own, free]
      exact .inr ⟨nowhere.hand, nowhere.seats.put_first there found (.inr rfl)⟩
  · exact .inl ⟨nowhere.hand, nowhere.seats⟩

end

end Scheduling

end JobAdmission
