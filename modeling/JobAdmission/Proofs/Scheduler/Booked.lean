/-
What the quota plugin has booked under a key, read off the calls of a run: the candidate that it
accepted last, unless it was told to give the key back since. A key that is booked is held in the
ledger, so until it is given back no other candidate is accepted under it.
-/
import JobAdmission.Proofs.Scheduler.Course
import JobAdmission.Proofs.Scheduler.Happening

namespace JobAdmission

variable {E S α : Type}

/-! ## Bookings -/

namespace Asked

variable {place : Nat} {key : String} {c : Candidate}

/-- What a call makes of the booking that the reservation of a place has under a key. -/
def books (place : Nat) (key : String) (booking : Option Candidate) : Asked → Option Candidate
  | reserve i c accepted => if i = place ∧ c.key = key ∧ accepted = true then some c else booking
  | unreserve i c => if i = place ∧ c.key = key then none else booking

/-- What the reservation of a place has booked under a key after some calls. -/
def booked (place : Nat) (key : String) (calls : List Asked) : Option Candidate :=
  calls.foldl (books place key) none

theorem booked_append (place : Nat) (key : String) (calls more : List Asked) :
    booked place key (calls ++ more) = more.foldl (books place key) (booked place key calls) :=
  List.foldl_append

/-- Of the same call to one place after the other, the one to the place itself decides. -/
theorem foldl_places (place : Nat) (key : String) (c : Candidate) (call : Nat → Asked)
    (outcome : Option Candidate) (one : ∀ i booking,
      books place key booking (call i) = if i = place ∧ c.key = key then outcome else booking)
    (start n : Nat) (booking : Option Candidate) :
    ((List.range' start n).map call).foldl (books place key) booking =
      if (start ≤ place ∧ place < start + n) ∧ c.key = key then outcome else booking := by
  induction n generalizing start booking with
  | zero =>
    rw [if_neg (by omega)]
    rfl
  | succ n ih =>
    rw [List.range'_succ, List.map_cons, List.foldl_cons, ih, one]
    by_cases here : start = place
    · subst here
      by_cases same : c.key = key <;> simp [same]
    · have : start + 1 ≤ place ∧ place < start + 1 + n ↔
          start ≤ place ∧ place < start + (n + 1) := by
        omega
      simp only [here, this, false_and, if_false]

theorem foldl_accepted (n : Nat) (booking : Option Candidate) :
    (accepted c 0 n).foldl (books place key) booking =
      if place < n ∧ c.key = key then some c else booking := by
  have := foldl_places place key c (.reserve · c true) (some c) (fun _ _ => by simp [books]) 0 n
    booking
  simpa [accepted] using this

theorem foldl_returned (n : Nat) (booking : Option Candidate) :
    (returned c 0 n).foldl (books place key) booking =
      if place < n ∧ c.key = key then none else booking := by
  have := foldl_places place key c (.unreserve · c) none (fun _ _ => rfl) 0 n booking
  simpa [returned] using this

end Asked

/-! ## Beside the reservations -/

/-- The part together with what is noted down. -/
def Slot.noted (part : Slot E S) : Slot (E × List Asked) (S × List Asked) where
  get env := (part.get env.1, env.2)
  set p env := (part.set p.1 env.1, p.2)

theorem Slot.kept_unnoted {part : Slot E S} {m : StateM E α} (h : part.Kept m) :
    part.noted.Kept (unnoted m) := fun env => Prod.ext (h env.1) rfl

/-- A wiring in which nothing but the reservations touches a part. -/
structure Wiring.Spares (w : Wiring E) (part : Slot E S) : Prop where
  filter : ∀ c, part.Kept (w.pipeline.filter c)
  get : ∀ ns name, part.Kept (w.client.get ns name)
  update : ∀ job, part.Kept (w.client.update job)
  notify : ∀ routes, w.routes = some routes → ∀ job, part.Kept (routes.notifyDequeued job)

namespace Wiring.Spares

open Scheduling

variable {w : Wiring E} {part : Slot E S}

theorem recordAdmission (h : w.Spares part) (job : Job) :
    part.Kept (recordAdmission w.client job) := by
  refine (h.get _ _).bind fun answer => ?_
  rcases answer with e | latest
  · exact part.kept_pure _
  · refine (h.update _).bind fun put => ?_
    cases put <;> exact part.kept_pure _

section

variable {c : Candidate} {s t : SchedulerState E} {env env' : E}

theorem filtered (h : w.Spares part) {v : Verdict} (e : w.pipeline.filter c env = (v, env')) :
    part.get env' = part.get env := by
  rw [← h.filter c env, e]

theorem retried (h : w.Spares part) (r : Retried w c s t) : part.get t.env = part.get s.env := by
  rw [r.env, h.get]

theorem put (h : w.Spares part) {job : Job} {r : Except AdmissionError Job}
    (e : Scheduling.recordAdmission w.client job env = (r, env')) :
    part.get env' = part.get env := by
  rw [← h.recordAdmission job env, e]

theorem told (h : w.Spares part) {job : Job}
    (e : env' = env ∨ ∃ routes, w.routes = some routes ∧
      env' = (routes.notifyDequeued job env).2) : part.get env' = part.get env := by
  rcases e with rfl | ⟨routes, wired, rfl⟩
  · rfl
  · exact h.notify routes wired job env

end

/-- In the traced wiring the notes are spared as well. -/
theorem traced (h : w.Spares part) : w.traced.Spares part.noted where
  filter c env := by
    refine Prod.ext ?_ (Pipeline.noted_filter w.pipeline c env)
    have same := congrArg Prod.snd (Pipeline.simulates_filter w.pipeline c env)
    exact (congrArg part.get same).symm.trans (h.filter c env.1)
  get ns name := Slot.kept_unnoted (h.get ns name)
  update job := Slot.kept_unnoted (h.update job)
  notify routes wired job env := by
    obtain ⟨routes, known, rfl⟩ := Option.map_eq_some_iff.1 wired
    refine Prod.ext ?_ ?_
    · have same := congrArg Prod.snd (simulates_notifyDequeued routes job env)
      exact (congrArg part.get same).symm.trans (h.notify routes known job env.1)
    · show (ReleaseRoutes.notifyDequeued _ job env).2.2 = env.2
      unfold ReleaseRoutes.notifyDequeued
      dsimp only
      rw [NameMap.get?_map]
      rcases routes.handlers.get? job.kind with _ | handler
      · rfl
      · show (Prod.snd ((unnoted (handler.dequeued job) >>= _) env)).2 = env.2
        rw [bind_run]
        rcases (unnoted (handler.dequeued job) env).1 with _ | _ <;> rfl

end Wiring.Spares

/-- A wiring in which the ledger is changed by the quota plugin over it alone, whose reservation has
the given place. -/
structure Wiring.Books (w : Wiring E) (slot : LedgerSlot E) (place : Nat) : Prop
    extends w.Guards slot where
  quota : Pipeline.QuotaAt slot w.pipeline.reservations place
  update : ∀ job, slot.Kept (w.client.update job)
  notify : ∀ routes, w.routes = some routes → ∀ job, slot.Kept (routes.notifyDequeued job)

theorem Wiring.Books.spares {w : Wiring E} {slot : LedgerSlot E} {place : Nat}
    (h : w.Books slot place) : w.Spares slot where
  filter := h.toGuards.filter
  get := h.get
  update := h.update
  notify := h.notify

/-! ## Reserving and giving back -/

/-- What is booked under a key is held in the ledger. -/
def Backed (place : Nat) (key : String) (account : Ledger × List Asked) : Prop :=
  ∀ c, Asked.booked place key account.2 = some c → account.1.isReserved key = true

namespace Wiring.Books

open Pipeline Asked

variable {w : Wiring E} {slot : LedgerSlot E} {place : Nat} {key : String} {env : E × List Asked}

theorem place_lt (h : w.Books slot place) : place < w.pipeline.reservations.length := by
  obtain ⟨name, at_place⟩ := h.quota
  exact (List.getElem?_eq_some_iff.1 at_place).1

/-- Giving back strikes the candidate from the ledger. -/
theorem ledger_unreserve (h : w.Books slot place) (c : Candidate) (env : E) :
    slot.get (w.pipeline.unreserve c env).2 = (slot.get env).unreserve c := by
  have struck := struck_unreserve h.lawful h.reservations c env
  obtain ⟨_, after⟩ | ⟨none, _⟩ := struck
  · exact after
  · exact absurd ⟨place, h.place_lt, h.quota⟩ none

/-- Reserving books the candidate under its key, which was free, or leaves the bookings as they
are. It does the former if all reservations accept. -/
theorem reserve (h : w.Books slot place) (c : Candidate)
    (backed : Backed place key (slot.noted.get env)) :
    Backed place key (slot.noted.get (w.traced.pipeline.reserve c env).2) ∧
      (c.key = key ∧ booked place key env.2 = none ∧
          booked place key (w.traced.pipeline.reserve c env).2.2 = some c ∨
        ((w.traced.pipeline.reserve c env).1.isSuccess = true → c.key ≠ key) ∧
          booked place key (w.traced.pipeline.reserve c env).2.2 = booked place key env.2) := by
  have noted := noted_reserve w.pipeline.reservations 0 c env
  have entered := entered_reserve h.lawful h.reservations c env.1
  have plain : (w.traced.pipeline.reserve c env).2.1 = (w.pipeline.reserve c env.1).2 :=
    (congrArg Prod.snd (simulates_reserve w.pipeline c env)).symm
  dsimp only at noted
  rw [show askInTurn ((tracedFrom 0 w.pipeline.reservations).map (·.2.reserve)) c env =
    w.traced.pipeline.reserve c env from rfl] at noted
  rw [show askInTurn (w.pipeline.reservations.map (·.2.reserve)) c env.1 =
    w.pipeline.reserve c env.1 from rfl, ← plain] at entered
  generalize acceptedBy _ c env.1 = k at noted entered
  generalize w.traced.pipeline.reserve c env = r at noted entered ⊢
  -- the place is asked if so many accepted before the first refusal
  have after : booked place key r.2.2 =
      if place < k ∧ c.key = key then some c else booked place key env.2 := by
    rcases noted with ⟨_, _, log⟩ | ⟨_, _, log⟩
    · rw [log, booked_append, foldl_accepted]
    · rw [log, booked_append, booked_append, foldl_accepted]
      simp [books]
  have all : r.1.isSuccess = true → place < k := by
    intro success
    rcases noted with ⟨_, all, _⟩ | ⟨refused, _⟩
    · rw [all]; exact h.place_lt
    · rw [refused] at success; cases success
  by_cases here : place < k ∧ c.key = key
  · obtain ⟨_, free, ledger⟩ | ⟨none, _⟩ := entered
    · have unbooked : booked place key env.2 = none := by
        rcases e : booked place key env.2 with _ | other
        · rfl
        · have : (slot.get env.1).isReserved key = true := backed other e
          rw [← here.2, free] at this
          cases this
      rw [if_pos here] at after
      refine ⟨fun c' _ => ?_, .inl ⟨here.2, unbooked, after⟩⟩
      show (slot.get r.2.1).isReserved key = true
      rw [ledger, Ledger.isReserved_reserve, here.2, beq_self_eq_true, Bool.true_or]
    · exact absurd ⟨place, here.1, h.quota⟩ none
  · rw [if_neg here] at after
    refine ⟨fun c' booking => ?_, .inr ⟨fun success same => here ⟨all success, same⟩, after⟩⟩
    have held : (slot.get env.1).isReserved key = true := backed c' (after.symm.trans booking)
    show (slot.get r.2.1).isReserved key = true
    obtain ⟨_, _, ledger⟩ | ⟨_, ledger⟩ := entered
    · rw [ledger, Ledger.isReserved_reserve, held, Bool.or_true]
    · rw [ledger, held]

/-- Giving back strikes the booking of the key, and no other. -/
theorem unreserve (h : w.Books slot place) (c : Candidate)
    (backed : Backed place key (slot.noted.get env)) :
    Backed place key (slot.noted.get (w.traced.pipeline.unreserve c env).2) ∧
      booked place key (w.traced.pipeline.unreserve c env).2.2 =
        if c.key = key then none else booked place key env.2 := by
  have noted := noted_unreserve w.pipeline.reservations 0 c env
  change (w.traced.pipeline.unreserve c env).2.2 = _ at noted
  have ledger : slot.get (w.traced.pipeline.unreserve c env).2.1 =
      (slot.get env.1).unreserve c := by
    have plain := congrArg Prod.snd (simulates_unreserve w.pipeline c env)
    rw [← h.ledger_unreserve c env.1, plain]
    rfl
  have after : booked place key (w.traced.pipeline.unreserve c env).2.2 =
      if c.key = key then none else booked place key env.2 := by
    rw [noted, booked_append, foldl_returned]
    simp [h.place_lt]
  refine ⟨fun c' booking => ?_, after⟩
  rw [show (slot.noted.get (w.traced.pipeline.unreserve c env).2).2 =
    (w.traced.pipeline.unreserve c env).2.2 from rfl, after] at booking
  split at booking
  · cases booking
  · rename_i other
    have held : (slot.get env.1).isReserved key = true := backed c' booking
    show (slot.get (w.traced.pipeline.unreserve c env).2.1).isReserved key = true
    rw [ledger, Ledger.isReserved_unreserve, held]
    simpa using other

end Wiring.Books

end JobAdmission
