/-
Waiting until a dispatcher is idle. Any number of dispatches and of calls that wait for every slot
to be free are made and looked at again, tasks finish in any order, and at any moment the dispatcher
may be closed. While it is open, a call that waits for every slot to be free returns when it is the
oldest one that waits and no task is under way, and so every task dispatched before has finished.
Closing lets such calls go at their next look whatever is under way.
-/
import JobAdmission.Dispatch.Dispatcher
import JobAdmission.Proofs.Dispatch.Permits
import JobAdmission.Proofs.Run

namespace JobAdmission

/-- What a call of a dispatcher is for. -/
inductive Errand where
  /-- A slot for a task. -/
  | task (number : Nat)
  /-- All slots, once so many dispatches had been called for. -/
  | idle (before : Nat)
deriving DecidableEq, Repr

namespace Errand

/-- How many slots a call asks for. -/
def need (limit : Nat) : Errand → Nat
  | task _ => 1
  | idle _ => limit

/-- The tasks that a call brings with it. -/
def tasks : Errand → List Nat
  | task number => [number]
  | idle _ => []

/-- Make a call. -/
def ask (d : Dispatcher Nat) : Errand → Acquisition × Dispatcher Nat
  | task number => d.dispatch number
  | idle _ => d.awaitIdle

/-- Look again at a call that waits. -/
def askAgain (d : Dispatcher Nat) (ticket : Nat) : Errand → Acquisition × Dispatcher Nat
  | task number => d.poll ticket number
  | idle _ => d.pollIdle ticket

end Errand

/-- One step of a dispatcher on its own. -/
inductive DispatchStep where
  | dispatch
  | awaitIdle
  /-- Look again at the call of a ticket. -/
  | look (ticket : Nat)
  /-- The task at a place is done. -/
  | finish (place : Nat)
  | close

/-- A dispatcher on its own, with what became of its calls. Dispatches are numbered in the order in
which they are called for, and so are their tasks. -/
structure DispatchBench where
  dispatcher : Dispatcher Nat
  /-- How many dispatches were called for. -/
  calls : Nat
  /-- The calls that wait, by their tickets, oldest first. -/
  waiting : List (Nat × Errand)
  accepted : List Nat
  finished : List Nat

namespace DispatchBench

def new (limit : Nat) : DispatchBench :=
  { dispatcher := .new limit, calls := 0, waiting := [], accepted := [], finished := [] }

/-- Make a call. -/
def begin (b : DispatchBench) (e : Errand) : DispatchBench :=
  match e.ask b.dispatcher with
  | (.granted, d) => { b with dispatcher := d, accepted := b.accepted ++ e.tasks }
  | (.waiting ticket, d) => { b with dispatcher := d, waiting := b.waiting ++ [(ticket, e)] }
  | (.refused, d) => { b with dispatcher := d }

/-- What the waiting call of a ticket is for. -/
def errand? (b : DispatchBench) (ticket : Nat) : Option Errand :=
  (b.waiting.find? (·.1 == ticket)).map (·.2)

/-- Look again at a call. -/
def resume (b : DispatchBench) (ticket : Nat) (e : Errand) : DispatchBench :=
  let others := b.waiting.filter (·.1 != ticket)
  match e.askAgain b.dispatcher ticket with
  | (.granted, d) =>
    { b with dispatcher := d, waiting := others, accepted := b.accepted ++ e.tasks }
  | (.waiting _, d) => { b with dispatcher := d }
  | (.refused, d) => { b with dispatcher := d, waiting := others }

def step (b : DispatchBench) : DispatchStep → DispatchBench
  | .dispatch => { b with calls := b.calls + 1 }.begin (.task b.calls)
  | .awaitIdle => b.begin (.idle b.calls)
  | .look ticket =>
    match b.errand? ticket with
    | some e => b.resume ticket e
    | none => b
  | .finish place =>
    match b.dispatcher.take? place with
    | some (number, d) =>
      { b with dispatcher := d.giveBack, finished := b.finished ++ [number] }
    | none => b
  | .close => { b with dispatcher := b.dispatcher.close }

def run (b : DispatchBench) (steps : List DispatchStep) : DispatchBench := steps.foldl step b

/-- A step at which a call for all slots, made when `n` dispatches had been called for, is told
something. -/
inductive Told (b : DispatchBench) : DispatchStep → Nat → Acquisition → Prop where
  | first : Told b .awaitIdle b.calls b.dispatcher.awaitIdle.1
  | again (ticket n : Nat) (waits : b.errand? ticket = some (.idle n)) :
      Told b (.look ticket) n (b.dispatcher.pollIdle ticket).1

/-- A step at which a call for all slots, made when `n` dispatches had been called for, returns. -/
def Returns (b : DispatchBench) (s : DispatchStep) (n : Nat) : Prop :=
  ∃ a, b.Told s n a ∧ ∀ ticket, a ≠ .waiting ticket

/-- Every task is done of the first `n` dispatches, as far as they were accepted. -/
def Done (b : DispatchBench) (n : Nat) : Prop := ∀ k ∈ b.accepted, k < n → k ∈ b.finished

/-- A step at which a call for all slots finds the dispatcher closed before the tasks dispatched
before the call are done. -/
def CutShort (b : DispatchBench) (s : DispatchStep) : Prop :=
  b.dispatcher.slots.closed = true ∧ ∃ n a, b.Told s n a ∧ ¬ b.Done n

/-- The call of a step is the oldest one that waits. -/
def Oldest (b : DispatchBench) : DispatchStep → Prop
  | .look ticket => b.waiting.head?.map (·.1) = some ticket
  | _ => b.waiting = []

end DispatchBench

/-! ## Calls of an open dispatcher -/

/-- An open dispatcher: every slot is free, given to a call, or taken by a task under way. -/
structure Dispatcher.Balanced (d : Dispatcher Nat) : Prop where
  slots : d.slots.Orderly
  pos : 0 < d.limit
  balance : d.slots.kept + d.tasks.length = d.limit

namespace Errand

open Semaphore

variable {d : Dispatcher Nat} {e : Errand}

theorem need_pos (pos : 0 < d.limit) (e : Errand) : 0 < e.need d.limit := by
  cases e with
  | task => exact Nat.one_pos
  | idle => exact pos

/-- What comes of a call. -/
inductive Asked (d : Dispatcher Nat) (e : Errand) : Acquisition × Dispatcher Nat → Prop where
  | granted (d' : Dispatcher Nat) (balanced : d'.Balanced) (limit : d'.limit = d.limit)
      (enough : e.need d.limit ≤ d.slots.free) (tasks : d'.tasks = d.tasks ++ e.tasks)
      (requests : d'.slots.requests = d.slots.requests) : Asked d e (.granted, d')
  | waiting (d' : Dispatcher Nat) (balanced : d'.Balanced) (limit : d'.limit = d.limit)
      (short : d.slots.free < e.need d.limit) (tasks : d'.tasks = d.tasks)
      (requests : d'.slots.requests =
        d.slots.requests ++ [(d.slots.nextTicket, e.need d.limit)]) :
      Asked d e (.waiting d.slots.nextTicket, d')

theorem asked (h : d.Balanced) (e : Errand) : Asked d e (e.ask d) := by
  have acquired := h.slots.acquire (e.need_pos h.pos)
  have balance := h.balance
  cases e with
  | task number =>
    unfold ask Dispatcher.dispatch
    change Acquired d.slots 1 (d.slots.acquire 1) at acquired
    generalize d.slots.acquire 1 = answer at acquired
    cases acquired with
    | granted t orderly enough kept requests =>
      refine .granted _ ⟨orderly, h.pos, ?_⟩ rfl enough rfl requests
      show t.kept + (d.tasks ++ [number]).length = d.limit
      rw [List.length_append, List.length_singleton]
      omega
    | waiting t orderly short kept requests =>
      exact .waiting _ ⟨orderly, h.pos, kept ▸ balance⟩ rfl short rfl requests
  | idle before =>
    unfold ask Dispatcher.awaitIdle
    change Acquired d.slots d.limit (d.slots.acquire d.limit) at acquired
    generalize d.slots.acquire d.limit = answer at acquired
    cases acquired with
    | granted t orderly enough kept requests =>
      obtain ⟨orderly', kept', requests'⟩ := orderly.release d.limit
      refine .granted _ ⟨orderly', h.pos, ?_⟩ rfl enough (List.append_nil _).symm
        (requests'.trans requests)
      show (t.release d.limit).kept + d.tasks.length = d.limit
      omega
    | waiting t orderly short kept requests =>
      exact .waiting _ ⟨orderly, h.pos, kept ▸ balance⟩ rfl short rfl requests

/-- What comes of another look at a call that waits. -/
inductive AskedAgain (d : Dispatcher Nat) (ticket : Nat) (e : Errand) :
    Acquisition × Dispatcher Nat → Prop where
  | granted (w : Waiter) (served : w ∈ d.slots.served) (mine : w.ticket = ticket)
      (d' : Dispatcher Nat) (balanced : d'.Balanced) (limit : d'.limit = d.limit)
      (tasks : d'.tasks = d.tasks ++ e.tasks)
      (requests : d'.slots.requests = d.slots.requests.filter (·.1 != ticket)) :
      AskedAgain d ticket e (.granted, d')
  | waiting (unserved : ∀ w ∈ d.slots.served, w.ticket ≠ ticket) :
      AskedAgain d ticket e (.waiting ticket, d)

theorem askedAgain (h : d.Balanced) (ticket : Nat)
    (need : ∀ r ∈ d.slots.requests, r.1 = ticket → r.2 = e.need d.limit) :
    AskedAgain d ticket e (e.askAgain d ticket) := by
  have polled := h.slots.poll ticket
  have balance := h.balance
  have mine_need : ∀ w ∈ d.slots.served, w.ticket = ticket → w.need = e.need d.limit :=
    fun w hw => need _ (List.mem_map.2 ⟨w, List.mem_append_left _ hw, rfl⟩)
  cases e with
  | task number =>
    unfold askAgain Dispatcher.poll
    generalize d.slots.poll ticket = answer at polled
    cases polled with
    | granted w served mine t orderly kept requests =>
      have one : w.need = 1 := mine_need w served mine
      refine .granted w served mine _ ⟨orderly, h.pos, ?_⟩ rfl rfl requests
      show t.kept + (d.tasks ++ [number]).length = d.limit
      rw [List.length_append, List.length_singleton]
      omega
    | waiting unserved => exact .waiting unserved
  | idle before =>
    unfold askAgain Dispatcher.pollIdle
    generalize d.slots.poll ticket = answer at polled
    cases polled with
    | granted w served mine t orderly kept requests =>
      have all : w.need = d.limit := mine_need w served mine
      obtain ⟨orderly', kept', requests'⟩ := orderly.release d.limit
      refine .granted w served mine _ ⟨orderly', h.pos, ?_⟩ rfl (List.append_nil _).symm
        (requests'.trans requests)
      show (t.release d.limit).kept + d.tasks.length = d.limit
      omega
    | waiting unserved => exact .waiting unserved

/-! ## Calls of a closed dispatcher -/

theorem ask_of_closed (closed : d.slots.closed = true) (e : Errand) : e.ask d = (.refused, d) := by
  have refused : ∀ need, d.slots.acquire need = (.refused, d.slots) := fun need => by
    unfold Semaphore.acquire
    rw [if_pos closed]
  cases e with
  | task number =>
    unfold ask Dispatcher.dispatch
    rw [refused]
    rfl
  | idle before =>
    unfold ask Dispatcher.awaitIdle
    rw [refused]

theorem askAgain_of_closed (closed : d.slots.closed = true) (ticket : Nat) (e : Errand) :
    ∃ d', e.askAgain d ticket = (.refused, d') ∧ d'.slots.closed = true := by
  obtain ⟨t, refused, still⟩ :
      ∃ t, d.slots.poll ticket = (.refused, t) ∧ t.closed = true := by
    unfold Semaphore.poll
    rw [if_pos closed]
    exact ⟨_, rfl, closed⟩
  cases e with
  | task number =>
    unfold askAgain Dispatcher.poll
    rw [refused]
    exact ⟨_, rfl, still⟩
  | idle before =>
    unfold askAgain Dispatcher.pollIdle
    rw [refused]
    exact ⟨_, rfl, still⟩

end Errand

namespace DispatchBench

open Semaphore

variable {b : DispatchBench} {s : DispatchStep} {n k : Nat} {e : Errand} {a : Acquisition}

/-! ## What an open bench keeps -/

/-- What holds of a bench as long as its dispatcher is open. -/
structure Sound (b : DispatchBench) : Prop extends b.dispatcher.Balanced where
  requests : b.dispatcher.slots.requests =
    b.waiting.map fun w => (w.1, w.2.need b.dispatcher.limit)
  accounted : ∀ k < b.calls, k ∈ b.accepted ∨ ∃ w ∈ b.waiting, w.2 = .task k
  underWay : ∀ k ∈ b.accepted, k ∈ b.finished ∨ k ∈ b.dispatcher.tasks
  /-- Dispatches called for after a call for all slots stand behind it. -/
  inOrder : b.waiting.Pairwise fun v w => ∀ n k, v.2 = .idle n → w.2 = .task k → n ≤ k
  past : ∀ w ∈ b.waiting, ∀ n, w.2 = .idle n → n ≤ b.calls

theorem sound_new (limit : Nat) : (new limit).Sound where
  slots := orderly_new _
  pos := Nat.lt_min.2 ⟨Nat.lt_of_lt_of_le Nat.one_pos (Nat.le_max_right _ _), by decide⟩
  balance := rfl
  requests := rfl
  accounted _ h := absurd h (Nat.not_lt_zero _)
  underWay _ h := by cases h
  inOrder := .nil
  past _ h := by cases h

theorem Sound.tickets (h : b.Sound) : b.waiting.Pairwise fun v w => v.1 < w.1 := by
  have increasing := h.slots.increasing
  rw [h.requests, List.pairwise_map] at increasing
  exact increasing

/-- A ticket leads to one call. -/
theorem Sound.find (h : b.Sound) {w : Nat × Errand} (hw : w ∈ b.waiting) :
    b.errand? w.1 = some w.2 := by
  obtain ⟨before, after, split⟩ := List.append_of_mem hw
  have tickets := h.tickets
  rw [split, List.pairwise_append] at tickets
  have earlier : before.find? (·.1 == w.1) = none := by
    refine List.find?_eq_none.2 fun v hv => ?_
    have := tickets.2.2 v hv w List.mem_cons_self
    simp only [beq_iff_eq]
    omega
  unfold errand?
  rw [split, List.find?_append, earlier, Option.none_or, List.find?_cons_of_pos (by simp),
    Option.map_some]

theorem mem_of_errand? {ticket : Nat} (there : b.errand? ticket = some e) :
    (ticket, e) ∈ b.waiting := by
  obtain ⟨w, found, rfl⟩ := Option.map_eq_some_iff.1 there
  have mine : w.1 = ticket := by simpa using List.find?_some found
  rw [← mine]
  exact List.mem_of_find?_eq_some found

theorem Sound.need (h : b.Sound) {ticket : Nat} (there : b.errand? ticket = some e) :
    ∀ r ∈ b.dispatcher.slots.requests, r.1 = ticket → r.2 = e.need b.dispatcher.limit := by
  rw [h.requests]
  intro r hr mine
  obtain ⟨w, hw, rfl⟩ := List.mem_map.1 hr
  have found := h.find hw
  rw [show w.1 = ticket from mine, there] at found
  cases found
  rfl

/-- A call is made, by which the dispatches up to some number have been called for. -/
theorem Sound.begin (h : b.Sound) {calls : Nat} (more : b.calls ≤ calls)
    (called : ∀ k < calls, b.calls ≤ k → k ∈ e.tasks) (task : ∀ k, e = .task k → b.calls ≤ k)
    (idle : ∀ n, e = .idle n → n ≤ calls) : ({ b with calls }.begin e).Sound := by
  have past : ∀ w ∈ b.waiting, ∀ n, w.2 = .idle n → n ≤ calls := fun w hw n is =>
    Nat.le_trans (h.past w hw n is) more
  have asked := Errand.asked h.toBalanced e
  unfold DispatchBench.begin
  dsimp only
  generalize e.ask b.dispatcher = answer at asked
  cases asked with
  | granted d balanced limit enough tasks requests =>
    refine ⟨balanced, ?_, fun k hk => ?_, fun k hk => ?_, h.inOrder, past⟩
    · show d.slots.requests = b.waiting.map fun w => (w.1, w.2.need d.limit)
      rw [requests, limit, h.requests]
    · rcases Nat.lt_or_ge k b.calls with old | new
      · exact (h.accounted k old).imp_left (List.mem_append_left _)
      · exact .inl (List.mem_append_right _ (called k hk new))
    · show k ∈ b.finished ∨ k ∈ d.tasks
      rw [tasks]
      rcases List.mem_append.1 hk with hk | hk
      · exact (h.underWay k hk).imp_right (List.mem_append_left _)
      · exact .inr (List.mem_append_right _ hk)
  | waiting d balanced limit short tasks requests =>
    refine ⟨balanced, ?_, fun k hk => ?_, fun k hk => ?_, ?_, fun w hw => ?_⟩
    · show d.slots.requests =
        (b.waiting ++ [(b.dispatcher.slots.nextTicket, e)]).map fun w => (w.1, w.2.need d.limit)
      rw [requests, limit, h.requests, List.map_append]
      rfl
    · rcases Nat.lt_or_ge k b.calls with old | new
      · exact (h.accounted k old).imp_right fun ⟨w, hw, is⟩ => ⟨w, List.mem_append_left _ hw, is⟩
      · refine .inr ⟨_, List.mem_append_right _ List.mem_cons_self, ?_⟩
        cases e with
        | task number => exact congrArg Errand.task (List.mem_singleton.1 (called k hk new)).symm
        | idle n => cases called k hk new
    · show k ∈ b.finished ∨ k ∈ d.tasks
      rw [tasks]
      exact h.underWay k hk
    · refine List.pairwise_append.2 ⟨h.inOrder, List.pairwise_singleton .., ?_⟩
      intro v hv w hw n k idle' task'
      cases List.mem_singleton.1 hw
      exact Nat.le_trans (h.past v hv n idle') (task k task')
    · rcases List.mem_append.1 hw with hw | hw
      · exact past w hw
      · cases List.mem_singleton.1 hw
        exact idle

theorem Sound.resume (h : b.Sound) {ticket : Nat} (there : b.errand? ticket = some e) :
    (b.resume ticket e).Sound := by
  have asked := Errand.askedAgain h.toBalanced ticket (h.need there)
  unfold DispatchBench.resume
  dsimp only
  generalize e.askAgain b.dispatcher ticket = answer at asked
  cases asked with
  | granted w served mine d balanced limit tasks requests =>
    refine ⟨balanced, ?_, fun k hk => ?_, fun k hk => ?_, h.inOrder.filter _,
      fun w hw => h.past w (List.mem_of_mem_filter hw)⟩
    · show d.slots.requests =
        (b.waiting.filter (·.1 != ticket)).map fun w => (w.1, w.2.need d.limit)
      rw [requests, limit, h.requests, List.filter_map]
      rfl
    · rcases h.accounted k hk with old | ⟨v, hv, is⟩
      · exact .inl (List.mem_append_left _ old)
      · by_cases this : v.1 = ticket
        · -- the task that waits under this ticket has its slot now
          have found := h.find hv
          rw [this, there, is] at found
          cases found
          exact .inl (List.mem_append_right _ List.mem_cons_self)
        · exact .inr ⟨v, List.mem_filter.2 ⟨hv, by simpa using this⟩, is⟩
    · show k ∈ b.finished ∨ k ∈ d.tasks
      rw [tasks]
      rcases List.mem_append.1 hk with hk | hk
      · exact (h.underWay k hk).imp_right (List.mem_append_left _)
      · exact .inr (List.mem_append_right _ hk)
  | waiting => exact ⟨h.toBalanced, h.requests, h.accounted, h.underWay, h.inOrder, h.past⟩

theorem Sound.finish (h : b.Sound) (place : Nat) : (b.step (.finish place)).Sound := by
  show (match b.dispatcher.take? place with
    | some (number, d) => { b with dispatcher := d.giveBack, finished := b.finished ++ [number] }
    | none => b : DispatchBench).Sound
  unfold Dispatcher.take?
  rcases e : b.dispatcher.tasks[place]? with _ | number
  · exact h
  · obtain ⟨orderly, kept, requests⟩ := h.slots.release 1
    obtain ⟨bound, is⟩ := List.getElem?_eq_some_iff.1 e
    refine ⟨⟨orderly, h.pos, ?_⟩, requests.trans h.requests, h.accounted, fun k hk => ?_,
      h.inOrder, h.past⟩
    · show (b.dispatcher.slots.release 1).kept + (b.dispatcher.tasks.eraseIdx place).length =
        b.dispatcher.limit
      have balance := h.balance
      rw [List.length_eraseIdx_of_lt bound]
      omega
    · show k ∈ b.finished ++ [number] ∨ k ∈ b.dispatcher.tasks.eraseIdx place
      rcases h.underWay k hk with done | there
      · exact .inl (List.mem_append_left _ done)
      · by_cases this : k = number
        · exact .inl (List.mem_append_right _ (List.mem_singleton.2 this))
        · refine .inr (List.mem_eraseIdx_iff_getElem?.2 ?_)
          obtain ⟨i, hi⟩ := List.getElem?_of_mem there
          refine ⟨i, fun same => this ?_, hi⟩
          rw [same, e] at hi
          exact (Option.some.inj hi).symm

theorem Sound.step (h : b.Sound) (other : s ≠ .close) : (b.step s).Sound := by
  cases s with
  | dispatch =>
    refine h.begin (Nat.le_succ _) (fun k hk hk' => ?_) (fun k is => ?_) fun n is => by cases is
    · exact List.mem_singleton.2 (Nat.le_antisymm (Nat.le_of_lt_succ hk) hk')
    · cases is
      exact Nat.le_refl _
  | awaitIdle =>
    refine h.begin (Nat.le_refl _) (fun k hk hk' => absurd hk (Nat.not_lt.2 hk'))
      (fun k is => by cases is) fun n is => ?_
    cases is
    exact Nat.le_refl _
  | look ticket =>
    show (match b.errand? ticket with | some e => b.resume ticket e | none => b).Sound
    rcases there : b.errand? ticket with _ | e
    · exact h
    · exact h.resume there
  | finish place => exact h.finish place
  | close => exact absurd rfl other

/-! ## A closed bench -/

theorem told_of_closed (closed : b.dispatcher.slots.closed = true) (told : b.Told s n a) :
    a = .refused := by
  cases told with
  | first => exact congrArg Prod.fst (Errand.ask_of_closed closed (.idle b.calls))
  | again ticket n waits =>
    obtain ⟨d, refused, -⟩ := Errand.askAgain_of_closed closed ticket (.idle n)
    exact congrArg Prod.fst refused

theorem closed_begin (closed : b.dispatcher.slots.closed = true) (e : Errand) :
    (b.begin e).dispatcher.slots.closed = true := by
  unfold DispatchBench.begin
  rw [Errand.ask_of_closed closed]
  exact closed

theorem closed_step (closed : b.dispatcher.slots.closed = true) (s : DispatchStep) :
    (b.step s).dispatcher.slots.closed = true := by
  cases s with
  | dispatch => exact closed_begin (b := { b with calls := b.calls + 1 }) closed _
  | awaitIdle => exact closed_begin closed _
  | look ticket =>
    show (match b.errand? ticket with
      | some e => b.resume ticket e
      | none => b).dispatcher.slots.closed = true
    rcases b.errand? ticket with _ | e
    · exact closed
    · obtain ⟨d, refused, still⟩ := Errand.askAgain_of_closed closed ticket e
      unfold DispatchBench.resume
      dsimp only
      rw [refused]
      exact still
  | finish place =>
    show (match b.dispatcher.take? place with
      | some (number, d) => { b with dispatcher := d.giveBack, finished := b.finished ++ [number] }
      | none => b : DispatchBench).dispatcher.slots.closed = true
    unfold Dispatcher.take?
    rcases b.dispatcher.tasks[place]? with _ | number
    · exact closed
    · show (b.dispatcher.slots.release 1).closed = true
      unfold Semaphore.release
      rw [if_pos closed]
      exact closed
  | close => rfl

/-- A bench whose dispatcher is open after a run is sound. -/
theorem sound_run (limit : Nat) (steps : List DispatchStep)
    (opened : ((new limit).run steps).dispatcher.slots.closed = false) :
    ((new limit).run steps).Sound := by
  induction steps using List.reverseRecOn with
  | nil => exact sound_new limit
  | append_singleton steps s ih =>
    unfold run at *
    rw [List.foldl_append] at *
    have before : (steps.foldl DispatchBench.step (new limit)).dispatcher.slots.closed = false := by
      by_contra closed
      rw [Bool.not_eq_false] at closed
      rw [show List.foldl DispatchBench.step _ [s] = DispatchBench.step _ s from rfl,
        closed_step closed s] at opened
      cases opened
    refine (ih before).step ?_
    rintro rfl
    cases opened

/-! ## Returning -/

/-- A call that waits is still there when it is told something, and nothing else changes. -/
theorem done_step (told : b.Told s n a) (k : Nat) : (b.step s).Done k ↔ b.Done k := by
  have same : (b.step s).accepted = b.accepted ∧ (b.step s).finished = b.finished := by
    cases told with
    | first =>
      show (b.begin (.idle b.calls)).accepted = _ ∧ (b.begin (.idle b.calls)).finished = _
      unfold DispatchBench.begin
      rcases (Errand.idle b.calls).ask b.dispatcher with ⟨_ | _ | _, d⟩
      · exact ⟨List.append_nil _, rfl⟩
      · exact ⟨rfl, rfl⟩
      · exact ⟨rfl, rfl⟩
    | again ticket n waits =>
      have resumed : b.step (.look ticket) = b.resume ticket (.idle n) := by
        show (match b.errand? ticket with | some e => b.resume ticket e | none => b) = _
        rw [waits]
      rw [resumed]
      unfold DispatchBench.resume
      dsimp only
      rcases (Errand.idle n).askAgain b.dispatcher ticket with ⟨_ | _ | _, d⟩
      · exact ⟨List.append_nil _, rfl⟩
      · exact ⟨rfl, rfl⟩
      · exact ⟨rfl, rfl⟩
  unfold Done
  rw [same.1, same.2]

theorem Sound.waiting_nil (h : b.Sound) : b.waiting = [] ↔ b.dispatcher.slots.waiters = [] := by
  have requests := h.requests
  unfold Semaphore.requests at requests
  constructor
  · intro none
    rw [none] at requests
    exact List.map_eq_nil_iff.1 requests
  · intro none
    rw [none] at requests
    exact List.map_eq_nil_iff.1 requests.symm

/-- At an open dispatcher a call for all slots is not refused. It gets them exactly if it is the
oldest call that waits and no task is under way. -/
theorem Sound.granted_iff (h : b.Sound) (told : b.Told s n a) :
    a ≠ .refused ∧ (a = .granted ↔ b.Oldest s ∧ b.dispatcher.tasks = []) := by
  have balance := h.balance
  cases told with
  | first =>
    have asked := Errand.asked h.toBalanced (.idle b.calls)
    change Errand.Asked _ _ b.dispatcher.awaitIdle at asked
    generalize b.dispatcher.awaitIdle = answer at asked
    cases asked with
    | granted d _ _ enough _ _ =>
      have enough : b.dispatcher.limit ≤ b.dispatcher.slots.free := enough
      have pos := h.pos
      have nobody := h.slots.nobody (by omega) (by omega)
      have free : b.dispatcher.slots.free ≤ b.dispatcher.slots.kept := Nat.le_add_right _ _
      refine ⟨by simp, iff_of_true rfl ⟨h.waiting_nil.2 nobody, List.eq_nil_of_length_eq_zero ?_⟩⟩
      omega
    | waiting d _ _ short _ _ =>
      refine ⟨by simp, iff_of_false (by simp) ?_⟩
      rintro ⟨oldest, tasks⟩
      have short : b.dispatcher.slots.free < b.dispatcher.limit := short
      have kept : b.dispatcher.slots.kept = b.dispatcher.slots.free := by
        unfold Semaphore.kept
        rw [h.waiting_nil.1 oldest]
        rfl
      rw [tasks, List.length_nil] at balance
      omega
  | again ticket n waits =>
    have asked := Errand.askedAgain h.toBalanced ticket (h.need waits)
    change Errand.AskedAgain _ _ _ (b.dispatcher.pollIdle ticket) at asked
    generalize b.dispatcher.pollIdle ticket = answer at asked
    have requests := h.requests
    cases asked with
    | granted w served mine d _ _ _ _ =>
      have all : w.need = b.dispatcher.limit :=
        h.need waits _ (List.mem_map.2 ⟨w, List.mem_append_left _ served, rfl⟩) mine
      have first := h.slots.alone served (by omega)
      have full := h.slots.served w served
      have given : w.got ≤ b.dispatcher.slots.kept :=
        Nat.le_trans (got_le_handed (List.mem_append_left _ served)) (Nat.le_add_left _ _)
      refine ⟨by simp, iff_of_true rfl ⟨?_, List.eq_nil_of_length_eq_zero (by omega)⟩⟩
      unfold Semaphore.requests at requests
      rw [first, List.map_cons] at requests
      show b.waiting.head?.map (·.1) = some ticket
      rcases waiting : b.waiting with _ | ⟨v, rest⟩
      · rw [waiting] at requests
        cases requests
      · rw [waiting, List.map_cons] at requests
        rw [List.head?_cons, Option.map_some, ← mine]
        exact congrArg some (congrArg Prod.fst (List.cons.inj requests).1).symm
    | waiting unserved =>
      refine ⟨by simp, iff_of_false (by simp) ?_⟩
      rintro ⟨oldest, tasks⟩
      have oldest : b.waiting.head?.map (·.1) = some ticket := oldest
      rcases waiting : b.waiting with _ | ⟨v, rest⟩
      · rw [waiting] at oldest
        cases oldest
      · rw [waiting] at oldest requests
        have mine : v.1 = ticket := Option.some.inj oldest
        unfold Semaphore.requests at requests
        rcases waiters : b.dispatcher.slots.waiters with _ | ⟨w, ws⟩
        · rw [waiters] at requests
          cases requests
        · rw [waiters, List.map_cons, List.map_cons] at requests
          have first := (List.cons.inj requests).1
          have ticket_eq : w.ticket = ticket := (congrArg Prod.fst first).trans mine
          have lacking := h.slots.lacking waiters fun served => unserved w served ticket_eq
          have all : w.need = b.dispatcher.limit :=
            h.need waits _ (List.mem_map.2 ⟨w, by rw [waiters]; exact List.mem_cons_self, rfl⟩)
              ticket_eq
          rw [tasks, List.length_nil] at balance
          omega

/-- When a call for all slots is the oldest one that waits, the dispatches called for before it have
been accepted, and with no task under way they are done. -/
theorem Sound.finished (h : b.Sound) (told : b.Told s n a) (oldest : b.Oldest s)
    (tasks : b.dispatcher.tasks = []) (hk : k < n) : k ∈ b.finished := by
  have done : k ∈ b.accepted → k ∈ b.finished := fun accepted =>
    (h.underWay k accepted).resolve_right (by rw [tasks]; simp)
  cases told with
  | first =>
    have oldest : b.waiting = [] := oldest
    rcases h.accounted k hk with accepted | ⟨w, hw, -⟩
    · exact done accepted
    · rw [oldest] at hw
      cases hw
  | again ticket n waits =>
    have oldest : b.waiting.head?.map (·.1) = some ticket := oldest
    have hw := mem_of_errand? waits
    rcases h.accounted k (Nat.lt_of_lt_of_le hk (h.past _ hw n rfl)) with accepted | ⟨v, hv, is⟩
    · exact done accepted
    · -- a dispatch that still waits would stand behind the call, so it was called for after it
      have inOrder := h.inOrder
      have found := h.find hv
      rcases waiting : b.waiting with _ | ⟨first, rest⟩
      · rw [waiting] at hv
        cases hv
      · rw [waiting] at oldest hv inOrder
        have mine : first.1 = ticket := Option.some.inj oldest
        have listed : first ∈ b.waiting := by
          rw [waiting]
          exact List.mem_cons_self
        have same := h.find listed
        rw [mine, waits] at same
        have idle : first.2 = .idle n := (Option.some.inj same).symm
        rcases List.mem_cons.1 hv with rfl | later
        · rw [idle] at is
          cases is
        · have := (List.pairwise_cons.1 inOrder).1 v later n k idle is
          omega

theorem Sound.returns_iff (h : b.Sound) (told : b.Told s n a) :
    b.Returns s n ↔ b.Oldest s ∧ b.dispatcher.tasks = [] := by
  constructor
  · rintro ⟨a', told', returned⟩
    obtain ⟨not_refused, granted⟩ := h.granted_iff told'
    cases a' with
    | granted => exact granted.1 rfl
    | waiting ticket => exact absurd rfl (returned ticket)
    | refused => exact absurd rfl not_refused
  · intro ready
    have granted := (h.granted_iff told).2.2 ready
    exact ⟨a, told, by rw [granted]; simp⟩

/-- In every run of a dispatcher, each call that waits for all slots returns only when every task
dispatched before it is done, exactly if no such call finds the dispatcher closed before they are.
As long as the dispatcher is open, a call returns exactly when it is the oldest one that waits and
no task is under way, and then every dispatch called for before it was accepted and is done. -/
theorem returns_when_done_iff (limit : Nat) (steps : List DispatchStep) :
    ((∀ done s n, done ++ [s] <+: steps → ((new limit).run done).Returns s n →
        ((new limit).run (done ++ [s])).Done n) ↔
      ∀ done s, done ++ [s] <+: steps → ¬ ((new limit).run done).CutShort s) ∧
    ∀ done s n a, done ++ [s] <+: steps →
      ((new limit).run done).dispatcher.slots.closed = false →
      ((new limit).run done).Told s n a →
      (((new limit).run done).Returns s n ↔
        ((new limit).run done).Oldest s ∧ ((new limit).run done).dispatcher.tasks = []) ∧
      (((new limit).run done).Returns s n →
        ∀ k < n, k ∈ ((new limit).run done).finished) := by
  have while_open : ∀ done s n a, ((new limit).run done).dispatcher.slots.closed = false →
      ((new limit).run done).Told s n a → ((new limit).run done).Returns s n →
      ∀ k < n, k ∈ ((new limit).run done).finished := by
    intro done s n a opened told returned k hk
    have sound := sound_run limit done opened
    obtain ⟨oldest, tasks⟩ := (sound.returns_iff told).1 returned
    exact sound.finished told oldest tasks hk
  refine ⟨⟨fun all done s hp => ?_, fun never done s n hp returned => ?_⟩,
    fun done s n a _ opened told =>
      ⟨(sound_run limit done opened).returns_iff told, while_open done s n a opened told⟩⟩
  · rintro ⟨closed, n, a, told, early⟩
    have refused := told_of_closed closed told
    have after := all done s n hp ⟨a, told, by rw [refused]; simp⟩
    rw [run, List.foldl_append] at after
    exact early ((done_step told n).1 after)
  · obtain ⟨a, told, -⟩ := id returned
    rw [run, List.foldl_append]
    refine (done_step told n).2 ?_
    rcases closed : ((new limit).run done).dispatcher.slots.closed with _ | _
    · exact fun k _ hk => while_open done s n a closed told returned k hk
    · by_contra early
      exact never done s hp ⟨closed, n, a, told, early⟩

/-- One task is dispatched, and the dispatcher is closed: a call for all slots returns while the
task is under way. -/
theorem returns_before_done_when_closed :
    ((new 1).run [.dispatch, .close]).Returns .awaitIdle 1 ∧
      ¬ ((new 1).run [.dispatch, .close, .awaitIdle]).Done 1 := by
  have accepted : ((new 1).run [.dispatch, .close, .awaitIdle]).accepted = [0] := by decide
  have finished : ((new 1).run [.dispatch, .close, .awaitIdle]).finished = [] := by decide
  refine ⟨⟨.refused, .first, by simp⟩, fun done => ?_⟩
  have := done 0 (by rw [accepted]; exact List.mem_cons_self) Nat.one_pos
  rw [finished] at this
  cases this

end DispatchBench

end JobAdmission
