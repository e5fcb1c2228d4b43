/-
Who holds what of the ledger of a scheduler with the standard plugins. Whatever happens to the
scheduler comes down to one of a few entries in its account, which is the ledger together with the
calls that were made of it (`entry_happen`). The entries keep the account in order: each of those
under way holds what it was booked with, and a return gives back what was booked (`Tallies`). So the
ledger is in balance, and it stays so when one of them is given back.
-/
import JobAdmission.Proofs.Quota.Balance
import JobAdmission.Proofs.Scheduler.Admission
import JobAdmission.Proofs.Scheduler.Standard

namespace JobAdmission

variable {E : Type}

/-! ## The account -/

/-- A ledger, and the calls that were made of it. -/
abbrev Account := Ledger × List Asked

namespace Account

/-- A reservation is asked for. -/
def reserve (a : Account) (c : Candidate) : Account :=
  ((a.1.reserve c).2, a.2 ++ [.reserve 0 c (a.1.reserve c).1.isSuccess])

/-- A reservation is given back. -/
def unreserve (a : Account) (c : Candidate) : Account :=
  (a.1.unreserve c, a.2 ++ [.unreserve 0 c])

end Account

/-- A wiring with the standard plugins, in which nothing else touches the ledger. -/
structure Wiring.InTree (w : Wiring E) (slot : LedgerSlot E) (quotas : QuotaListing E) : Prop where
  pipeline : ∃ env, (Pipeline.build (inTreeCatalog (QuotaPlugin.factory slot)) quotas
    standardPlugins env).1 = .ok w.pipeline
  lawful : slot.Lawful
  get : ∀ ns name, slot.Kept (w.client.get ns name)
  update : ∀ job, slot.Kept (w.client.update job)
  notify : ∀ routes, w.routes = some routes → ∀ job, slot.Kept (routes.notifyDequeued job)

namespace Wiring.InTree

open Pipeline

variable {w : Wiring E} {slot : LedgerSlot E} {quotas : QuotaListing E}

theorem standard (inTree : w.InTree slot quotas) : w.pipeline = .standard slot quotas := by
  obtain ⟨env, built⟩ := inTree.pipeline
  rw [build_standard] at built
  exact (Except.ok.inj built).symm

theorem books (inTree : w.InTree slot quotas) : w.Books slot 0 where
  lawful := inTree.lawful
  filters f hf c := by
    rw [inTree.standard] at hf
    rw [List.mem_singleton.1 hf]
    exact fun _ => rfl
  reservations r hr := by
    rw [inTree.standard] at hr
    exact .inl (by rw [List.mem_singleton.1 hr])
  get := inTree.get
  quota := ⟨QuotaPlugin.name, by rw [inTree.standard]; rfl⟩
  update := inTree.update
  notify := inTree.notify

/-- All there is to a reservation is the call of the ledger. -/
theorem reserve (inTree : w.InTree slot quotas) (c : Candidate) (env : E × List Asked) :
    slot.noted.get (w.traced.pipeline.reserve c env).2 = Account.reserve (slot.noted.get env) c ∧
      (w.traced.pipeline.reserve c env).1.isSuccess = !(slot.get env.1).isReserved c.key := by
  have asked : w.traced.pipeline.reserve c env =
      askInTurn [((QuotaPlugin.booking slot).traced 0).reserve] c env := by
    show w.pipeline.traced.reserve c env = _
    rw [inTree.standard]
    rfl
  have accepts := isSuccess_booking slot c env.1
  have ledger : slot.get ((QuotaPlugin.booking slot).reserve c env.1).2 =
      ((slot.get env.1).reserve c).2 := inTree.lawful _ env.1
  rw [asked, askInTurn_cons]
  split
  · rename_i accepted
    exact ⟨Prod.ext ledger rfl, accepted.symm.trans accepts⟩
  · exact ⟨Prod.ext ledger rfl, accepts⟩

theorem unreserve (inTree : w.InTree slot quotas) (c : Candidate) (env : E × List Asked) :
    slot.noted.get (w.traced.pipeline.unreserve c env).2 =
      Account.unreserve (slot.noted.get env) c := by
  have asked : w.traced.pipeline.unreserve c env =
      askAll [((QuotaPlugin.booking slot).traced 0).unreserve] c env := by
    show w.pipeline.traced.unreserve c env = _
    rw [inTree.standard]
    rfl
  rw [asked]
  exact Prod.ext (inTree.lawful _ env.1) rfl

end Wiring.InTree

/-! ## Entries -/

/-- What something that happens leaves of the account and of the candidates under way. -/
inductive Entry (a : Account) (cs : List Candidate) : Account → List Candidate → Prop where
  /-- Nothing is asked. Some of those under way may be done with. -/
  | quiet (done cs' : List Candidate) (rest : cs.Perm (done ++ cs')) : Entry a cs a cs'
  /-- A reservation is asked for, and nobody is under way with it. -/
  | asked (c : Candidate) : Entry a cs (a.reserve c) cs
  /-- A candidate is reserved and under way. -/
  | cleared (c : Candidate) (free : a.1.isReserved c.key = false) (cs' : List Candidate)
      (gain : (c :: cs).Perm cs') : Entry a cs (a.reserve c) cs'
  /-- A candidate is reserved and given back at once. -/
  | undone (c : Candidate) (free : a.1.isReserved c.key = false) :
      Entry a cs ((a.reserve c).unreserve c) cs
  /-- One of those under way is given back. -/
  | returned (c : Candidate) (cs' : List Candidate) (loss : cs.Perm (c :: cs')) :
      Entry a cs (a.unreserve c) cs'

section

open Scheduling

variable {w : Wiring E} {slot : LedgerSlot E} {quotas : QuotaListing E} {c : Candidate}
  {s t : SchedulerState (E × List Asked)}

/-- A candidate in hand is under way after its dispatch, or given back. -/
theorem DispatchExit.account {o : Outcome} (exit : DispatchExit w.traced c s o t)
    (inTree : w.InTree slot quotas) (free : s.suspended = none) :
    slot.noted.get t.env = slot.noted.get s.env ∧ (c :: s.underway).Perm t.underway ∨
      slot.noted.get t.env = Account.unreserve (slot.noted.get s.env) c ∧
        t.underway = s.underway := by
  have none := s.underway_free free
  cases exit with
  | blocked _ env _ _ tasks suspended =>
    obtain ⟨ticket, suspended⟩ := suspended
    refine .inl ⟨by rw [env], ?_⟩
    rw [none]
    unfold SchedulerState.underway
    rw [tasks, suspended]
    exact (List.perm_append_singleton c _).symm
  | confirming _ env _ _ tasks suspended =>
    refine .inl ⟨by rw [env], ?_⟩
    rw [none, t.underway_free (suspended.trans free), tasks]
    exact (List.perm_append_singleton c _).symm
  | undone u _ env _ _ tasks suspended retried =>
    refine .inr ⟨?_, ?_⟩
    · rw [inTree.books.spares.traced.retried retried, env]
      exact inTree.unreserve c s.env
    · rw [retried.underway, u.underway_free (suspended.trans free), none, tasks]

/-- A confirmation puts the admission on record, or gives the candidate back. -/
theorem ConfirmExit.account (exit : ConfirmExit w.traced c s t) (inTree : w.InTree slot quotas) :
    (∃ admitted env, recordAdmission w.traced.client c.job s.env = (.ok admitted, env)) ∧
        slot.noted.get t.env = slot.noted.get s.env ∨
      slot.noted.get t.env = Account.unreserve (slot.noted.get s.env) c := by
  have spares := inTree.books.spares.traced
  cases exit with
  | recorded admitted env env' trail ok told =>
    exact .inl ⟨⟨admitted, env, ok⟩, (spares.told told).trans (spares.put ok)⟩
  | gone e env trail failed missing =>
    refine .inr ?_
    rw [← spares.put failed]
    exact inTree.unreserve c env
  | undone e env _ failed refusal retried =>
    refine .inr ?_
    rw [spares.retried retried, ← spares.put failed]
    exact inTree.unreserve c env

namespace Scheduling

theorem entry_cycle (inTree : w.InTree slot quotas) (s : SchedulerState (E × List Asked)) :
    Entry (slot.noted.get s.env) s.underway (slot.noted.get (cycle w.traced s).2.env)
      (cycle w.traced s).2.underway := by
  have spares := inTree.books.spares.traced
  have exit := cycle_exit w.traced s
  generalize (cycle w.traced s).1 = o, (cycle w.traced s).2 = t at exit ⊢
  cases exit with
  | idle => exact .quiet [] _ .rfl
  | unfiltered _ c queues v env _ _ filter _ retried =>
    rw [spares.retried retried, retried.underway, spares.filtered filter]
    exact .quiet [] _ .rfl
  | refused _ c queues v v' env env' _ _ filter _ reserve _ retried =>
    have entered := (inTree.reserve c env).1
    rw [reserve, spares.filtered filter] at entered
    rw [spares.retried retried, retried.underway, entered]
    exact .asked c
  | reserved free c queues v v' env env' _ _ _ filter _ reserve pass exit =>
    obtain ⟨entered, accepts⟩ := inTree.reserve c env
    rw [reserve] at entered accepts
    have unheld : (slot.noted.get env).1.isReserved c.key = false :=
      (Bool.not_eq_true' _).mp (accepts.symm.trans pass)
    rw [spares.filtered filter] at entered unheld
    rcases exit.account inTree free with ⟨account, gain⟩ | ⟨account, same⟩
    · rw [account, entered]
      exact .cleared c unheld _ gain
    · rw [account, same, entered]
      exact .undone c unheld
  | resumed c ticket held _ _ exit =>
    -- the candidate of the suspended cycle is in hand again
    have loss : s.underway.Perm (c :: { s with suspended := none }.underway) := by
      rw [SchedulerState.underway_free (s := { s with suspended := none }) rfl]
      unfold SchedulerState.underway
      rw [held]
      exact List.perm_append_singleton c _
    rcases exit.account inTree rfl with ⟨account, gain⟩ | ⟨account, same⟩
    · rw [account]
      exact .quiet [] _ (loss.trans gain)
    · rw [account, same]
      exact .returned c _ loss

/-- A candidate whose confirmation is done is under way no more. Its admission is on record, or it
is given back. -/
theorem account_confirmAt (inTree : w.InTree slot quotas) {place : Nat}
    (task : s.dispatcher.tasks[place]? = some c) :
    s.underway.Perm (c :: (confirmAt w.traced place s).2.underway) ∧
      ((∃ admitted env, recordAdmission w.traced.client c.job s.env = (.ok admitted, env)) ∧
          slot.noted.get (confirmAt w.traced place s).2.env = slot.noted.get s.env ∨
        slot.noted.get (confirmAt w.traced place s).2.env =
          Account.unreserve (slot.noted.get s.env) c) := by
  obtain ⟨bound, rfl⟩ := List.getElem?_eq_some_iff.1 task
  rcases confirmAt_exit w.traced place s with ⟨none, _⟩ | ⟨c, dispatcher, t, taken, exit, same⟩
  · cases task.symm.trans (Option.map_eq_none_iff.1 none)
  · obtain ⟨_, task', e⟩ := Option.map_eq_some_iff.1 taken
    cases e
    cases task.symm.trans task'
    rw [same]
    refine ⟨?_, exit.account inTree⟩
    show s.underway.Perm (_ :: t.underway)
    rw [exit.underway]
    exact (List.getElem_cons_eraseIdx_perm bound).symm.append_right _

theorem entry_confirmAt (inTree : w.InTree slot quotas) (place : Nat)
    (s : SchedulerState (E × List Asked)) :
    Entry (slot.noted.get s.env) s.underway (slot.noted.get (confirmAt w.traced place s).2.env)
      (confirmAt w.traced place s).2.underway := by
  rcases task : s.dispatcher.tasks[place]? with _ | c
  · have idle : s.dispatcher.take? place = none := Option.map_eq_none_iff.2 task
    rcases confirmAt_exit w.traced place s with ⟨_, same⟩ | ⟨_, _, _, taken, _⟩
    · rw [same]
      exact .quiet [] _ .rfl
    · cases idle.symm.trans taken
  · obtain ⟨loss, ⟨_, account⟩ | account⟩ := account_confirmAt inTree task
    · rw [account]
      exact .quiet [c] _ loss
    · rw [account]
      exact .returned c _ loss

/-- Whatever happens is an entry, if no event gives a reservation back. -/
theorem entry_happen (inTree : w.InTree slot quotas) {x : Happening E}
    (leaves : x.LeavesLedger slot) (s : SchedulerState (E × List Asked)) :
    Entry (slot.noted.get s.env) s.underway (slot.noted.get (happen w.traced s x.traced).env)
      (happen w.traced s x.traced).underway := by
  cases x with
  | job event =>
    have fed := applyJobEvent_fed w.traced event s
    show Entry _ _ (slot.noted.get (applyJobEvent w.traced event s).2.env)
      (applyJobEvent w.traced event s).2.underway
    have same : (applyJobEvent w.traced event s).2.underway = s.underway := by
      unfold SchedulerState.underway
      rw [fed.dispatcher, fed.suspended]
    rw [same]
    obtain env | ⟨c, env⟩ | ⟨back, _⟩ := fed.env
    · rw [env]
      exact .quiet [] _ .rfl
    · rw [env, (inTree.reserve c s.env).1]
      exact .asked c
    · exact absurd back leaves
  | queue event =>
    obtain ⟨queues, same⟩ := applyQueueEvent_queues event s
    show Entry _ _ (slot.noted.get (applyQueueEvent event s).2.env)
      (applyQueueEvent event s).2.underway
    rw [same]
    exact .quiet [] _ .rfl
  | cycle => exact entry_cycle inTree s
  | confirm place => exact entry_confirmAt inTree place s
  | world change =>
    have same : slot.noted.get (happen w.traced s (Happening.world change).traced).env =
      slot.noted.get s.env := Prod.ext (leaves s.env.1) rfl
    rw [same]
    exact .quiet [] _ .rfl
  | _ => exact .quiet [] _ .rfl

end Scheduling

end

/-! ## An account in order -/

/-- The call of a ledger that was made. -/
def Asked.call : Asked → LedgerCall
  | reserve _ c _ => .reserve c
  | unreserve _ c => .unreserve c

/-- What some calls amount to, with what the accepted reservation of each key carried. -/
def tally (asked : List Asked) : Bookings := asked.foldl (fun b x => b.step x.call) .new

theorem tally_concat (asked : List Asked) (x : Asked) :
    tally (asked ++ [x]) = (tally asked).step x.call := List.foldl_concat ..

/-- Each of those under way holds what it was booked with, under a key of its own, and every return
so far gave back what was booked. -/
structure Account.Tallies (a : Account) (cs : List Candidate) : Prop where
  ledger : (tally a.2).ledger = a.1
  held : a.1.Holds cs
  carried : ∀ c ∈ cs, (tally a.2).carried.get? c.key = some c
  inOrder : ∀ done x, done ++ [x] <+: a.2 → (tally done).InOrder x.call

namespace Account.Tallies

open Bookings

variable {a : Account} {c : Candidate} {cs cs' done : List Candidate}

theorem start : Tallies (.empty, []) [] where
  ledger := rfl
  held := Ledger.holds_nil _
  carried _ hc := by cases hc
  inOrder done x hp := absurd (List.prefix_nil.1 hp) (by simp)

theorem perm (h : Tallies a cs) (p : cs.Perm cs') : Tallies a cs' :=
  ⟨h.ledger, h.held.perm p, fun c hc => h.carried c (p.mem_iff.2 hc), h.inOrder⟩

theorem drop (h : Tallies a (done ++ cs)) : Tallies a cs where
  ledger := h.ledger
  held := {
    distinct := ((List.sublist_append_right done cs).map _).nodup h.held.distinct
    reserved := fun c hc => h.held.reserved c (List.mem_append_right _ hc) }
  carried c hc := h.carried c (List.mem_append_right _ hc)
  inOrder := h.inOrder

/-- Calls in order are so with one more that is in order. -/
theorem inOrder_concat (h : Tallies a cs) {y : Asked} (last : (tally a.2).InOrder y.call) :
    ∀ done x, done ++ [x] <+: a.2 ++ [y] → (tally done).InOrder x.call := by
  intro done x hp
  rcases List.prefix_concat_iff.1 hp with e | hp
  · obtain ⟨all, e⟩ := List.append_inj' e rfl
    cases e
    rw [all]
    exact last
  · exact h.inOrder done x hp

theorem carried_reserve (h : Tallies a cs) (c : Candidate) (key : String) :
    (tally (a.reserve c).2).carried.get? key =
      if a.1.isReserved c.key = false ∧ c.key = key then some c
      else (tally a.2).carried.get? key := by
  show (tally (a.2 ++ [Asked.reserve 0 c _])).carried.get? key = _
  rw [tally_concat]
  show (if ((tally a.2).ledger.reserve c).1.isSuccess then _ else _ : NameMap _).get? key = _
  rw [h.ledger, Ledger.isSuccess_reserve]
  cases a.1.isReserved c.key with
  | true => simp
  | false => simp [NameMap.get?_insert]

theorem reserve (h : Tallies a cs) (c : Candidate) : Tallies (a.reserve c) cs where
  ledger := by
    show (tally (a.2 ++ [Asked.reserve 0 c _])).ledger = (a.1.reserve c).2
    rw [tally_concat, ← h.ledger]
    rfl
  held := h.held.grown fun key reserved => by
    show (a.1.reserve c).2.isReserved key = true
    rw [Ledger.isReserved_reserve, reserved, Bool.or_true]
  carried other ho := by
    rw [h.carried_reserve, if_neg, h.carried other ho]
    rintro ⟨free, same⟩
    rw [same, h.held.reserved other ho] at free
    cases free
  inOrder := h.inOrder_concat trivial

theorem enter (h : Tallies a cs) (free : a.1.isReserved c.key = false) :
    Tallies (a.reserve c) (c :: cs) where
  ledger := (h.reserve c).ledger
  held := h.held.reserve free
  carried other ho := by
    rcases List.mem_cons.1 ho with rfl | ho
    · rw [h.carried_reserve, if_pos ⟨free, rfl⟩]
    · exact (h.reserve c).carried other ho
  inOrder := (h.reserve c).inOrder

theorem unreserve (h : Tallies a (c :: cs)) : Tallies (a.unreserve c) cs where
  ledger := by
    show (tally (a.2 ++ [Asked.unreserve 0 c])).ledger = a.1.unreserve c
    rw [tally_concat, ← h.ledger]
    rfl
  held := h.held.unreserve
  carried other ho := by
    show (tally (a.2 ++ [Asked.unreserve 0 c])).carried.get? other.key = some other
    rw [tally_concat]
    exact h.carried other (List.mem_cons_of_mem _ ho)
  inOrder := h.inOrder_concat fun _ ns resource => .inl <| by
    unfold share
    rw [h.carried c List.mem_cons_self]
    rfl

end Account.Tallies

section

variable {a a' : Account} {c : Candidate} {cs cs' : List Candidate}

theorem Entry.tallies (entry : Entry a cs a' cs') (h : a.Tallies cs) : a'.Tallies cs' := by
  cases entry with
  | quiet done _ rest => exact (h.perm rest).drop
  | asked c => exact h.reserve c
  | cleared c free _ gain => exact (h.enter free).perm gain
  | undone c free => exact (h.enter free).unreserve
  | returned c _ loss => exact (h.perm loss).unreserve

/-- Nobody gives back the key of one who stays under way. -/
theorem Entry.spares (entry : Entry a cs a' cs') (h : a.Tallies cs) (before : c ∈ cs)
    (after : c ∈ cs') :
    ∃ more, a'.2 = a.2 ++ more ∧ ∀ c', .unreserve 0 c' ∈ more → c'.key ≠ c.key := by
  cases entry with
  | quiet => exact ⟨[], (List.append_nil _).symm, fun _ hm => by cases hm⟩
  | asked c => exact ⟨_, rfl, fun _ hm => by cases List.mem_singleton.1 hm⟩
  | cleared c free _ gain => exact ⟨_, rfl, fun _ hm => by cases List.mem_singleton.1 hm⟩
  | undone c' free =>
    refine ⟨_, List.append_assoc .., fun c'' hm same => ?_⟩
    have : c'' = c' := by simpa using hm
    rw [← this, same, h.held.reserved c before] at free
    cases free
  | returned c' _ loss =>
    refine ⟨_, rfl, fun c'' hm same => ?_⟩
    have : c'' = c' := by simpa using hm
    have distinct := (h.held.perm loss).distinct
    rw [List.map_cons, List.nodup_cons, ← this, same] at distinct
    exact distinct.1 (List.mem_map_of_mem after)

namespace Account.Tallies

open Bookings

/-- An account in order is in balance. -/
theorem balanced (h : a.Tallies cs) (nonneg : ∀ x ∈ a.2, x.call.candidate.job.resources.Nonneg)
    (fits : ∀ done, done <+: a.2 → ∀ ns resource,
      Quantity.Fits ((tally done).booked ns resource)) :
    (tally a.2).Sound ∧ (tally a.2).Balanced := by
  refine holds_along (P := fun b : Bookings => b.Sound ∧ b.Balanced) ⟨sound_new, fun _ _ => rfl⟩
    (fun done x hp ⟨sound, balanced⟩ => ?_) a.2 List.prefix_rfl
  have given := nonneg x (hp.subset (List.mem_append_right done List.mem_cons_self))
  have fits := fits _ hp
  rw [tally_concat] at fits
  exact ⟨sound.step given, (balanced_step_iff sound balanced given fits).2 (h.inOrder done x hp)⟩

/-- Giving back one of those under way takes off what it was booked with, so that what the others
were booked with is left. -/
theorem balanced_unreserve (h : a.Tallies (c :: cs)) (sound : (tally a.2).Sound)
    (balanced : (tally a.2).Balanced) :
    (∀ ns resource,
      (a.unreserve c).1.total ns resource = a.1.total ns resource - c.asks ns resource) ∧
      (tally (a.unreserve c).2).Balanced := by
  have booking := h.carried c List.mem_cons_self
  have nonneg := sound.carried c.key c booking
  have held : (tally a.2).ledger.isReserved c.key = true := by
    rw [h.ledger]
    exact h.held.reserved c List.mem_cons_self
  have last : tally (a.unreserve c).2 = (tally a.2).step (.unreserve c) := tally_concat ..
  have one : ∀ ns resource,
      a.1.total ns resource = c.asks ns resource + (tally (a.unreserve c).2).booked ns resource ∧
      (a.unreserve c).1.total ns resource = (tally (a.unreserve c).2).booked ns resource := by
    intro ns resource
    have split := booked_unreserve held ns resource
    have share : (tally a.2).share c.key ns resource = c.asks ns resource := by
      unfold Bookings.share
      rw [booking]
      rfl
    have rest := (sound.step (show (LedgerCall.unreserve c).candidate.job.resources.Nonneg from
      nonneg)).booked_nonneg ns resource
    have left := Ledger.total_unreserve sound.inRange nonneg held ns resource
    rw [← last] at split rest
    rw [share, ← balanced ns resource, h.ledger] at split
    rw [h.ledger] at left
    refine ⟨split, ?_⟩
    show (a.1.unreserve c).total ns resource = _
    rw [left]
    omega
  constructor
  · intro ns resource
    have := one ns resource
    omega
  · intro ns resource
    rw [h.unreserve.ledger]
    exact (one ns resource).2

end Account.Tallies

end

/-! ## Runs -/

namespace Scheduling

variable {w : Wiring E} {slot : LedgerSlot E} {quotas : QuotaListing E} {c : Candidate}
  {s : SchedulerState E}

theorem underway_traced (w : Wiring E) (s : SchedulerState E) (run : List (Happening E)) :
    (afterTraced w s run).underway = (after w s run).underway := by
  rw [← after_traced]
  rfl

theorem ledger_traced (slot : LedgerSlot E) (w : Wiring E) (s : SchedulerState E)
    (run : List (Happening E)) :
    (slot.noted.get (afterTraced w s run).env).1 = slot.get (after w s run).env := by
  rw [← after_traced]
  rfl

/-- The account after a run that started with nothing reserved is in order. -/
theorem tallies_after (inTree : w.InTree slot quotas) (blank : slot.get s.env = .empty)
    (idle : s.underway = []) {run : List (Happening E)}
    (leaves : ∀ x ∈ run, x.LeavesLedger slot) :
    Account.Tallies (slot.noted.get (afterTraced w s run).env) (after w s run).underway := by
  -- from the end: the last thing that happened is an entry in an account in order
  induction run using List.reverseRecOn with
  | nil =>
    have account : slot.noted.get (afterTraced w s []).env = (.empty, []) := Prod.ext blank rfl
    rw [account, show (after w s []).underway = [] from idle]
    exact .start
  | append_singleton run x ih =>
    have before := ih fun x hx => leaves x (List.mem_append_left _ hx)
    rw [← underway_traced] at before ⊢
    rw [afterTraced_concat]
    exact (entry_happen inTree (leaves x (List.mem_append_right _ List.mem_cons_self)) _).tallies
      before

/-- Whoever is under way was cleared by a cycle of the run, and its key was not given back since. -/
theorem unreturned_since_cleared (inTree : w.InTree slot quotas) (blank : slot.get s.env = .empty)
    (idle : s.underway = []) {run : List (Happening E)}
    (leaves : ∀ x ∈ run, x.LeavesLedger slot) (under : c ∈ (after w s run).underway) :
    ∃ done rest since, run = done ++ .cycle :: rest ∧ Cleared w (after w s done) c ∧
      calls w s run = calls w s (done ++ [.cycle]) ++ since ∧
      ∀ c', .unreserve 0 c' ∈ since → c'.key ≠ c.key := by
  -- from the end: it was under way before the last thing that happened, or that cleared it
  induction run using List.reverseRecOn with
  | nil =>
    rw [show (after w s []).underway = [] from idle] at under
    cases under
  | append_singleton run x ih =>
    have leavesBefore : ∀ x ∈ run, x.LeavesLedger slot :=
      fun x hx => leaves x (List.mem_append_left _ hx)
    rw [after_concat] at under
    rcases mem_underway_happen under with before | ⟨rfl, cleared⟩
    · obtain ⟨done, rest, since, rfl, cleared, log, unreturned⟩ := ih leavesBefore before
      have entry := entry_happen inTree (leaves x (List.mem_append_right _ List.mem_cons_self))
        (afterTraced w s (done ++ .cycle :: rest))
      have inOrder := tallies_after inTree blank idle leavesBefore
      rw [← underway_traced] at before inOrder
      rw [← after_concat, ← underway_traced, afterTraced_concat] at under
      obtain ⟨more, log', spared⟩ := entry.spares inOrder before under
      rw [← afterTraced_concat] at log'
      refine ⟨done, rest ++ [x], since ++ more, by simp, cleared, ?_, fun c' hm => ?_⟩
      · refine Eq.trans log' ?_
        rw [← List.append_assoc, ← log]
        rfl
      · exact (List.mem_append.1 hm).elim (unreturned c') (spared c')
    · exact ⟨run, [], [], rfl, cleared, (List.append_nil _).symm, fun _ hm => by cases hm⟩

end Scheduling

end JobAdmission
