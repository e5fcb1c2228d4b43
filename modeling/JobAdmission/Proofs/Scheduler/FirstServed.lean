/-
Whom a cycle serves. Under the order by priority a cycle is idle exactly if no named queue has a
ready candidate. Any other takes one, of the queue of highest priority among those that have one
and of the least name among equals; and it is a candidate of highest priority there, the one seen
first among equals. All that a cycle does to the queues otherwise is that it may delay the
candidate that it took (`Differs`).
-/
import JobAdmission.Proofs.Queue.Heaps
import JobAdmission.Proofs.Queue.Next
import JobAdmission.Proofs.Scheduler.DefaultQueue

namespace JobAdmission

/-! ## One candidate taken, one delayed -/

/-- A candidate and the queue it is taken from or put into, if there is one. -/
abbrev Placing := Option (QueueId × Candidate)

/-- What a queue has of it. -/
def Placing.at (p : Placing) (id : QueueId) : List Candidate :=
  match p with
  | some (k, c) => if k = id then [c] else []
  | none => []

theorem Placing.at_self (id : QueueId) (c : Candidate) : Placing.at (some (id, c)) id = [c] :=
  if_pos rfl

theorem Placing.at_of_ne {id k : QueueId} (h : id ≠ k) {c : Candidate} :
    Placing.at (some (id, c)) k = [] :=
  if_neg h

namespace QueueSet

open JobQueue

variable {s t u : QueueSet} {id : QueueId} {q q' : JobQueue} {c : Candidate}

/-- `t` has the names and queues of `s`, and in each queue the same candidates are ready and
delayed, but for a ready one that was taken and one that was put among the delayed. -/
structure Differs (s t : QueueSet) (taken put : Placing) : Prop where
  ids : t.ids = s.ids
  count : t.queues.size = s.queues.size
  queue : ∀ id q, s.queue? id = some q → ∃ q', t.queue? id = some q' ∧
    q'.charter = q.charter ∧ q'.closed = q.closed ∧
    q.ready.toList.Perm (taken.at id ++ q'.ready.toList) ∧
    q'.delayed.toList.Perm (put.at id ++ q.delayed.toList)

theorem Differs.refl (s : QueueSet) : Differs s s none none :=
  ⟨rfl, rfl, fun _ q e => ⟨q, e, rfl, rfl, .refl _, .refl _⟩⟩

theorem Differs.trans {taken put : Placing} (h : Differs s t taken none)
    (h' : Differs t u none put) : Differs s u taken put := by
  refine ⟨h'.ids.trans h.ids, h'.count.trans h.count, fun id q e => ?_⟩
  obtain ⟨q', e', charter, closed, ready, delayed⟩ := h.queue id q e
  obtain ⟨q'', e'', charter', closed', ready', delayed'⟩ := h'.queue id q' e'
  exact ⟨q'', e'', charter'.trans charter, closed'.trans closed,
    ready.trans (ready'.append_left _), delayed'.trans (delayed.append_left _)⟩

/-- One queue is put back, with a ready candidate less or a delayed one more. -/
theorem differs_put {taken put : Placing} (there : s.queue? id = some q)
    (charter : q'.charter = q.charter) (closed : q'.closed = q.closed)
    (ready : q.ready.toList.Perm (taken.at id ++ q'.ready.toList))
    (delayed : q'.delayed.toList.Perm (put.at id ++ q.delayed.toList))
    (elsewhere : ∀ k, id ≠ k → taken.at k = [] ∧ put.at k = []) :
    Differs s (s.put id q') taken put := by
  obtain ⟨bound, -⟩ := Array.getElem?_eq_some_iff.1 there
  refine ⟨rfl, Array.size_setIfInBounds, fun k r e => ?_⟩
  rw [queue?_put]
  by_cases same : id = k
  · subst same
    rw [there] at e
    cases e
    exact ⟨q', if_pos ⟨rfl, bound⟩, charter, closed, ready, delayed⟩
  · obtain ⟨none_taken, none_put⟩ := elsewhere k same
    rw [if_neg (fun both => same both.1), none_taken, none_put]
    exact ⟨r, e, rfl, rfl, .refl _, .refl _⟩

theorem differs_pop (there : s.queue? id = some q) (hi : q.Indexed)
    (e : q.pop = .ok (c, q')) : Differs s (s.put id q') (some (id, c)) none := by
  obtain ⟨ready, rfl, -, perm⟩ := pop_eq_ok hi e
  refine differs_put there rfl rfl ?_ (.refl _) fun k hk => ⟨Placing.at_of_ne hk, rfl⟩
  rw [Placing.at_self]
  exact perm

/-- A candidate that is delayed is put among the delayed ones of a queue, unless its key is held
there. -/
theorem differs_delay (there : s.queue? id = some q) (hi : q.Indexed)
    (e : q.delay c = .ok q') :
    Differs s (s.put id q') none none ∨ Differs s (s.put id q') none (some (id, c)) := by
  obtain ⟨-, ⟨-, rfl⟩ | ⟨delayed, rfl, -, -, perm⟩⟩ := delay_eq_ok hi e
  · exact .inl (differs_put there rfl rfl (.refl _) (.refl _) fun _ _ => ⟨rfl, rfl⟩)
  · refine .inr (differs_put there rfl rfl (.refl _) ?_ fun k hk => ⟨rfl, Placing.at_of_ne hk⟩)
    rw [Placing.at_self]
    exact perm

end QueueSet

/-! ## Cycles -/

variable {E : Type} {w : Wiring E} {c : Candidate} {s t : SchedulerState E} {o : Outcome}

open Scheduling QueueSet

/-- What is put back of a candidate, if anything, is its next attempt: it counts one more failure,
and its job is the one it had or the one on record. -/
def Placing.Again (w : Wiring E) (c : Candidate) (now : Nat) (put : Placing) : Prop :=
  ∀ id d, put = some (id, d) → ∃ env c', retryable w c env = some c' ∧ d = c'.failedAt now

theorem again_none (w : Wiring E) (c : Candidate) (now : Nat) :
    Placing.Again w c now none := nofun

theorem Retried.differs (h : Retried w c s t) (indexed : s.queues.Each JobQueue.Indexed) :
    ∃ put : Placing, Differs s.queues t.queues none put ∧ put.Again w c s.now := by
  obtain same | ⟨c', id, q, q', chosen, there, delayed, same⟩ := h.delayed
  · rw [same]
    exact ⟨none, .refl _, again_none w c s.now⟩
  · rw [same]
    rcases differs_delay there (indexed id q there) delayed with kept | put
    · exact ⟨none, kept, again_none w c s.now⟩
    · refine ⟨_, put, fun k d e => ?_⟩
      cases e
      exact ⟨s.env, c', chosen, rfl⟩

theorem DispatchExit.differs (exit : DispatchExit w c s o t)
    (indexed : s.queues.Each JobQueue.Indexed) :
    o ≠ .idle ∧ ∃ put : Placing, Differs s.queues t.queues none put ∧ put.Again w c s.now := by
  cases exit with
  | blocked _ _ _ queues =>
    rw [queues]
    exact ⟨nofun, none, .refl _, again_none w c s.now⟩
  | confirming _ _ _ queues =>
    rw [queues]
    exact ⟨nofun, none, .refl _, again_none w c s.now⟩
  | undone u _ _ now queues _ _ retried =>
    have differs := retried.differs (queues ▸ indexed)
    rw [queues, now] at differs
    exact ⟨nofun, differs⟩

/-- A cycle that starts is idle and changes nothing, or takes what comes next and may delay it. -/
theorem CycleExit.of_free (exit : CycleExit w s o t) (free : s.suspended = none)
    (indexed : s.queues.Each JobQueue.Indexed) :
    o = .idle ∧ t = s ∧ s.queues.popNext = none ∨
      o ≠ .idle ∧ ∃ c queues, s.queues.popNext = some (c, queues) ∧
        ∃ put : Placing, Differs queues t.queues none put ∧ put.Again w c s.now := by
  -- what is left in the queues is found as well
  have left : ∀ {c queues}, s.queues.popNext = some (c, queues) →
      queues.Each JobQueue.Indexed := fun pop =>
    (indexed.popNext (Q := fun _ => True) (fun q c q' hq e =>
      ⟨JobQueue.lasting_indexed.pop q q' c hq e, trivial⟩) pop).1
  cases exit with
  | idle _ nothing => exact .inl ⟨rfl, rfl, nothing⟩
  | unfiltered _ c queues _ _ _ pop _ _ retried =>
    exact .inr ⟨nofun, c, queues, pop, retried.differs (left pop)⟩
  | refused _ c queues _ _ _ _ _ pop _ _ _ _ retried =>
    exact .inr ⟨nofun, c, queues, pop, retried.differs (left pop)⟩
  | reserved _ c queues _ _ _ _ _ _ pop _ _ _ _ exit =>
    obtain ⟨busy, differs⟩ := exit.differs (left pop)
    exact .inr ⟨busy, c, queues, pop, differs⟩
  | resumed _ _ held =>
    rw [free] at held
    cases held

/-! ## By priority -/

namespace QueueSet

variable {s : QueueSet}

/-- A ready candidate of a named queue that is served before all others. -/
structure Foremost (s : QueueSet) (name : String) (id : QueueId) (q : JobQueue) (c : Candidate) :
    Prop where
  found : s.lookup? name = some (id, q)
  ready : c ∈ q.ready.toList
  /-- No other named queue with a ready candidate comes before its queue. -/
  queue : ∀ name' id' q', s.lookup? name' = some (id', q') → q'.readyCount ≠ 0 → name' ≠ name →
    q'.definition.priority < q.definition.priority ∨
      q'.definition.priority = q.definition.priority ∧ name < name'
  /-- No ready candidate of its queue comes before it. -/
  job : ∀ d ∈ q.ready.toList, d.job.effectivePriority < c.job.effectivePriority ∨
    d.job.effectivePriority = c.job.effectivePriority ∧ c.firstSeen ≤ d.firstSeen

/-- What comes next is foremost. -/
theorem foremost_of_popNext (sound : s.Sound) (inOrder : s.Each JobQueue.InOrder)
    (visits : s.rules.queueOrder = Priority.queueOrder)
    (orders : ∀ name id q, s.lookup? name = some (id, q) → q.order = Priority.jobOrder)
    {c : Candidate} {t : QueueSet} (e : s.popNext = some (c, t)) :
    ∃ name id q, s.Foremost name id q c ∧ Differs s t (some (id, c)) none := by
  obtain ⟨id, q, q', visited, popped, rfl, first⟩ :=
    sound.named.popNext_first (visits ▸ Priority.strictWeak_queueOrder) e
  obtain ⟨name, found⟩ := mem_visited.1 visited
  obtain ⟨known, there⟩ := lookup?_eq_some_iff.1 found
  have indexed := sound.indexed id q there
  have named : ∀ {name id q}, s.lookup? name = some (id, q) → q.name = name := by
    intro name id q found
    obtain ⟨known, there⟩ := lookup?_eq_some_iff.1 found
    obtain ⟨q', there', rfl⟩ := sound.named name id known
    rw [there] at there'
    cases there'
    rfl
  obtain ⟨ready, -, -, perm⟩ := JobQueue.pop_eq_ok indexed popped
  refine ⟨name, id, q, ⟨found, perm.mem_iff.2 List.mem_cons_self,
    fun name' id' q' found' some_ready other => ?_, fun d hd => ?_⟩,
    differs_pop there indexed popped⟩
  · rcases first _ (mem_visited.2 ⟨name', found'⟩) some_ready with same | before | ⟨tie, less⟩
    · cases same
      exact absurd ((named found').symm.trans (named found)) other
    · rw [visits] at before
      exact .inl (of_decide_eq_true before)
    · rw [visits] at tie
      exact (Priority.queueOrder_eq_false.1 tie).imp_right fun same =>
        ⟨same, by rw [← named found, ← named found']; exact less⟩
  · have order := orders name id q found
    have least := (inOrder id q there).pop_first indexed
      (order ▸ Priority.strictWeak_jobOrder) popped d hd
    rw [order, ← Bool.not_eq_true, Priority.jobOrder_eq_true] at least
    rw [Int32.lt_iff_toInt_lt, ← Int32.toInt_inj]
    omega

end QueueSet

/-- In every state of a registry by priority, a cycle that starts is idle exactly if no named queue
has a ready candidate, and then changes nothing. Otherwise it takes the foremost candidate, and of
all other candidates each stays where it is as it is. A cycle that goes on takes none. -/
theorem cycle_takes_foremost (w : Wiring E) (rules : QueueRules) (run : List RegistryStep)
    (reached : s.queues = (QueueSet.new rules).after run)
    (visits : rules.queueOrder = Priority.queueOrder)
    (orders : ∀ name id q, s.queues.lookup? name = some (id, q) → q.order = Priority.jobOrder) :
    (s.suspended = none →
      ((cycle w s).1 = .idle ↔
        ∀ name id q, s.queues.lookup? name = some (id, q) → q.readyCount = 0) ∧
      ((cycle w s).1 = .idle → (cycle w s).2 = s) ∧
      ((cycle w s).1 ≠ .idle → ∃ name id q c, s.queues.Foremost name id q c ∧
        ∃ put : Placing, Differs s.queues (cycle w s).2.queues (some (id, c)) put ∧
          put.Again w c s.now)) ∧
    ∀ c ticket, s.suspended = some ⟨c, ticket⟩ → (cycle w s).1 ≠ .idle ∧
      ∃ put : Placing, Differs s.queues (cycle w s).2.queues none put ∧ put.Again w c s.now := by
  have sound : s.queues.Sound := reached ▸ (sound_new rules).after run
  have inOrder : s.queues.Each JobQueue.InOrder := by
    rw [reached]
    exact each_after (JobQueue.lasting_inOrder.keeping fun _ => True)
      (fun id q e => by simp [queue?, QueueSet.new] at e) fun x _ => x.puts_of_all fun _ => trivial
  have same : s.queues.rules = rules := by
    rw [reached]
    exact ((QueueSet.new rules).descends_after run).rules
  have exit := cycle_exit w s
  refine ⟨fun free => ?_, fun c ticket held => ?_⟩
  · have nothing : s.queues.popNext = none ↔
        ∀ name id q, s.queues.lookup? name = some (id, q) → q.readyCount = 0 := by
      rw [popNext_eq_none_iff]
      constructor
      · exact fun h name id q found => h (id, q) (mem_visited.2 ⟨name, found⟩)
      · rintro h ⟨id, q⟩ visited
        obtain ⟨name, found⟩ := mem_visited.1 visited
        exact h name id q found
    rw [← nothing]
    rcases exit.of_free free sound.indexed with ⟨idle, still, empty⟩ |
      ⟨busy, c, queues, pop, put, differs, again⟩
    · exact ⟨iff_of_true idle empty, fun _ => still, fun busy => absurd idle busy⟩
    · refine ⟨iff_of_false busy (by simp [pop]), fun idle => absurd idle busy, fun _ => ?_⟩
      obtain ⟨name, id, q, foremost, taken⟩ :=
        foremost_of_popNext sound inOrder (same ▸ visits) orders pop
      exact ⟨name, id, q, c, foremost, put, taken.trans differs, again⟩
  · generalize (cycle w s).1 = o, (cycle w s).2 = t at exit ⊢
    cases exit with
    | resumed c' ticket' held' _ _ exit =>
      rw [held] at held'
      cases held'
      exact exit.differs sound.indexed
    | idle free => rw [free] at held; cases held
    | unfiltered free => rw [free] at held; cases held
    | refused free => rw [free] at held; cases held
    | reserved free => rw [free] at held; cases held

/-- Where the only order is that by priority, every named queue is in it. -/
theorem QueueSet.order_of_byPriority (run : List RegistryStep) {name : String} {id : QueueId}
    {q : JobQueue}
    (found : ((QueueSet.new Site.byPriority).after run).lookup? name = some (id, q)) :
    q.order = Priority.jobOrder := by
  have sound := (sound_new Site.byPriority).after run
  have known := (sound.under id q (lookup?_eq_some_iff.1 found).2).1
  rw [((QueueSet.new Site.byPriority).descends_after run).rules] at known
  change (NameMap.empty.insert Priority.name Priority.jobOrder).get? _ = _ at known
  generalize (if q.definition.policy.isEmpty then _ else q.definition.policy) = policy at known
  rw [NameMap.get?_insert] at known
  split at known
  · exact (Option.some.inj known).symm
  · cases known

namespace Site

/-- Three queues with names, in the order by priority. -/
def threeQueues (top b a : JobQueue) : QueueSet :=
  { QueueSet.new byPriority with
    queues := #[top, b, a]
    ids := ((NameMap.empty.insert "top" 0).insert "b" 1).insert "a" 2 }

theorem mem_of_lookup?_threeQueues {top b a q : JobQueue} {name : String} {id : QueueId}
    (found : (threeQueues top b a).lookup? name = some (id, q)) :
    (name, id, q) ∈ [("a", 2, a), ("b", 1, b), ("top", 0, top)] := by
  obtain ⟨known, there⟩ := lookup?_eq_some_iff.1 found
  have listed : (name, id) ∈ [("a", 2), ("b", 1), ("top", 0)] := NameMap.get?_eq_some_iff.1 known
  simp only [List.mem_cons, Prod.mk.injEq, List.not_mem_nil, or_false] at listed
  rcases listed with ⟨rfl, rfl⟩ | ⟨rfl, rfl⟩ | ⟨rfl, rfl⟩
  · rw [show q = a from (Option.some.inj there).symm]
    simp
  · rw [show q = b from (Option.some.inj there).symm]
    simp
  · rw [show q = top from (Option.some.inj there).symm]
    simp

/-- Of three queues the one of highest priority is empty, and the two others are of one priority:
what is taken is of the queue of the lesser name, and of the three jobs there it is the one seen
first among the two of higher priority. -/
theorem cycle_takes_one_of_four :
    let job := fun (name queue : String) (priority : Int32) =>
      { Job.new "n" name "TFJob" with priority := some priority, queue := queue }
    let s := idling ((QueueSet.new byPriority).after
      [.add (QueueDef.new "top" 20), .add (QueueDef.new "b" 10), .add (QueueDef.new "a" 10),
        .call 0 1 (.submit (job "w" "b" 9)), .call 0 2 (.submit (job "x" "a" 1)),
        .call 7 2 (.submit (job "y" "a" 5)), .call 3 2 (.submit (job "z" "a" 5))]) 8
      (recording (job "z" "a" 5))
    (cycle standard s).1 ≠ .idle ∧ ∃ put,
      Differs s.queues (cycle standard s).2.queues (some (2, .fresh (job "z" "a" 5) 3)) put := by
  intro job s
  let b := (JobQueue.new (QueueDef.new "b" 10) Priority.jobOrder .standard false).after
    [.call 0 (.submit (job "w" "b" 9))]
  let a := (JobQueue.new (QueueDef.new "a" 10) Priority.jobOrder .standard false).after
    [.call 0 (.submit (job "x" "a" 1)), .call 7 (.submit (job "y" "a" 5)),
      .call 3 (.submit (job "z" "a" 5))]
  have queues : s.queues = threeQueues
      (.new (QueueDef.new "top" 20) Priority.jobOrder .standard false) b a := rfl
  have filled := JobQueue.filled (QueueDef.new "a" 10) Priority.jobOrder .standard false
    [(0, job "x" "a" 1), (7, job "y" "a" 5), (3, job "z" "a" 5)] [] (by decide)
  have filled' := JobQueue.filled (QueueDef.new "b" 10) Priority.jobOrder .standard false
    [(0, job "w" "b" 9)] [] (by decide)
  change a.Filled _ _ _ at filled
  change b.Filled _ _ _ at filled'
  have ready : a.readyCount ≠ 0 := by
    have count : a.readyCount = 3 := (KeyedHeap.length_toList _).symm.trans filled.ready.length_eq
    omega
  have found : s.queues.lookup? "a" = some (2, a) := rfl
  obtain ⟨starts, -⟩ := cycle_takes_foremost standard byPriority _ (s := s) rfl rfl
    fun name id q found => order_of_byPriority _ found
  obtain ⟨idle, -, busy⟩ := starts rfl
  have working : (cycle standard s).1 ≠ .idle := fun none => ready (idle.1 none "a" 2 a found)
  obtain ⟨name, id, q, c, foremost, put, differs, -⟩ := busy working
  have which := mem_of_lookup?_threeQueues (queues ▸ foremost.found)
  simp only [List.mem_cons, Prod.mk.injEq, List.not_mem_nil, or_false] at which
  rcases which with ⟨-, rfl, rfl⟩ | ⟨rfl, -, rfl⟩ | ⟨-, -, rfl⟩
  · have among : c ∈ [.fresh (job "x" "a" 1) 0, .fresh (job "y" "a" 5) 7,
        .fresh (job "z" "a" 5) 3] := filled.ready.mem_iff.1 foremost.ready
    have least := foremost.job (.fresh (job "z" "a" 5) 3)
      (filled.ready.mem_iff.2 (by simp [JobQueue.arrivals]))
    simp only [List.mem_cons, List.not_mem_nil, or_false] at among
    rcases among with rfl | rfl | rfl
    · exact absurd least (by decide)
    · exact absurd least (by decide)
    · exact ⟨working, put, differs⟩
  · have first := foremost.queue "a" 2 a found ready (by decide)
    rw [filled.definition, filled'.definition] at first
    exact absurd first (by decide)
  · cases foremost.ready

end Site

end JobAdmission
