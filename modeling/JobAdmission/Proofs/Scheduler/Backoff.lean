/-
A job that could not be admitted waits before it is tried again. From the event that adds it on, as
long as no other event names it, each failure of its attempt counts, and after the `k`-th the next
cycle that takes it from its queue does so no earlier than the `k`-th window after the failure
(`retried_after_window`). What happens in between does not matter: cycles and confirmations of other
jobs, flushes, changes to the queues and to the record.
-/
import JobAdmission.Proofs.Queue.Window
import JobAdmission.Proofs.Scheduler.DefaultQueue
import JobAdmission.Proofs.Scheduler.Whereabouts

namespace JobAdmission

variable {E : Type}

namespace Spot

/-- The candidate, wherever it is. -/
def candidate? : Spot → Option Candidate
  | nowhere => none
  | inHand c | ready c | delayed c => some c

/-- The candidate failed a number of times since it was first seen. -/
def Counts (failures firstSeen : Nat) (spot : Spot) : Prop :=
  ∀ c, spot.candidate? = some c →
    c.attempts = min failures Candidate.maxAttempts ∧ c.firstSeen = firstSeen

/-- After a failure at a time the candidate is kept back until its window has ended. -/
def Waits (p : RetryPolicy) (since now : Nat) : Spot → Prop
  | nowhere => True
  | inHand _ => False
  | ready c => since + p.window c.attempts ≤ now
  | delayed c => c.since = since

variable {p : RetryPolicy} {now since k f : Nat} {taken failed : Option Candidate}
  {spot spot' : Spot} {c : Candidate}

theorem Waits.later (waits : spot.Waits p since now) {now' : Nat} (later : now ≤ now') :
    spot.Waits p since now' := by
  cases spot with
  | ready c =>
    have : since + p.window c.attempts ≤ now := waits
    show since + p.window c.attempts ≤ now'
    omega
  | _ => exact waits

theorem Retried.counts (retried : spot'.Retried now c)
    (counts : c.attempts = min k Candidate.maxAttempts ∧ c.firstSeen = f) :
    spot'.Counts (k + 1) f := by
  obtain ⟨attempts, firstSeen⟩ := counts
  cases retried with
  | lost => exact fun _ e => by cases e
  | delayed c' same same' =>
    intro d e
    cases e
    refine ⟨?_, same'.trans firstSeen⟩
    show min (c'.attempts + 1) Candidate.maxAttempts = _
    rw [same, attempts]
    omega

theorem Retried.waits (retried : spot'.Retried now c) (now' : Nat) : spot'.Waits p now now' := by
  cases retried with
  | lost => exact trivial
  | delayed c' => exact (rfl : (c'.failedAt now).since = now)

/-- On each way the failures are counted, and what is taken has the count so far. -/
theorem Goes.counts (goes : Goes p now taken failed spot spot') (counts : spot.Counts k f) :
    spot'.Counts (k + failed.toList.length) f ∧
      ∀ c, taken = some c → c.attempts = min k Candidate.maxAttempts ∧ c.firstSeen = f := by
  cases goes with
  | stays => exact ⟨counts, fun _ e => by cases e⟩
  | due c => exact ⟨counts, fun _ e => by cases e⟩
  | taken c => exact ⟨counts, fun d e => counts d e⟩
  | admitted c => exact ⟨fun _ e => (by cases e), fun _ e => by cases e⟩
  | failed c _ retried => exact ⟨retried.counts (counts c rfl), fun _ e => by cases e⟩
  | refused c _ retried => exact ⟨retried.counts (counts c rfl), fun d e => counts d e⟩

/-- A candidate that is not taken goes on waiting. -/
theorem Goes.waits (goes : Goes p now none failed spot spot') (waits : spot.Waits p since now) :
    failed = none ∧ spot'.Waits p since now := by
  cases goes with
  | stays => exact ⟨rfl, waits⟩
  | due c ended =>
    refine ⟨rfl, ?_⟩
    have start : c.since = since := waits
    show since + p.window c.attempts ≤ now
    rw [← start]
    exact ended
  | admitted => exact waits.elim
  | failed => exact waits.elim

/-- A candidate that is taken has waited. -/
theorem Goes.waited (goes : Goes p now (some c) failed spot spot')
    (waits : spot.Waits p since now) : since + p.window c.attempts ≤ now := by
  cases goes with
  | taken => exact waits
  | refused => exact waits

/-- A candidate whose attempt fails waits from now on. -/
theorem Goes.waits_of_failed (goes : Goes p now taken (some c) spot spot') (now' : Nat) :
    spot'.Waits p now now' := by
  cases goes with
  | failed _ _ retried => exact retried.waits now'
  | refused _ _ retried => exact retried.waits now'

end Spot

namespace Scheduling

/-! ## Runs -/

/-- The candidates that are taken from their queues in a run, one for each time. -/
def takenIn (w : Wiring E) : SchedulerState E → List (Happening E) → List Candidate
  | _, [] => []
  | s, x :: run => (taken s x).toList ++ takenIn w (happen w s x) run

/-- The candidates whose attempts fail in a run, one for each time. -/
def failedIn (w : Wiring E) : SchedulerState E → List (Happening E) → List Candidate
  | _, [] => []
  | s, x :: run => (failed w s x).toList ++ failedIn w (happen w s x) run

/-- The clock does not go back in a run. -/
def ClockForward (w : Wiring E) : SchedulerState E → List (Happening E) → Prop
  | _, [] => True
  | s, x :: run => s.now ≤ (happen w s x).now ∧ ClockForward w (happen w s x) run

end Scheduling

open Scheduling

/-- A queue holds the key, or a candidate of the key is under way. -/
def SchedulerState.Knows (s : SchedulerState E) (key : String) : Prop :=
  (∃ id q, s.queues.queue? id = some q ∧ q.holds key = true) ∨ ∃ c ∈ s.underway, c.key = key

section

variable {w : Wiring E} {store : Slot E JobStore} {rules : QueueRules} {s : SchedulerState E}
  {key : String} {spot : Spot} {run : List (Happening E)} {k f since : Nat}

theorem SchedulerState.Blank.not_knows (blank : s.Blank rules) : ¬ s.Knows key := by
  rintro (⟨id, q, there, -⟩ | ⟨c, hc, -⟩)
  · rw [blank.queues] at there
    simp [QueueSet.queue?, QueueSet.new] at there
  · rw [SchedulerState.underway_free blank.suspended, blank.tasks] at hc
    cases hc

/-- A key is nowhere exactly if it is not known. -/
theorem SchedulerState.Orderly.keeps_nowhere_iff (orderly : s.Orderly store rules) (key : String) :
    s.Keeps key .nowhere ↔ ¬ s.Knows key := by
  constructor
  · rintro nowhere (⟨id, q, there, held⟩ | ⟨c, hc, own⟩)
    · have free : q.found key = (none, none) := nowhere.seats.free_of_queue? there
      rw [(JobQueue.holds_eq_false_iff (orderly.sound.indexed id q there)).2 free] at held
      cases held
    · have none : s.underway.filter (·.key == key) = [] := List.perm_nil.1 nowhere.hand
      have := List.filter_eq_nil_iff.1 none c hc
      simp [own] at this
  · intro unknown
    refine ⟨?_, ⟨0, fun id => ?_⟩, .inl rfl⟩
    · refine List.perm_nil.2 (List.filter_eq_nil_iff.2 fun c hc own => ?_)
      exact unknown (.inr ⟨c, hc, by simpa using own⟩)
    · rw [show Spot.nowhere.seat = (none, none) from rfl, ite_self]
      rcases there : s.queues.queue? id with _ | q
      · exact QueueSet.foundAt_of_none there
      · rw [QueueSet.foundAt_of_queue? there]
        refine (JobQueue.holds_eq_false_iff (orderly.sound.indexed id q there)).1 ?_
        rw [Bool.eq_false_iff]
        exact fun held => unknown (.inl ⟨id, q, there, held⟩)

namespace Scheduling

theorem failedIn_append (w : Wiring E) (s : SchedulerState E) (run more : List (Happening E)) :
    failedIn w s (run ++ more) = failedIn w s run ++ failedIn w (after w s run) more := by
  induction run generalizing s with
  | nil => rfl
  | cons x run ih =>
    show (failed w s x).toList ++ failedIn w (happen w s x) (run ++ more) = _
    rw [ih, ← List.append_assoc]
    rfl

theorem length_toList_filter (found : Option Candidate) :
    (found.filter (·.key == key)).toList.length = found.toList.countP (·.key == key) := by
  rcases found with _ | c
  · rfl
  · by_cases own : c.key = key <;> simp [own]

/-- Along a run that does not name the key every failure of its candidate is counted. -/
theorem counts_after (files : w.Files store) (leaves : ∀ x ∈ run, x.Files store)
    (unmentioned : ∀ x ∈ run, ¬ x.Mentions key) (orderly : s.Orderly store rules)
    (keeps : s.Keeps key spot) (counts : spot.Counts k f) :
    ∃ spot', (after w s run).Keeps key spot' ∧
      spot'.Counts (k + (failedIn w s run).countP (·.key == key)) f := by
  induction run generalizing s spot k with
  | nil => exact ⟨spot, keeps, counts⟩
  | cons x run ih =>
    obtain ⟨leavesFirst, leavesRest⟩ := List.forall_mem_cons.1 leaves
    obtain ⟨first, rest⟩ := List.forall_mem_cons.1 unmentioned
    obtain ⟨spot', kept, goes⟩ := goes_happen files orderly keeps first
    obtain ⟨spot'', kept', counts'⟩ :=
      ih leavesRest rest (orderly_happen files orderly leavesFirst) kept (goes.counts counts).1
    refine ⟨spot'', kept', ?_⟩
    rw [length_toList_filter, Nat.add_assoc, ← List.countP_append] at counts'
    exact counts'

/-- Along a run that does not name the key and does not take its candidate, the candidate waits. -/
theorem waits_after (files : w.Files store) (leaves : ∀ x ∈ run, x.Files store)
    (unmentioned : ∀ x ∈ run, ¬ x.Mentions key) (untaken : ∀ c ∈ takenIn w s run, c.key ≠ key)
    (forward : ClockForward w s run) (orderly : s.Orderly store rules) (keeps : s.Keeps key spot)
    (counts : spot.Counts k f) (waits : spot.Waits rules.timing.retry since s.now) :
    ∃ spot', (after w s run).Keeps key spot' ∧ spot'.Counts k f ∧
      spot'.Waits rules.timing.retry since (after w s run).now := by
  induction run generalizing s spot with
  | nil => exact ⟨spot, keeps, counts, waits⟩
  | cons x run ih =>
    obtain ⟨leavesFirst, leavesRest⟩ := List.forall_mem_cons.1 leaves
    obtain ⟨first, rest⟩ := List.forall_mem_cons.1 unmentioned
    obtain ⟨untakenFirst, untakenRest⟩ := List.forall_mem_append.1 untaken
    obtain ⟨spot', kept, goes⟩ := goes_happen files orderly keeps first
    have none : (taken s x).filter (·.key == key) = none := by
      rcases e : taken s x with _ | c
      · rfl
      · exact filter_key_other (untakenFirst c (by rw [e]; simp)) (.inl rfl)
    rw [none] at goes
    obtain ⟨unfailed, waits'⟩ := goes.waits waits
    have counts' := (goes.counts counts).1
    rw [unfailed] at counts'
    exact ih leavesRest rest untakenRest forward.2 (orderly_happen files orderly leavesFirst) kept
      counts' (waits'.later forward.1)

/-- A key that is not known stays so in a run no event of which names it. -/
theorem unknown_later (files : w.Files store) (orderly : s.Orderly store rules)
    (unknown : ¬ s.Knows key) (leaves : ∀ x ∈ run, x.Files store)
    (unmentioned : ∀ x ∈ run, ¬ x.Mentions key) : ¬ (after w s run).Knows key := by
  have nowhere : s.Keeps key .nowhere := (orderly.keeps_nowhere_iff key).2 unknown
  refine ((orderly_after files leaves orderly).keeps_nowhere_iff key).1 ?_
  clear unknown
  induction run generalizing s with
  | nil => exact nowhere
  | cons x run ih =>
    obtain ⟨leavesFirst, leavesRest⟩ := List.forall_mem_cons.1 leaves
    obtain ⟨first, rest⟩ := List.forall_mem_cons.1 unmentioned
    obtain ⟨spot, kept, goes⟩ := goes_happen files orderly nowhere first
    generalize (taken s x).filter _ = took, (failed w s x).filter _ = lost at goes
    cases goes
    exact ih (orderly_happen files orderly leavesFirst) leavesRest rest kept

/-- A key that no event of a run names is not known after it. -/
theorem unknown_after (files : w.Files store) (blank : s.Blank rules) (filed : store.Filed s.env)
    (leaves : ∀ x ∈ run, x.Files store) (unmentioned : ∀ x ∈ run, ¬ x.Mentions key) :
    ¬ (after w s run).Knows key :=
  unknown_later files (blank.orderly filed) blank.not_knows leaves unmentioned

theorem taken_eq_some {x : Happening E} {c : Candidate} (e : taken s x = some c) : x = .cycle := by
  cases x with
  | cycle => rfl
  | _ => cases e

/-- From a failure to the next time that the candidate is taken, its window passes. -/
theorem waited_since_failure (files : w.Files store) (orderly : s.Orderly store rules)
    (keeps : s.Keeps key spot) (counts : spot.Counts k f) {x y : Happening E}
    {b : List (Happening E)} (leaves : ∀ z ∈ x :: b, z.Files store)
    (unmentioned : ∀ z ∈ x :: b, ¬ z.Mentions key) {c c' : Candidate}
    (failure : failed w s x = some c) (own : c.key = key)
    (untaken : ∀ d ∈ takenIn w (happen w s x) b, d.key ≠ key)
    (forward : ClockForward w (happen w s x) b)
    (next : taken (after w (happen w s x) b) y = some c') (own' : c'.key = key) :
    s.now + rules.timing.retry.window c'.attempts ≤ (after w (happen w s x) b).now ∧
      c'.attempts = min (k + 1) Candidate.maxAttempts ∧ c'.firstSeen = f := by
  obtain ⟨leavesX, leavesB⟩ := List.forall_mem_cons.1 leaves
  obtain ⟨spareX, spareB⟩ := List.forall_mem_cons.1 unmentioned
  -- the failure is counted, and the waiting begins
  obtain ⟨spot₁, keeps₁, goes⟩ := goes_happen files orderly keeps spareX
  rw [failure, filter_key_self own] at goes
  have counts₁ : spot₁.Counts (k + 1) f := (goes.counts counts).1
  have waits₁ := goes.waits_of_failed (happen w s x).now
  have orderly₁ := orderly_happen files orderly leavesX
  -- it goes on while the candidate is not taken
  obtain ⟨spot₂, keeps₂, counts₂, waits₂⟩ :=
    waits_after files leavesB spareB untaken forward orderly₁ keeps₁ counts₁ waits₁
  have orderly₂ := orderly_after files leavesB orderly₁
  -- it is taken when its window has ended
  have spareY : ¬ y.Mentions key := by
    rw [taken_eq_some next]
    exact id
  obtain ⟨spot₃, -, goes'⟩ := goes_happen files orderly₂ keeps₂ spareY
  rw [next, filter_key_self own'] at goes'
  exact ⟨goes'.waited waits₂, (goes'.counts counts₂).2 c' rfl⟩

/-- In the state `s₁` of a run a job is added under a key that the scheduler does not know, as it
knows none that no event has named (`unknown_after`), and no event after that names the key. When an
attempt of the job fails in `s₃`, at `x`, as the `k`-th since it was added, and `y` is the next to
take it from its queue, in `s₅`, then the `k`-th window lies between the two times, and what is
taken has the record of `k` failures and of the time at which the job was added. Only the clock
must not go back in between. -/
theorem retried_after_window (files : w.Files store) (short : rules.timing.retry.limit ≤ maxSpan)
    (blank : s.Blank rules) (filed : store.Filed s.env) {before a b : List (Happening E)}
    {x y : Happening E} {job : Job} {s₁ s₂ s₃ s₄ s₅ : SchedulerState E} {c c' : Candidate}
    (first : after w s before = s₁) (added : happen w s₁ (.job (.added job)) = s₂)
    (between : after w s₂ a = s₃) (failing : happen w s₃ x = s₄) (waiting : after w s₄ b = s₅)
    (leaves : ∀ z ∈ before ++ a ++ x :: b, z.Files store)
    (unknown : ¬ s₁.Knows job.key) (unmentioned : ∀ z ∈ a ++ x :: b, ¬ z.Mentions job.key)
    (failure : failed w s₃ x = some c) (own : c.key = job.key)
    (count : (failedIn w s₂ (a ++ [x])).countP (·.key == job.key) = k) (small : k < 2 ^ 32)
    (untaken : ∀ d ∈ takenIn w s₄ b, d.key ≠ job.key) (forward : ClockForward w s₄ b)
    (next : taken s₅ y = some c') (own' : c'.key = job.key) :
    s₃.now + min (rules.timing.retry.initial * 2 ^ (k - 1)) rules.timing.retry.limit ≤ s₅.now ∧
      c'.attempts = k ∧ c'.firstSeen = s₁.now := by
  obtain ⟨leavesFirst, leavesRest⟩ := List.forall_mem_append.1 leaves
  obtain ⟨leavesBefore, leavesA⟩ := List.forall_mem_append.1 leavesFirst
  obtain ⟨spareA, spareRest⟩ := List.forall_mem_append.1 unmentioned
  have orderly₁ : s₁.Orderly store rules :=
    first ▸ orderly_after files leavesBefore (blank.orderly filed)
  have nowhere := (orderly₁.keeps_nowhere_iff job.key).2 unknown
  -- it is added
  obtain ⟨spot₂, keeps₂, counts₂⟩ : ∃ spot, s₂.Keeps job.key spot ∧ spot.Counts 0 s₁.now := by
    rw [← added]
    rcases keeps_added orderly₁ nowhere with kept | kept
    · exact ⟨_, kept, fun _ e => by cases e⟩
    · exact ⟨_, kept, fun d e => by cases e; exact ⟨rfl, rfl⟩⟩
  have orderly₂ : s₂.Orderly store rules := added ▸ orderly_happen files orderly₁ trivial
  -- it goes its ways up to the failure, which is one more than those before
  obtain ⟨spot₃, keeps₃, counts₃⟩ := counts_after files leavesA spareA orderly₂ keeps₂ counts₂
  have orderly₃ := orderly_after files leavesA orderly₂
  have more : (failedIn w s₂ a).countP (·.key == job.key) + 1 = k := by
    rw [← count, failedIn_append, List.countP_append, between]
    simp [failedIn, failure, own]
  rw [between] at keeps₃ orderly₃
  subst failing waiting
  obtain ⟨waited, attempts, firstSeen⟩ := waited_since_failure files orderly₃ keeps₃ counts₃
    leavesRest spareRest failure own untaken forward next own'
  -- the count is below the largest that is kept
  have exact : c'.attempts = k := by
    rw [attempts, Nat.zero_add, more]
    exact Nat.min_eq_left (Nat.le_sub_one_of_lt small)
  rw [exact, RetryPolicy.window_eq short] at waited
  exact ⟨waited, exact, firstSeen⟩

end Scheduling

end

/-! ## A job that is refused once -/

namespace Site

variable {q q' q'' : JobQueue} {now : Nat} {c : Candidate} {job : Job}

/-- In a namespace without a quota a job is refused. -/
theorem filter_without_quota (c : Candidate) (job : Job) : ∃ message,
    standard.pipeline.filter c (recording job) = (.error message, recording job) := ⟨_, rfl⟩

theorem cycle_without_quota (same : c.job = job) (phase : job.phase = .enqueued)
    (named : job.queueName = Job.defaultQueue) (pop : q.pop = .ok (c, q'))
    (put : q'.delay ((c.replace job).failedAt now) = .ok q'') :
    cycle standard (idling (alone q) now (recording job)) =
      (.retrying, idling (alone q'') now (recording job)) := by
  obtain ⟨message, filter⟩ := filter_without_quota c job
  have looked : standard.client.get c.job.ns c.job.name (recording job) =
      (.ok job, recording job) := by
    rw [same]
    exact read_recording job
  have chosen : retryable standard c (recording job) = some (c.replace job) := by
    unfold retryable
    rw [looked]
    dsimp only
    rw [if_neg (by rw [phase]; decide)]
  rw [cycle_of_pop rfl (popNext_alone pop)]
  unfold attempt consult
  rw [bind_run]
  dsimp only
  rw [show (idling (alone q) now (recording job)).env = recording job from rfl, filter]
  show (retry standard c message >>= fun _ => pure Outcome.retrying : Scheduling Site Outcome)
    (idling (alone q') now (recording job)) = _
  rw [bind_run, retry_run,
    show (idling (alone q') now (recording job)).env = recording job from rfl, chosen, looked]
  dsimp only
  rw [delayAgain_run]
  dsimp only
  rw [show (c.replace job).job.queueName = Job.defaultQueue from named,
    show (idling (alone q') now (recording job)).queues.lookup? Job.defaultQueue =
      some (0, q') from rfl]
  dsimp only
  rw [show (idling (alone q') now (recording job)).now = now from rfl, put]
  rfl

/-- A job that is added to an empty default queue fails in the next cycle, and can be taken again
when its window has ended. -/
theorem refused_once (vacant : q.Vacant) (now : Nat) (phase : job.phase = .enqueued)
    (named : job.queueName = Job.defaultQueue) :
    let s := happen standard (idling (alone q) now (recording job)) (.job (.added job))
    let c := ((Candidate.fresh job now).replace job).failedAt now
    failed standard s .cycle = some (.fresh job now) ∧
      ∃ q', happen standard s .cycle = idling (alone q') now (recording job) ∧
        ∀ later, q.timing.retry.deadline c ≤ later →
          ∃ left, (alone (q'.flush later).2).popNext = some (c, left) := by
  intro s c
  obtain ⟨filled, left, put, pop, emptied, charter⟩ := vacant.requeue_pop (.fresh job now)
  have added : s = idling (alone filled) now (recording job) :=
    happen_added rfl rfl phase named put
  have timing : left.timing = q.timing := congrArg (·.2.2) charter
  obtain ⟨q', delayed, again⟩ := emptied.delay_flush_pop c
  have cycled : cycle standard s = (.retrying, idling (alone q') now (recording job)) := by
    rw [added]
    exact cycle_without_quota rfl phase named pop delayed
  refine ⟨?_, q', congrArg Prod.snd cycled, fun later ended => ?_⟩
  · rw [failed_cycle, cycled, if_pos rfl, added]
    show (alone filled).popNext.map (·.1) = _
    rw [popNext_alone pop]
    rfl
  · obtain ⟨q'', pop'⟩ := again later (timing ▸ ended)
    exact ⟨_, popNext_alone pop'⟩

/-- The record changes, and a second passes. -/
def oneSecond (job : Job) : List (Happening Site) :=
  [.world fun site => storeSlot.set (site.store.insert { job with priority := some 5 }) site,
    .world fun site => storeSlot.set (site.store.remove "n" "y").2 site,
    .clock 1000000000, .flush 0]

theorem files_oneSecond (job : Job) : ∀ z ∈ oneSecond job, z.Files storeSlot := by
  intro z hz
  simp only [oneSecond, List.mem_cons, List.not_mem_nil, or_false] at hz
  rcases hz with rfl | rfl | rfl | rfl
  · exact fun _ filed => JobStore.Filed.insert filed _
  · exact fun _ filed => JobStore.Filed.remove filed _ _
  · exact trivial
  · exact trivial

end Site

namespace Scheduling

open Site

/-- A job of a namespace without a quota is taken for the second time after a second. -/
theorem retried_after_window_of_second :
    let job := Job.new "n" "x" "TFJob"
    let start := idling (.new byPriority) 0 (recording job)
    let s₁ := after standard start [.queue (.added (QueueDef.new "default" 0))]
    let s₂ := happen standard s₁ (.job (.added job))
    let s₃ := happen standard s₂ .cycle
    let s₄ := after standard s₃ (oneSecond job)
    (failed standard s₂ .cycle).map (·.key) = some job.key ∧
      ∃ c, taken s₄ .cycle = some c ∧ c.key = job.key ∧
        s₂.now + min (byPriority.timing.retry.initial * 2 ^ (1 - 1)) byPriority.timing.retry.limit ≤
          s₄.now ∧ c.attempts = 1 ∧ c.firstSeen = s₁.now := by
  intro job start s₁ s₂ s₃ s₄
  have vacant := JobQueue.vacant_new (QueueDef.new "default" 0) Priority.jobOrder .standard false
  obtain ⟨failure, q, e₃, again⟩ := refused_once vacant 0 (rfl : job.phase = .enqueued) rfl
  change failed standard s₂ .cycle = _ at failure
  change s₃ = _ at e₃
  have e₄ : s₄ = idling (alone (q.flush 1000000000).2) 1000000000 s₄.env := by
    show after standard s₃ (oneSecond job) = idling _ _ (after standard s₃ (oneSecond job)).env
    rw [e₃]
    rfl
  have next : taken s₄ .cycle = some (((Candidate.fresh job 0).replace job).failedAt 0) := by
    obtain ⟨left, pop⟩ := again 1000000000 (by decide)
    rw [taken_cycle, e₄]
    show (alone (q.flush 1000000000).2).popNext.map (·.1) = _
    rw [pop]
    rfl
  have count : (failedIn standard s₂ ([] ++ [.cycle])).countP (·.key == job.key) = 1 := by
    show ((failed standard s₂ .cycle).toList ++ []).countP _ = 1
    rw [failure]
    decide
  have forward : ClockForward standard s₃ (oneSecond job) := by
    rw [e₃]
    exact ⟨le_rfl, le_rfl, Nat.zero_le _, le_rfl, trivial⟩
  -- no event names it but the one that adds it
  have blank : start.Blank byPriority := ⟨rfl, rfl, rfl⟩
  have filed : storeSlot.Filed start.env := JobStore.filed_empty.insert job
  have unknown : ¬ s₁.Knows job.key :=
    unknown_after files_standard blank filed (by simp [Happening.Files])
      (by simp [Happening.Mentions])
  refine ⟨by rw [failure]; rfl, _, next, rfl, retried_after_window files_standard (by decide) blank
    filed (a := []) (x := .cycle) (y := .cycle) rfl rfl rfl rfl rfl ?_ unknown ?_ failure rfl count
    (by decide) ?_ forward next rfl⟩
  · refine List.forall_mem_cons.2 ⟨trivial, List.forall_mem_cons.2 ⟨trivial, ?_⟩⟩
    exact files_oneSecond job
  · refine List.forall_mem_cons.2 ⟨id, ?_⟩
    simp [oneSecond, Happening.Mentions]
  · exact fun _ hd => by cases hd

end Scheduling

end JobAdmission
