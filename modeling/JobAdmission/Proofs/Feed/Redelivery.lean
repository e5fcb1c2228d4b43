/-
Events that are delivered twice. The second delivery finds what the first one left behind. For an
event about a job that is enough: whatever was to be put in is there, whatever was to be taken out
is gone, so nothing changes a second time. A change of a queue that gives it another name is no such
event. The second delivery finds the old name gone and the new one taken by the queue that the jobs
moved into, and takes that one's place with a queue that holds nothing.
-/
import JobAdmission.Proofs.Feed.Refusal
import JobAdmission.Proofs.Queue.Redelivery

namespace JobAdmission

variable {E : Type}

/-! ## One queue -/

namespace JobQueue

open KeyedHeap

variable {q q' : JobQueue} {c : Candidate} {key : String}

/-- What a queue has just taken it refuses. -/
theorem requeue_again (e : q.requeue c = .ok q') : ∃ reason, q'.requeue c = .error reason := by
  obtain ⟨ready, rfl, opened, absent, pushed⟩ := requeue_eq_push e
  unfold requeue
  dsimp only
  rw [opened, absent, push_of_contains (contains_push pushed)]
  exact ⟨_, rfl⟩

/-- What is taken out of the heap that holds it is held no more, as the other heap does not hold it
either. -/
theorem holds_remove_self (h : q.Sound) (key : String) : (q.remove key).2.holds key = false := by
  unfold holds
  rw [Bool.or_eq_false_iff, Bool.eq_false_iff, Bool.eq_false_iff]
  rcases remove_cases h.toIndexed key with ⟨c, ready, found, ri, perm, e⟩ |
    ⟨free, c, delayed, found, di, perm, e⟩ | ⟨free, free', e⟩
  · have key_eq : Keyed.key c = key := (h.ready.find?_eq_some_iff.1 found).2
    rw [e]
    exact ⟨fun held => ((h.ready.contains_of_taken ri perm key).1 held).1 key_eq,
      fun held => h.oneHeap key ⟨contains_of_find? h.ready found, held⟩⟩
  · have key_eq : Keyed.key c = key := (h.delayed.find?_eq_some_iff.1 found).2
    rw [e]
    exact ⟨not_contains_of_find? h.ready free,
      fun held => ((h.delayed.contains_of_taken di perm key).1 held).1 key_eq⟩
  · rw [e]
    exact ⟨not_contains_of_find? h.ready free, not_contains_of_find? h.delayed free'⟩

/-- A version that was put in the place of another one is put in its own place, if the key is the
same; and if it is not, nothing is held under the old key. -/
theorem replaceIn_again {less : JobOrder} (less' : JobOrder) {h h' : KeyedHeap Candidate}
    {job : Job} {current : Candidate} {done : Bool} (hi : h.Indexed)
    (hf : h.find? key = some current) (e : replaceIn less h key job = some (done, h')) :
    if job.key = key then
      ∃ done' h'', replaceIn less' h' key job = some (done', h'') ∧ h'.toList.Perm h''.toList
    else h'.find? key = none := by
  obtain ⟨hi', keys⟩ := contains_replaceIn hi hf e
  split
  · rename_i same
    obtain ⟨_, _, rest, e', -, -, ⟨-, perm⟩ | ⟨-, other, -⟩⟩ :=
      @replaceIn_spec less h key job current hi hf
    · rw [e] at e'
      cases e'
      have found : h'.find? key = some (current.replace job) :=
        hi'.find?_eq_some_iff.2 ⟨perm.mem_iff.2 List.mem_cons_self, same⟩
      obtain ⟨done', h'', rest', again, -, perm', ⟨-, perm''⟩ | ⟨-, other, -⟩⟩ :=
        @replaceIn_spec less' h' key job (current.replace job) hi' found
      · exact ⟨done', h'', again, perm'.trans perm''.symm⟩
      · exact absurd same other
    · exact absurd same other
  · rename_i other
    rw [Option.eq_none_iff_forall_ne_some]
    intro c found
    rcases (keys key).1 (contains_of_find? hi' found) with same | ⟨self, -⟩
    · exact other same.symm
    · exact self rfl

/-- An update that is made twice leaves the same candidates as one. -/
theorem holdsSame_update_again (h : q.Sound) (old new : Job) :
    (q.update old new).2.HoldsSame ((q.update old new).2.update old new).2 := by
  rcases update_cases q old new with ⟨c, done, ready, found, e, updated⟩ |
    ⟨free, c, done, delayed, found, e, updated⟩ | ⟨-, -, updated⟩
  · have absent : q.delayed.find? old.key = none := by
      rw [Option.eq_none_iff_forall_ne_some]
      intro d found'
      exact h.oneHeap old.key
        ⟨contains_of_find? h.ready found, contains_of_find? h.delayed found'⟩
    have again := replaceIn_again q.order h.ready found e
    rw [updated]
    unfold update
    dsimp only
    split at again
    · obtain ⟨_, ready', e', perm⟩ := again
      rw [e']
      exact ⟨perm, .refl _⟩
    · rw [replaceIn_of_find?_none again, replaceIn_of_find?_none absent]
      exact .refl _
  · have again := replaceIn_again q.byDeadline h.delayed found e
    rw [updated]
    unfold update
    dsimp only
    rw [replaceIn_of_find?_none free]
    split at again
    · obtain ⟨_, delayed', e', perm⟩ := again
      rw [show ({ q with delayed } : JobQueue).byDeadline = q.byDeadline from rfl, e']
      exact ⟨.refl _, perm⟩
    · rw [replaceIn_of_find?_none again]
      exact .refl _
  · rw [updated, updated]
    exact .refl _

end JobQueue

/-- A name leads where it did when a queue of another name is put back. -/
theorem QueueSet.Named.lookup?_put_of_ne {s : QueueSet} (named : s.Named) {name name' : String}
    {id : QueueId} {q : JobQueue} (found : s.lookup? name' = some (id, q)) (hne : name ≠ name')
    (q' : JobQueue) : (s.put id q').lookup? name = s.lookup? name := by
  unfold lookup?
  show (s.idOf? name).bind _ = _
  rcases known : s.idOf? name with _ | k
  · rfl
  · have other : id ≠ k := by
      rintro rfl
      exact hne (named.unique known (lookup?_eq_some_iff.1 found).1)
    rw [Option.bind_some, Option.bind_some, queue?_put, if_neg fun both => other both.1]

/-! ## One queue with one job -/

namespace Site

open QueueSet

/-- A registry with one queue, into which a job was put. -/
def holdingOne (name : String) (job : Job) : QueueSet :=
  (QueueSet.new byPriority).after [.add (QueueDef.new name 0), .call 0 0 (.submit job)]

theorem sound_holdingOne (name : String) (job : Job) : (holdingOne name job).Sound :=
  (sound_new byPriority).after _

/-- The queue has no other job. -/
theorem queue?_holdingOne (name : String) (job : Job) :
    ∃ q, (holdingOne name job).queue? 0 = some q ∧ q.Sound ∧
      q.ready.toList = [.fresh job 0] ∧ q.delayed.toList = [] := by
  have sound := JobQueue.sound_new (QueueDef.new name 0) Priority.jobOrder .standard false
  have vacant := JobQueue.vacant_new (QueueDef.new name 0) Priority.jobOrder .standard false
  obtain ⟨ready, put, -, perm⟩ := JobQueue.requeue_of_free vacant.indexed vacant.opened
    (vacant.holds (Candidate.fresh job 0).key)
  rw [vacant.ready, List.perm_singleton] at perm
  refine ⟨(QueueCall.submit job).run 0
    (.new (QueueDef.new name 0) Priority.jobOrder .standard false), rfl,
    QueueCall.sound_submit sound 0 job, ?_⟩
  show ((JobQueue.requeue _ _).toOption.getD _).ready.toList = _ ∧
    ((JobQueue.requeue _ _).toOption.getD _).delayed.toList = _
  rw [put]
  exact ⟨perm, vacant.delayed⟩

theorem oneHeap_holdingOne (name : String) (job : Job) :
    (holdingOne name job).Each JobQueue.OneHeap := by
  obtain ⟨q, there, sound, -⟩ := queue?_holdingOne name job
  rintro (_ | id) q' there'
  · rw [there] at there'
    cases there'
    exact sound.oneHeap
  · cases there'

end Site

/-! ## Events about queues -/

namespace Scheduling

open QueueSet

/-- A change of a queue is that step of the registry. -/
theorem queues_applyQueueEvent_updated (old new : QueueDef) (s : SchedulerState E) :
    (applyQueueEvent (.updated old new) s).2.queues = s.queues.step (.update old new) := by
  show (changeQueues (·.update old new) s).2.queues = (s.queues.update old new).toOption.getD _
  unfold changeQueues
  rw [bind_run, get_run]
  dsimp only
  rcases s.queues.update old new with _ | queues <;> rfl

/-- In every state of a registry, a change of a queue that is delivered twice leaves the names as
one delivery does, and the jobs too, unless the queue got another name and jobs moved into it: then
that name leads in the end to an open queue that holds nothing, and the queue with the jobs is
closed. -/
theorem redelivered_queue_change (rules : QueueRules) (run : List RegistryStep)
    (old new : QueueDef) (s : SchedulerState E) :
    let before := { s with queues := (QueueSet.new rules).after run }
    let once := (applyQueueEvent (.updated old new) before).2
    let twice := (applyQueueEvent (.updated old new) once).2
    before.queues.RedefinedTwice once.queues twice.queues old new := by
  intro before once twice
  have sound : before.queues.Sound := (sound_new rules).after run
  rw [show twice.queues = _ from queues_applyQueueEvent_updated old new once,
    show once.queues = _ from queues_applyQueueEvent_updated old new before]
  exact sound.redefined_twice old new

/-- A queue with a job is given another name, twice: then the job is gone. -/
theorem job_lost_by_redelivery :
    let job := Job.new "n" "x" "TFJob"
    let old := QueueDef.new "a" 0
    let new := QueueDef.new "b" 0
    let s := Site.idling (Site.holdingOne "a" job) 0 .empty
    let once := (applyQueueEvent (.updated old new) s).2
    let twice := (applyQueueEvent (.updated old new) once).2
    orderOf? s.queues.rules old = some Priority.jobOrder ∧
      orderOf? s.queues.rules new = some Priority.jobOrder ∧
      once.queues.heldUnder new.name = ([.fresh job 0], []) ∧
      twice.queues.heldUnder new.name = ([], []) := by
  intro job old new s once twice
  have known : orderOf? s.queues.rules new = some Priority.jobOrder := rfl
  have sound : s.queues.Sound := Site.sound_holdingOne "a" job
  have at_once : once.queues = s.queues.step (.update old new) :=
    queues_applyQueueEvent_updated old new s
  have at_twice : twice.queues = once.queues.step (.update old new) :=
    queues_applyQueueEvent_updated old new once
  have held : s.queues.heldUnder old.name = ([.fresh job 0], []) := by
    obtain ⟨q, there, -, ready, delayed⟩ := Site.queue?_holdingOne "a" job
    have found : s.queues.lookup? old.name = some (0, q) := lookup?_of_idOf? rfl there
    unfold heldUnder
    rw [found]
    exact Prod.ext ready delayed
  refine ⟨rfl, known, ?_, ?_⟩
  · obtain ⟨id, q, found, -, -, -, -, ready, delayed, -⟩ := sound.registered_of_update
      (Site.oneHeap_holdingOne "a" job) known (step_update_of_known known old)
    rw [held] at ready delayed
    unfold heldUnder
    rw [at_once, found]
    exact Prod.ext (List.perm_singleton.1 ready) (List.perm_nil.1 delayed)
  · rw [at_twice, at_once]
    exact (sound.redefined_twice old new).emptied (by simp [known]) (by decide)

/-! ## Events about jobs -/

/-- What an event about a job does to a scheduler. -/
inductive Does (w : Wiring E) : (SchedulerState E → SchedulerState E) → Prop where
  | nothing : Does w id
  | put (job : Job) : Does w fun s => (enqueue job s).2
  | replace (old new : Job) : Does w fun s => (updateQueued old new s).2
  | move (old new : Job) (moves : old.queueName ≠ new.queueName) :
    Does w fun s => (enqueue new (withdraw old s).2).2
  | take (job : Job) : Does w fun s => (withdraw job s).2
  | reserve (job : Job) : Does w fun s => (reserveAdmitted w job s).2
  | dequeue (old new : Job) : Does w fun s => (reserveAdmitted w new (withdraw old s).2).2
  | giveBack (job : Job) : Does w fun s => (unreserveAdmitted w job s).2
  | putBack (old new : Job) : Does w fun s => (enqueue new (unreserveAdmitted w old s).2).2

theorem does_applyJobEvent (w : Wiring E) (event : JobEvent) :
    Does w fun s => (applyJobEvent w event s).2 := by
  cases event with
  | added job =>
    show Does w fun s => (addJob w job s).2
    unfold addJob
    rcases job.phase with _ | _
    · exact .put job
    · exact .reserve job
  | updated old new =>
    show Does w fun s => (updateJob w old new s).2
    unfold updateJob
    rcases old.phase with _ | _ <;> rcases new.phase with _ | _
    · dsimp only
      split
      · exact .replace old new
      · rename_i moves
        exact .move old new moves
    · exact .dequeue old new
    · exact .putBack old new
    · exact .nothing
  | deleted job =>
    show Does w fun s => (deleteJob w job s).2
    unfold deleteJob
    rcases job.phase with _ | _
    · exact .take job
    · exact .giveBack job

section

variable {w : Wiring E} {slot : LedgerSlot E} {quotas : QuotaListing E} {s t : SchedulerState E}
  {job old new : Job}

/-! ### The queues -/

/-- A job that was put into its queue, or refused, is refused the second time. -/
theorem enqueue_again (queues : t.queues = (enqueue job s).2.queues) (now : t.now = s.now) :
    (enqueue job t).2 = t := by
  rcases known : s.queues.lookup? job.queueName with _ | ⟨id, q⟩
  · rw [enqueue_of_unknown known] at queues
    exact enqueue_of_unknown (queues ▸ known)
  · rcases put : q.submit s.now job with reason | q'
    · rw [enqueue_of_refused known put] at queues
      exact enqueue_of_refused (queues ▸ known) (now ▸ put)
    · rw [queues_enqueue known put] at queues
      obtain ⟨reason, refused⟩ := JobQueue.requeue_again put
      exact enqueue_of_refused (queues ▸ lookup?_put known q') (now ▸ refused)

/-- A job that was taken out waits no more. -/
theorem not_waits_withdraw (sound : s.queues.Sound) (one : s.queues.Each JobQueue.OneHeap) :
    ¬ Waits (withdraw job s).2 job := by
  rintro ⟨id, q, found, held⟩
  rcases known : s.queues.lookup? job.queueName with _ | ⟨k, r⟩
  · rw [withdraw_of_unknown known, known] at found
    cases found
  · have there := lookup?_queue known
    have gone := JobQueue.holds_remove_self ⟨sound.indexed k r there, one k r there⟩ job.key
    rw [withdraw_of_known known, lookup?_put known] at found
    cases found
    exact Bool.noConfusion (held.symm.trans gone)

/-- A job that is put into another queue does not make one wait in the first. -/
theorem waits_of_enqueue (sound : s.queues.Sound) (moves : old.queueName ≠ new.queueName)
    (h : Waits (enqueue new s).2 old) : Waits s old := by
  obtain ⟨id, q, found, held⟩ := h
  refine ⟨id, q, ?_, held⟩
  rw [← found]
  rcases known : s.queues.lookup? new.queueName with _ | ⟨k, r⟩
  · rw [enqueue_of_unknown known]
  · rcases put : r.submit s.now new with reason | r'
    · rw [enqueue_of_refused known put]
    · rw [queues_enqueue known put, sound.named.lookup?_put_of_ne known moves]

theorem withdraw_again (sound : s.queues.Sound) (one : s.queues.Each JobQueue.OneHeap)
    (sound' : t.queues.Sound) (queues : t.queues = (withdraw job s).2.queues) :
    (withdraw job t).2 = t := by
  refine withdraw_of_not_waits sound'.indexed ?_
  unfold Waits
  rw [queues]
  exact not_waits_withdraw sound one

/-- A job that was replaced is replaced by itself. -/
theorem unchanged_updateQueued_again (sound : s.queues.Sound)
    (one : s.queues.Each JobQueue.OneHeap) :
    Unchanged slot (updateQueued old new s).2
      (updateQueued old new (updateQueued old new s).2).2 := by
  rcases known : s.queues.lookup? new.queueName with _ | ⟨id, q⟩
  · rw [updateQueued_of_unknown known, updateQueued_of_unknown known]
    exact unchanged_of_eq rfl rfl
  · have there := lookup?_queue known
    have replaced := lookup?_put known (q.update old new).2
    rw [updateQueued_of_known known, updateQueued_of_known replaced]
    refine unchanged_put (lookup?_queue replaced) ?_
    exact JobQueue.holdsSame_update_again ⟨sound.indexed id q there, one id q there⟩ old new

/-! ### The ledger -/

section

variable (law : slot.Lawful) (standard : w.pipeline = .standard slot quotas)

include law standard

/-- An admitted job is entered in the ledger. -/
theorem ledger_reserveAdmitted (job : Job) (s : SchedulerState E) :
    slot.get (reserveAdmitted w job s).2.env =
      ((slot.get s.env).reserve (.fresh job s.now)).2 := by
  show slot.get (w.pipeline.reserve _ s.env).2 = _
  rw [standard, Pipeline.reserve_standard]
  exact law _ _

/-- A job whose reservations were taken keeps them. -/
theorem unchanged_reserveAdmitted_again (now : t.now = s.now)
    (ledger : slot.get t.env = slot.get (reserveAdmitted w job s).2.env) :
    Unchanged slot t (reserveAdmitted w job t).2 := by
  refine unchanged_of_eq rfl ?_
  rw [ledger_reserveAdmitted law standard, ledger, ledger_reserveAdmitted law standard, now,
    Ledger.reserve_of_reserved]
  simp [Ledger.isReserved_reserve]

/-- A job whose reservations were given back has none to give back. -/
theorem unchanged_unreserveAdmitted_again (now : t.now = s.now)
    (ledger : slot.get t.env = slot.get (unreserveAdmitted w job s).2.env) :
    Unchanged slot t (unreserveAdmitted w job t).2 := by
  have returned : ∀ s : SchedulerState E, slot.get (unreserveAdmitted w job s).2.env =
      (slot.get s.env).unreserve (.fresh job s.now) := by
    intro s
    show slot.get (w.pipeline.unreserve _ s.env).2 = _
    rw [standard, Pipeline.unreserve_standard]
    exact law _ _
  refine unchanged_of_eq rfl ?_
  rw [returned, ledger, returned, now, Pipeline.unreserve_unreserve]

/-- What an event did it does not do again. -/
theorem Does.unchanged_again {act : SchedulerState E → SchedulerState E} (does : Does w act)
    (sound : s.queues.Sound) (one : s.queues.Each JobQueue.OneHeap)
    (sound' : (act s).queues.Sound) : Unchanged slot (act s) (act (act s)) := by
  cases does with
  | nothing => exact unchanged_of_eq rfl rfl
  | put job =>
    dsimp only
    rw [enqueue_again rfl (now_enqueue job s)]
    exact unchanged_of_eq rfl rfl
  | replace old new => exact unchanged_updateQueued_again sound one
  | move old new moves =>
    dsimp only at sound' ⊢
    have left : ¬ Waits (enqueue new (withdraw old s).2).2 old := fun waits =>
      not_waits_withdraw sound one (waits_of_enqueue (sound_withdraw sound old) moves waits)
    rw [withdraw_of_not_waits sound'.indexed left, enqueue_again rfl (now_enqueue new _)]
    exact unchanged_of_eq rfl rfl
  | take job =>
    dsimp only at sound' ⊢
    rw [withdraw_again sound one sound' rfl]
    exact unchanged_of_eq rfl rfl
  | reserve job => exact unchanged_reserveAdmitted_again law standard (s := s) rfl rfl
  | dequeue old new =>
    dsimp only at sound' ⊢
    rw [withdraw_again sound one sound' rfl]
    exact unchanged_reserveAdmitted_again law standard (s := (withdraw old s).2) rfl rfl
  | giveBack job => exact unchanged_unreserveAdmitted_again law standard (s := s) rfl rfl
  | putBack old new =>
    dsimp only
    generalize before : (unreserveAdmitted w old s).2 = s'
    rw [enqueue_again (t := (unreserveAdmitted w old (enqueue new s').2).2) (s := s') rfl
      (now_enqueue new s')]
    refine unchanged_unreserveAdmitted_again law standard (s := s) ?_ ?_
    · rw [now_enqueue, ← before]
      rfl
    · rw [env_enqueue, before]

/-- In every state in which no queue holds a key twice, an event about a job that is delivered
twice leaves the same candidates in the same heaps of the same queues, and the same ledger, as one
delivery does. -/
theorem redelivered_job_event (rules : QueueRules) (run : List RegistryStep)
    (reached : s.queues = (QueueSet.new rules).after run)
    (one : s.queues.Each JobQueue.OneHeap) (event : JobEvent) :
    let once := (applyJobEvent w event s).2
    Unchanged slot once (applyJobEvent w event once).2 := by
  have sound : s.queues.Sound := reached ▸ (sound_new rules).after run
  exact (does_applyJobEvent w event).unchanged_again law standard sound one
    ((leads_applyJobEvent w event s).sound sound)

end

end

/-- A waiting job disappears, twice: the first time it is taken out of its queue. -/
theorem redelivered_job_event_deleted :
    let job := Job.new "n" "x" "TFJob"
    let s := Site.idling (Site.holdingOne Job.defaultQueue job) 0 .empty
    let once := (applyJobEvent Site.standard (.deleted job) s).2
    s.queues.Each JobQueue.OneHeap ∧ ¬ Unchanged Site.sharedLedger s once ∧
      Unchanged Site.sharedLedger once (applyJobEvent Site.standard (.deleted job) once).2 := by
  intro job s once
  have one : s.queues.Each JobQueue.OneHeap := Site.oneHeap_holdingOne _ job
  have sound : s.queues.Sound := Site.sound_holdingOne _ job
  have waits : Waits s job := by
    obtain ⟨q, there, sound, ready, -⟩ := Site.queue?_holdingOne Job.defaultQueue job
    refine ⟨0, q, lookup?_of_idOf? rfl there, (Bool.or_eq_true ..).mpr (.inl ?_)⟩
    exact sound.ready.contains_iff.2 ⟨.fresh job 0, by simp [ready], rfl⟩
  exact ⟨one, changed_of_waits sound.indexed waits,
    redelivered_job_event Site.lawful_sharedLedger rfl Site.byPriority _ rfl one (.deleted job)⟩

end Scheduling

end JobAdmission
