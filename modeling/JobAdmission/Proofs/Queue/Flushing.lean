/-
Which queues have a running background flush. Three flags decide it: whether the registry runs,
whether its flushes were told to stop, and whether the queue itself was. Starting the registry
starts its queues and those made later, but nothing takes a stop back: after a close every queue
that is made is stopped from the beginning, also in a registry that was started again. So as long as
nobody closed the registry, every open queue of a started one flushes; and once somebody did, none
does.
-/
import JobAdmission.Proofs.Queue.Flush

namespace JobAdmission

/-! ## What operations do to the background flush -/

namespace JobQueue

/-- The background flush runs: it was started, and was not told to stop. -/
def Flushing (q : JobQueue) : Prop := q.stopped = false ∧ q.nextFlush.isSome = true

/-- The background flush has had task time if it was started. Until then its first flush is due, and
if it is told to stop meanwhile it is open whether that flush is still done. -/
def HadTurn (q : JobQueue) : Prop := q.nextFlush ≠ some 0

variable {q q' q'' : JobQueue}

/-- What may become of a queue that nobody tells to stop without closing it: it is not opened again,
and its background flush is not taken from it. -/
structure Onward (q q' : JobQueue) : Prop where
  closed : q.closed = true → q'.closed = true
  stopped : q.stopped = true → q'.stopped = true
  stopped_of : q'.stopped = true → q.stopped = true ∨ q'.closed = true
  flushing : q.nextFlush.isSome = true → q'.nextFlush.isSome = true ∨ q'.stopped = true

theorem Onward.refl (q : JobQueue) : q.Onward q := ⟨id, id, .inl, .inl⟩

theorem Onward.trans (h : q.Onward q') (h' : q'.Onward q'') : q.Onward q'' where
  closed := h'.closed ∘ h.closed
  stopped := h'.stopped ∘ h.stopped
  stopped_of e := by
    rcases h'.stopped_of e with e | e
    · exact (h.stopped_of e).imp_right h'.closed
    · exact .inr e
  flushing e := by
    rcases h.flushing e with e | e
    · exact h'.flushing e
    · exact .inr (h'.stopped e)

theorem OnlyHeaps.onward (h : q.OnlyHeaps q') : q.Onward q' := by
  rw [h]
  exact ⟨id, id, .inl, .inl⟩

theorem onward_start (q : JobQueue) : q.Onward q.start := by
  unfold start
  split
  · exact .refl q
  · exact ⟨id, id, .inl, fun _ => .inl rfl⟩

theorem onward_close (q : JobQueue) : q.Onward q.close :=
  ⟨fun _ => rfl, fun _ => rfl, fun _ => .inr rfl, .inl⟩

theorem onward_elapse (q : JobQueue) (now span : Nat) : q.Onward (q.elapse now span) := by
  unfold elapse
  split
  · rename_i stopped
    exact ⟨id, id, .inl, fun _ => .inr stopped⟩
  · split
    · exact .refl q
    · split
      · have flushed : q.Onward (q.flush now).2 := (onlyHeaps_flushUpTo now _ q).onward
        exact ⟨flushed.closed, flushed.stopped, flushed.stopped_of, fun _ => .inl rfl⟩
      · exact ⟨id, id, .inl, fun _ => .inl rfl⟩

theorem onward_run (call : QueueCall) (now : Nat) (q : JobQueue) : q.Onward (call.run now q) := by
  by_cases h : call = .close
  · subst h
    exact onward_close q
  · exact (onlyHeaps_run h now q).onward

theorem Flushing.onward (h : q.Flushing) (on : q.Onward q') (opened : q'.closed = false) :
    q'.Flushing := by
  have running : q'.stopped = false := by
    rw [← Bool.not_eq_true]
    intro stopped
    rcases on.stopped_of stopped with e | e
    · rw [h.1] at e; cases e
    · rw [opened] at e; cases e
  exact ⟨running, (on.flushing h.2).resolve_right (by rw [running]; exact Bool.false_ne_true)⟩

/-! ## The due time -/

/-- The next background flush is due within the interval, which is not zero. -/
def Timed (q : JobQueue) : Prop :=
  ∀ wait, q.nextFlush = some wait → wait ≤ q.timing.flushWait ∧ q.timing.flushEvery ≠ 0

theorem OnlyHeaps.timed (h : q.OnlyHeaps q') (timed : q.Timed) : q'.Timed := by
  rw [h]
  exact timed

theorem lasting_timed : Lasting Timed where
  new _ _ _ _ := nofun
  start q h := by
    unfold start
    split
    · exact h
    · rename_i opened
      simp only [Bool.or_eq_true, beq_iff_eq, not_or] at opened
      intro wait e
      cases e
      exact ⟨Nat.zero_le _, opened.2⟩
  stop _ h := h
  close _ h := h
  takeAll _ h := h
  receiveAll _ t _ h := (onlyHeaps_receiveAll t _).timed h
  requeue _ _ _ h e := (onlyHeaps_requeue e).timed h
  delay _ _ _ h e := (onlyHeaps_delay e).timed h
  update q old new h := (onlyHeaps_update q old new).timed h
  remove q key h := (onlyHeaps_remove q key).timed h
  pop _ _ _ h e := (onlyHeaps_pop e).timed h
  flush q now h := (onlyHeaps_flushUpTo now _ q).timed h
  elapse q now span h := by
    unfold elapse
    split
    · nofun
    · split
      · exact h
      · rename_i wait waits
        have due := h wait waits
        split
        · have same : (q.flush now).2.timing = q.timing :=
            congrArg (·.2.2) (onlyHeaps_flushUpTo now q.delayedCount q).charter
          intro next e
          cases e
          show _ ≤ (q.flush now).2.timing.flushWait ∧ (q.flush now).2.timing.flushEvery ≠ 0
          rw [same]
          exact ⟨Nat.sub_le _ _, due.2⟩
        · intro next e
          cases e
          exact ⟨Nat.le_trans (Nat.sub_le _ _) due.1, due.2⟩

/-- Within an interval the background flush gets its turn, and leaves no candidate whose window has
ended. -/
theorem Flushing.elapse (h : q.Flushing) (timed : q.Timed) (hi : q.Indexed) (ho : q.InOrder)
    {now span : Nat} (long : q.timing.flushEvery ≤ span) :
    ∀ c ∈ (q.elapse now span).delayed.toList, now < q.timing.retry.deadline c := by
  obtain ⟨running, waits⟩ := h
  obtain ⟨wait, waits⟩ := Option.isSome_iff_exists.1 waits
  have due : wait ≤ span :=
    ((timed wait waits).1.trans (Nat.min_le_left _ _)).trans long
  have same : (q.elapse now span).delayed = (q.flush now).2.delayed := by
    unfold JobQueue.elapse
    rw [running, if_neg Bool.false_ne_true, waits]
    dsimp only
    rw [if_pos due]
  intro c hc
  rw [same] at hc
  have left := (@delayed_flushUpTo q now hi ho.delayed _ (Nat.le_refl _)).mem_iff.1 hc
  have opened := (List.mem_filter.1 left).2
  unfold RetryPolicy.ended at opened
  simpa using opened

theorem hadTurn_elapse (timed : q.Timed) (now span : Nat) : (q.elapse now span).HadTurn := by
  unfold elapse
  split
  · nofun
  · split
    · rename_i none
      intro due
      rw [none] at due
      cases due
    · rename_i wait waits
      have step : 0 < q.timing.flushWait :=
        Nat.lt_min.2 ⟨Nat.pos_of_ne_zero (timed wait waits).2, by decide⟩
      have left : (span - wait) % q.timing.flushWait < q.timing.flushWait := Nat.mod_lt _ step
      split
      · intro due
        have : q.timing.flushWait - (span - wait) % q.timing.flushWait = 0 := Option.some.inj due
        omega
      · intro due
        have : wait - span = 0 := Option.some.inj due
        omega

/-- A queue whose background flush does not run is not flushed, however long it waits. -/
theorem delayed_elapse_of_not_flushing (h : ¬ q.Flushing) (now span : Nat) :
    (q.elapse now span).delayed = q.delayed := by
  unfold elapse
  split
  · rfl
  · rename_i running
    split
    · rfl
    · rename_i wait waits
      exact absurd ⟨by simpa using running, by rw [waits]; rfl⟩ h

end JobQueue

/-! ## What a step does to the background flushes -/

/-- A step that starts nothing and stops nothing but single queues. -/
def RegistryStep.Ordinary : RegistryStep → Prop
  | .start | .cancel | .close => False
  | _ => True

namespace QueueSet

open JobQueue

variable {s t u : QueueSet} {id : QueueId} {q q' : JobQueue} {d old new : QueueDef}

/-- What is done to all queues with a name has been done to each of them. -/
theorem mapNamed_of_idOf? {P : JobQueue → Prop} {f : JobQueue → JobQueue} (hf : ∀ q, P (f q))
    {name : String} (known : s.idOf? name = some id)
    (there : (s.mapNamed f).queue? id = some q) : P q := by
  have listed : id ∈ s.ids.values := NameMap.mem_values.2 ⟨name, known⟩
  unfold mapNamed at there
  generalize s.ids.values = ids at there listed
  -- from the end: the last modification of a queue is the one that counts
  induction ids using List.reverseRecOn generalizing q with
  | nil => cases listed
  | append_singleton ids last ih =>
    rw [List.foldl_append, List.foldl_cons, List.foldl_nil, queue?_modify] at there
    split at there
    · obtain ⟨q', -, rfl⟩ := Option.map_eq_some_iff.1 there
      exact hf q'
    · rename_i other
      exact ih there ((List.mem_append.1 listed).resolve_right fun e =>
        other (List.mem_singleton.1 e).symm)

theorem tracks_onward : Tracks Onward where
  refl := .refl
  trans _ _ _ h h' := h.trans h'
  takeAll _ := OnlyHeaps.onward rfl
  receiveAll q held := (onlyHeaps_receiveAll q held).onward
  pop _ _ _ e := (onlyHeaps_pop e).onward

/-- A queue as a registry makes it: it is stopped if the registry was, and started if that runs. -/
structure Made (s : QueueSet) (q : JobQueue) : Prop where
  stopped : q.stopped = s.cancelled
  started : s.running = true → s.rules.timing.flushEvery ≠ 0 → q.nextFlush.isSome = true

theorem made_of_make (e : s.make d = .ok (id, t)) :
    ∃ q, id = s.queues.size ∧ t = { s with queues := s.queues.push q } ∧ s.Made q := by
  unfold make at e
  split at e
  · cases e
  · cases e
    refine ⟨_, rfl, rfl, ?_, fun runs interval => ?_⟩
    · split
      · unfold JobQueue.start
        split <;> rfl
      · rfl
    · rw [if_pos runs]
      unfold JobQueue.start
      split
      · rename_i idle
        simp [JobQueue.new, interval] at idle
      · rfl

/-- What becomes of the background flushes while the registry is neither started nor stopped. -/
structure Onward (s t : QueueSet) : Prop where
  running : t.running = s.running
  cancelled : t.cancelled = s.cancelled
  queues : ∀ id q', t.queue? id = some q' →
    (∃ q, s.queue? id = some q ∧ q.Onward q') ∨
      s.queue? id = none ∧ ∃ q, s.Made q ∧ q.Onward q'
  names : ∀ name id, t.idOf? name = some id → s.idOf? name = some id ∨ s.queue? id = none

theorem Along.onward (h : Along JobQueue.Onward s t) : Onward s t := by
  constructor
  · rw [h.only]
  · rw [h.only]
  · exact fun id q' there => .inl (h.queues id q' there)
  · intro name id e
    rw [h.only] at e
    exact .inl e

/-- Names that are dropped do not matter. -/
theorem onward_erase (ids : NameMap QueueId)
    (sub : ∀ name id, ids.get? name = some id → s.idOf? name = some id)
    (h : Along JobQueue.Onward { s with ids } t) : Onward s t := by
  constructor
  · rw [h.only]
  · rw [h.only]
  · exact fun id q' there => .inl (h.queues id q' there)
  · intro name id e
    rw [h.only] at e
    exact .inl (sub name id e)

/-- A new queue is registered, and others may be closed or emptied. -/
theorem onward_push (made : s.Made q) (ids : NameMap QueueId) (name : String)
    (sub : ∀ name id, ids.get? name = some id → s.idOf? name = some id)
    (h : Along JobQueue.Onward
      { s with queues := s.queues.push q, ids := ids.insert name s.queues.size } t) :
    Onward s t := by
  constructor
  · rw [h.only]
  · rw [h.only]
  · intro id q' there
    obtain ⟨q₁, before, on⟩ := h.queues id q' there
    change ({ s with queues := s.queues.push q } : QueueSet).queue? id = some q₁ at before
    rw [queue?_push] at before
    split at before
    · rename_i last
      cases before
      subst last
      exact .inr ⟨queue?_size s, q, made, on⟩
    · exact .inl ⟨q₁, before, on⟩
  · intro other id e
    rw [h.only] at e
    change (ids.insert name s.queues.size).get? other = some id at e
    rw [NameMap.get?_insert] at e
    split at e
    · cases e
      exact .inr (queue?_size s)
    · exact .inl (sub other id e)

theorem onward_add (e : s.add d = .ok t) : Onward s t := by
  unfold add at e
  rcases made : s.make d with err | ⟨id, u⟩
  · rw [made] at e; cases e
  · rw [made] at e
    obtain ⟨q, rfl, rfl, isMade⟩ := made_of_make made
    cases e
    exact onward_push isMade s.ids d.name (fun _ _ e => e)
      (along_closeQueue tracks_onward onward_close _ _)

theorem get?_of_erase {ids : NameMap QueueId} {name other : String}
    (e : (ids.erase name).get? other = some id) : ids.get? other = some id := by
  rw [NameMap.get?_erase] at e
  split at e
  · cases e
  · exact e

theorem onward_update (e : s.update old new = .ok t) : Onward s t := by
  unfold update at e
  rcases made : s.make new with err | ⟨id, u⟩
  · rw [made] at e; cases e
  · rw [made] at e
    obtain ⟨q, rfl, rfl, isMade⟩ := made_of_make made
    have closing := along_closeQueue tracks_onward onward_close
    have renamed := fun {t} => onward_push (t := t) isMade (s.ids.erase old.name) new.name
      fun _ _ => get?_of_erase
    dsimp only [bind, Except.bind] at e
    split at e
    · cases e
      exact renamed (closing _ _)
    · cases e
      exact renamed (((closing _ _).trans tracks_onward (closing _ _)).trans tracks_onward
        (along_drain tracks_onward _ _ _))

theorem onward_delete (s : QueueSet) (name : String) : Onward s (s.delete name).2 := by
  unfold delete
  split
  · exact (Along.refl tracks_onward s).onward
  · rename_i id _
    have closed := along_closeQueue tracks_onward onward_close
      { s with ids := s.ids.erase name } (some id)
    exact onward_erase (s.ids.erase name) (fun _ _ => get?_of_erase) closed

theorem along_start (s : QueueSet) : Along JobQueue.Onward { s with running := true } s.start :=
  along_mapNamed tracks_onward onward_start _

theorem onward_step {x : RegistryStep} (ordinary : x.Ordinary) : Onward s (s.step x) := by
  cases x with
  | add d =>
    show Onward s ((s.add d).toOption.getD s)
    rcases e : s.add d with err | t
    · exact (Along.refl tracks_onward s).onward
    · exact onward_add e
  | update old new =>
    show Onward s ((s.update old new).toOption.getD s)
    rcases e : s.update old new with err | t
    · exact (Along.refl tracks_onward s).onward
    · exact onward_update e
  | delete name => exact onward_delete s name
  | call now id call => exact (along_modify tracks_onward (onward_run call now) s id).onward
  | drain source target => exact (along_drain tracks_onward s source target).onward
  | popNext => exact (along_popNext tracks_onward s).onward
  | elapse now span => exact (along_map (onward_elapse · now span) s).onward
  | start => exact ordinary.elim
  | cancel => exact ordinary.elim
  | close => exact ordinary.elim

/-! ## After a close -/

/-- Every queue was told to stop, and so will be those made later. -/
structure Halted (s : QueueSet) : Prop where
  cancelled : s.cancelled = true
  stopped : s.Each fun q => q.stopped = true

theorem Halted.onward (h : s.Halted) (on : Onward s t) : t.Halted := by
  refine ⟨on.cancelled.trans h.cancelled, fun id q' there => ?_⟩
  rcases on.queues id q' there with ⟨q, before, kept⟩ | ⟨-, q, made, kept⟩
  · exact kept.stopped (h.stopped id q before)
  · exact kept.stopped (made.stopped.trans h.cancelled)

theorem Halted.along (h : s.Halted) (on : Along JobQueue.Onward s t) : t.Halted :=
  h.onward on.onward

theorem halted_cancel (s : QueueSet) : s.cancel.Halted := by
  refine ⟨rfl, fun id q there => ?_⟩
  unfold queue? cancel at there
  rw [Array.getElem?_map] at there
  obtain ⟨q', -, rfl⟩ := Option.map_eq_some_iff.1 there
  rfl

theorem halted_close (s : QueueSet) : s.close.Halted :=
  (halted_cancel { s with running := false }).along (along_mapNamed tracks_onward onward_close _)

theorem Halted.step (h : s.Halted) (x : RegistryStep) : (s.step x).Halted := by
  cases x with
  | start =>
    have flagged : ({ s with running := true } : QueueSet).Halted := ⟨h.cancelled, h.stopped⟩
    exact flagged.along (along_start s)
  | cancel => exact halted_cancel s
  | close => exact halted_close s
  | _ => exact h.onward (onward_step trivial)

theorem Halted.after (h : s.Halted) (run : List RegistryStep) : (s.after run).Halted :=
  List.foldlRecOn run _ (motive := QueueSet.Halted) h fun _ h x _ => h.step x

/-! ## Before any close -/

/-- Only queues that were closed were told to stop. -/
structure Unhurt (s : QueueSet) : Prop where
  cancelled : s.cancelled = false
  closed : s.Each fun q => q.stopped = true → q.closed = true

theorem unhurt_new (rules : QueueRules) : (QueueSet.new rules).Unhurt :=
  ⟨rfl, each_new rules⟩

theorem Unhurt.onward (h : s.Unhurt) (on : Onward s t) : t.Unhurt := by
  refine ⟨on.cancelled.trans h.cancelled, fun id q' there stopped => ?_⟩
  rcases on.queues id q' there with ⟨q, before, kept⟩ | ⟨-, q, made, kept⟩
  · rcases kept.stopped_of stopped with e | e
    · exact kept.closed (h.closed id q before e)
    · exact e
  · rcases kept.stopped_of stopped with e | e
    · rw [made.stopped, h.cancelled] at e
      cases e
    · exact e

theorem Unhurt.start (h : s.Unhurt) : s.start.Unhurt := by
  have flagged : ({ s with running := true } : QueueSet).Unhurt := ⟨h.cancelled, h.closed⟩
  exact flagged.onward (along_start s).onward

theorem Unhurt.step (h : s.Unhurt) {x : RegistryStep} (not_cancel : x ≠ .cancel)
    (not_close : x ≠ .close) : (s.step x).Unhurt := by
  cases x with
  | start => exact h.start
  | cancel => exact absurd rfl not_cancel
  | close => exact absurd rfl not_close
  | _ => exact h.onward (onward_step trivial)

theorem Unhurt.after (h : s.Unhurt) {run : List RegistryStep} (not_cancel : .cancel ∉ run)
    (not_close : .close ∉ run) : (s.after run).Unhurt := by
  refine List.foldlRecOn run _ (motive := QueueSet.Unhurt) h fun _ h x hx => h.step ?_ ?_
  · rintro rfl
    exact not_cancel hx
  · rintro rfl
    exact not_close hx

/-! ## After a start -/

/-- The registry runs, and so does the background flush of every open queue with a name. -/
structure Lively (s : QueueSet) : Prop where
  running : s.running = true
  cancelled : s.cancelled = false
  flushing : ∀ name id q, s.idOf? name = some id → s.queue? id = some q → q.closed = false →
    q.Flushing

theorem Unhurt.lively_start (h : s.Unhurt) (sound : s.start.Sound)
    (interval : s.start.rules.timing.flushEvery ≠ 0) : s.start.Lively := by
  have started := h.start
  refine ⟨?_, started.cancelled, fun name id q known there opened => ⟨?_, ?_⟩⟩
  · rw [(along_start s).only]
  · rw [← Bool.not_eq_true]
    intro stopped
    have closed := started.closed id q there stopped
    rw [opened] at closed
    cases closed
  · have known' : ({ s with running := true } : QueueSet).idOf? name = some id := by
      rwa [(along_start s).only] at known
    refine mapNamed_of_idOf? (P := fun q => q.timing.flushEvery ≠ 0 → q.nextFlush.isSome = true)
      (fun q interval => ?_) known' there ?_
    · unfold JobQueue.start at interval ⊢
      split
      · rename_i idle
        rw [if_pos idle] at interval
        simpa [interval] using idle
      · rfl
    · rw [(sound.under id q there).2]
      exact interval

theorem Lively.onward (h : s.Lively) (interval : s.rules.timing.flushEvery ≠ 0)
    (on : Onward s t) : t.Lively := by
  refine ⟨on.running.trans h.running, on.cancelled.trans h.cancelled,
    fun name id q' known there opened => ?_⟩
  rcases on.queues id q' there with ⟨q, before, kept⟩ | ⟨-, q, made, kept⟩
  · have open_before : q.closed = false := by
      rw [← Bool.not_eq_true]
      intro closed
      rw [kept.closed closed] at opened
      cases opened
    have known_before : s.idOf? name = some id := by
      rcases on.names name id known with e | e
      · exact e
      · rw [before] at e
        cases e
    exact (h.flushing name id q known_before before open_before).onward kept opened
  · have flushing : q.Flushing :=
      ⟨made.stopped.trans h.cancelled, made.started h.running interval⟩
    exact flushing.onward kept opened

theorem Lively.step (h : s.Lively) (interval : s.rules.timing.flushEvery ≠ 0) {x : RegistryStep}
    (not_cancel : x ≠ .cancel) (not_close : x ≠ .close) : (s.step x).Lively := by
  cases x with
  | start =>
    have flagged : ({ s with running := true } : QueueSet).Lively := ⟨rfl, h.cancelled, h.flushing⟩
    exact flagged.onward interval (along_start s).onward
  | cancel => exact absurd rfl not_cancel
  | close => exact absurd rfl not_close
  | _ => exact h.onward interval (onward_step trivial)

theorem Lively.after (h : s.Lively) (interval : s.rules.timing.flushEvery ≠ 0)
    {run : List RegistryStep} (not_cancel : .cancel ∉ run) (not_close : .close ∉ run) :
    (s.after run).Lively := by
  induction run generalizing s with
  | nil => exact h
  | cons x run ih =>
    simp only [List.mem_cons, not_or] at not_cancel not_close
    refine ih (h.step interval (Ne.symm not_cancel.1) (Ne.symm not_close.1)) ?_ not_cancel.2
      not_close.2
    rwa [(s.descends_step x).rules]

/-! ## Started and never closed -/

theorem after_start (s : QueueSet) (before later : List RegistryStep) :
    s.after (before ++ .start :: later) = (s.after before).start.after later := by
  unfold after
  rw [List.foldl_append]
  rfl

/-- A close halts every queue, and no step after it takes that back. -/
theorem halted_of_closed (s : QueueSet) {run : List RegistryStep} (closed : .close ∈ run) :
    (s.after run).Halted := by
  obtain ⟨first, rest, rfl⟩ := List.append_of_mem closed
  unfold after
  rw [List.foldl_append, List.foldl_cons]
  exact (halted_close _).after rest

/-- A start sets everything going, unless a close came first. -/
theorem lively_of_started {rules : QueueRules} (interval : rules.timing.flushEvery ≠ 0)
    {before later : List RegistryStep} (not_cancelled : .cancel ∉ before ++ .start :: later)
    (not_closed : .close ∉ before ++ .start :: later) :
    ((QueueSet.new rules).after (before ++ .start :: later)).Lively := by
  simp only [List.mem_append, List.mem_cons, not_or] at not_cancelled not_closed
  have unhurt := (unhurt_new rules).after not_cancelled.1 not_closed.1
  have sound := ((sound_new rules).after before).step .start
  have same : ((QueueSet.new rules).after before).start.rules = rules :=
    (descends_step _ .start).rules.trans ((QueueSet.new rules).descends_after before).rules
  rw [← same] at interval
  rw [after_start]
  exact (unhurt.lively_start sound interval).after interval not_cancelled.2.2 not_closed.2.2

theorem lookup?_elapse {name : String} (found : s.lookup? name = some (id, q)) (now span : Nat) :
    (s.step (.elapse now span)).lookup? name = some (id, q.elapse now span) := by
  obtain ⟨known, there⟩ := lookup?_eq_some_iff.1 found
  refine lookup?_of_idOf? known ?_
  unfold queue? at there
  show (s.queues.map fun q => q.elapse now span)[id]? = _
  rw [Array.getElem?_map, there]
  rfl

/-- In a registry that was started and not closed since, the background flush of every open queue
with a name runs exactly if nobody has ever closed the registry, and the interval is not zero. Where
it runs, a wait of an interval leaves no delayed candidate whose window has ended; where it does
not, and has had its turn, the delayed candidates stay, however long the wait. One wait gives it its
turn. -/
theorem flushing_iff_never_closed (rules : QueueRules) (before later : List RegistryStep)
    (not_cancelled : .cancel ∉ before ++ .start :: later) (not_closed : .close ∉ later)
    {name : String} (registered : ((QueueSet.new rules).after (before ++ .start :: later)).lookup?
      name = some (id, q)) (opened : q.closed = false) :
    (q.Flushing ↔ .close ∉ before ∧ rules.timing.flushEvery ≠ 0) ∧
    ∀ now span, ∃ q', (((QueueSet.new rules).after (before ++ .start :: later)).step
        (.elapse now span)).lookup? name = some (id, q') ∧
      (q.Flushing → rules.timing.flushEvery ≤ span →
        ∀ c ∈ q'.delayed.toList, now < rules.timing.retry.deadline c) ∧
      (¬ q.Flushing → q.HadTurn → q'.delayed = q.delayed) ∧ q'.HadTurn := by
  obtain ⟨known, there⟩ := lookup?_eq_some_iff.1 registered
  have sound := (sound_new rules).after (before ++ .start :: later)
  have timed : q.Timed := each_of_lasting lasting_timed rules _ id q there
  have ordered : q.InOrder := each_of_lasting lasting_inOrder rules _ id q there
  have timing : q.timing = rules.timing := by
    rw [(sound.under id q there).2, ((QueueSet.new rules).descends_after _).rules]
    rfl
  constructor
  · constructor
    · intro flushing
      constructor
      · intro closed
        have halted := halted_of_closed (QueueSet.new rules)
          (List.mem_append_left (.start :: later) closed)
        have stopped : q.stopped = true := halted.stopped id q there
        rw [flushing.1] at stopped
        cases stopped
      · obtain ⟨wait, waits⟩ := Option.isSome_iff_exists.1 flushing.2
        rw [← timing]
        exact (timed wait waits).2
    · rintro ⟨never, interval⟩
      have lively := lively_of_started interval not_cancelled (by simp [never, not_closed])
      exact lively.flushing name id q known there opened
  · intro now span
    refine ⟨q.elapse now span, lookup?_elapse registered now span, fun flushing long => ?_,
      fun idle _ => delayed_elapse_of_not_flushing idle now span, hadTurn_elapse timed now span⟩
    rw [← timing] at long ⊢
    exact flushing.elapse timed (sound.indexed id q there) ordered long

/-- An open queue that holds nothing takes a candidate whose attempt failed. -/
theorem delay_to_empty {q : JobQueue} (opened : q.closed = false) (ready : q.ready = .empty)
    (delayed : q.delayed = .empty) (c : Candidate) (now : Nat) :
    ∃ delayed, (QueueCall.delay c).run now q = { q with delayed } ∧ c ∈ delayed.toList := by
  have indexed : q.Indexed := by
    constructor
    · rw [ready]
      exact KeyedHeap.indexed_empty
    · rw [delayed]
      exact KeyedHeap.indexed_empty
  have free : q.holds c.key = false := by
    unfold holds
    rw [ready, delayed, contains_empty]
    rfl
  obtain ⟨delayed', e, -, p⟩ := delay_of_free indexed opened free
  refine ⟨delayed', ?_, p.mem_iff.2 List.mem_cons_self⟩
  show (q.delay c).toOption.getD q = _
  rw [e]
  rfl

/-- A queue that is added to a registry that runs: a job whose window of a second has ended is not
delayed any more after the next second. -/
theorem flushed_when_never_closed :
    let rules : QueueRules := ⟨Priority.queueOrder,
      NameMap.empty.insert Priority.name Priority.jobOrder, .standard, Priority.name⟩
    let s := (QueueSet.new rules).after [.start, .add (QueueDef.new "a" 0),
      .call 0 0 (.delay (.fresh (Job.new "n" "x" "TFJob") 0))]
    ∃ q q', s.lookup? "a" = some (0, q) ∧ q.closed = false ∧
      Candidate.fresh (Job.new "n" "x" "TFJob") 0 ∈ q.delayed.toList ∧
      (s.step (.elapse (1000 * nanosPerMilli) (1000 * nanosPerMilli))).lookup? "a" = some (0, q') ∧
      Candidate.fresh (Job.new "n" "x" "TFJob") 0 ∉ q'.delayed.toList := by
  intro rules s
  let empty := (JobQueue.new (QueueDef.new "a" 0) Priority.jobOrder .standard false).start
  obtain ⟨delayed, taken, held⟩ := delay_to_empty (q := empty) rfl rfl rfl
    (.fresh (Job.new "n" "x" "TFJob") 0) 0
  have found : s.lookup? "a" = some (0, { empty with delayed }) := by
    rw [← taken]
    rfl
  obtain ⟨runs, later⟩ := flushing_iff_never_closed rules [] [.add (QueueDef.new "a" 0),
    .call 0 0 (.delay (.fresh (Job.new "n" "x" "TFJob") 0))] (by simp) (by simp) found rfl
  obtain ⟨q', found', flushed, -, -⟩ := later (1000 * nanosPerMilli) (1000 * nanosPerMilli)
  refine ⟨_, q', found, rfl, held, found', fun still => ?_⟩
  have opened := flushed (runs.2 ⟨by simp, by decide⟩) (by decide) _ still
  exact absurd opened (by decide)

/-- A queue that is added after the registry was closed and started again is open, but its job stays
delayed when its window has ended, however long the wait. -/
theorem not_flushed_after_close :
    let rules : QueueRules := ⟨Priority.queueOrder,
      NameMap.empty.insert Priority.name Priority.jobOrder, .standard, Priority.name⟩
    let s := (QueueSet.new rules).after [.close, .start, .add (QueueDef.new "a" 0),
      .elapse 0 nanosPerMilli, .call 0 0 (.delay (.fresh (Job.new "n" "x" "TFJob") 0))]
    ∃ q q', s.lookup? "a" = some (0, q) ∧ q.closed = false ∧
      rules.timing.flushEvery = 1000 * nanosPerMilli ∧
      rules.timing.retry.deadline (.fresh (Job.new "n" "x" "TFJob") 0) = 1000 * nanosPerMilli ∧
      (s.step (.elapse (1000 * nanosPerMilli) (1000 * nanosPerMilli))).lookup? "a" = some (0, q') ∧
      Candidate.fresh (Job.new "n" "x" "TFJob") 0 ∈ q'.delayed.toList := by
  intro rules s
  let empty := JobQueue.new (QueueDef.new "a" 0) Priority.jobOrder .standard true
  obtain ⟨delayed, taken, held⟩ := delay_to_empty (q := empty) rfl rfl rfl
    (.fresh (Job.new "n" "x" "TFJob") 0) 0
  have closed : (QueueSet.new rules).close = { QueueSet.new rules with cancelled := true } := by
    unfold QueueSet.close cancel QueueSet.new
    rw [Array.map_empty]
    rfl
  have added : ((QueueSet.new rules).after [.close, .start, .add (QueueDef.new "a" 0)]).lookup?
      "a" = some (0, empty.start) := by
    show ((QueueSet.new rules).close.after [.start, .add (QueueDef.new "a" 0)]).lookup? "a" = _
    rw [closed]
    rfl
  have waited := lookup?_elapse added 0 nanosPerMilli
  have found : s.lookup? "a" = some (0, { empty with delayed }) := by
    rw [← taken]
    obtain ⟨known, there⟩ := lookup?_eq_some_iff.1 waited
    refine lookup?_of_idOf? ((congrArg (NameMap.get? · "a") (ids_modify _ 0 _)).trans known) ?_
    show (QueueSet.modify _ 0 _).queue? 0 = _
    rw [queue?_modify, if_pos rfl]
    exact congrArg (Option.map _) there
  have idle : ¬ ({ empty with delayed } : JobQueue).Flushing := fun running => by cases running.1
  refine ⟨_, _, found, rfl, rfl, by decide, lookup?_elapse found _ _, ?_⟩
  rw [delayed_elapse_of_not_flushing idle]
  exact held

end QueueSet

end JobAdmission
