/-
Queues that lost their name. A queue loses it by a definition that replaces it, by being renamed, by
another queue that is renamed onto it, or by being dropped; whoever was handed it can go on using
it. As long as nobody closes a queue outright, the open queues are those with a name (`Tidy`), so a
queue without one takes nothing any more: what it holds can only leave it.
-/
import JobAdmission.Proofs.Queue.Redefinition

namespace JobAdmission

/-! ## How many items a heap holds -/

namespace KeyedHeap

variable {α : Type} [Keyed α] {less : α → α → Bool} {h h' : KeyedHeap α} {a : α} {key : String}

omit [Keyed α] in
theorem length_toList (h : KeyedHeap α) : h.toList.length = h.size := Array.length_toList

theorem Reordered.size (r : Reordered h h') : h'.size = h.size := by
  have := r.perm.length_eq
  rwa [length_toList, length_toList] at this

theorem size_push (e : h.push less a = .ok h') : h'.size = h.size + 1 := by
  unfold push at e
  split at e
  · cases e
  · cases e
    exact (siftUp_reordered less _ _).size.trans (Array.size_push ..)

theorem size_update (e : h.update less a = .ok h') : h'.size = h.size := by
  unfold update at e
  split at e
  · cases e
  · split at e
    · rename_i hs
      cases e
      exact (restore_reordered less _ _).size.trans (Array.size_set hs)
    · cases e

theorem size_removeAt (less : α → α → Bool) {slot : Nat} (hs : slot < h.items.size) :
    (h.removeAt less slot hs).2.size + 1 = h.size := by
  have rest : (h.items.swap slot (h.items.size - 1)).pop.size + 1 = h.items.size := by
    rw [Array.size_pop, Array.size_swap]
    omega
  unfold removeAt
  dsimp only
  split
  · rw [(restore_reordered less _ slot).size]
    exact rest
  · exact rest

theorem size_remove (e : h.remove less key = .ok (a, h')) : h'.size + 1 = h.size := by
  unfold remove at e
  split at e
  · cases e
  · split at e
    · rename_i hs
      have removed := size_removeAt (h := h) less hs
      rwa [Except.ok.inj e] at removed
    · cases e

theorem size_pop (e : h.pop less = .ok (a, h')) : h'.size + 1 = h.size := by
  unfold pop at e
  split at e
  · rename_i hs
    have removed := size_removeAt (h := h) less hs
    rwa [Except.ok.inj e] at removed
  · cases e

/-- A heap that finds an item can remove it. -/
theorem remove_of_find? (less : α → α → Bool) (found : h.find? key = some a) :
    ∃ r, h.remove less key = .ok r := by
  obtain ⟨slot, at_slot, held⟩ := Option.bind_eq_some_iff.1 found
  obtain ⟨hs, -⟩ := Array.getElem?_eq_some_iff.1 held
  unfold remove
  rw [at_slot]
  dsimp only
  rw [dif_pos hs]
  exact ⟨_, rfl⟩

end KeyedHeap

namespace JobQueue

/-- How many candidates a queue holds, ready or delayed. -/
def heldCount (q : JobQueue) : Nat := q.readyCount + q.delayedCount

/-! ## Use of a queue -/

/-- What use does to a queue: it opens and closes nothing, and a closed queue gets nothing. -/
structure Used (q q' : JobQueue) : Prop where
  flag : q'.closed = q.closed
  held : q.closed = true → q'.heldCount ≤ q.heldCount

variable {q q' q'' : JobQueue} {c : Candidate}

theorem Used.refl (q : JobQueue) : q.Used q := ⟨rfl, fun _ => Nat.le_refl _⟩

theorem Used.trans (h : q.Used q') (h' : q'.Used q'') : q.Used q'' :=
  ⟨h'.flag.trans h.flag, fun closed =>
    Nat.le_trans (h'.held (h.flag.trans closed)) (h.held closed)⟩

theorem used_requeue (e : q.requeue c = .ok q') : q.Used q' := by
  obtain ⟨ready, rfl, opened, -⟩ := requeue_eq_push e
  exact ⟨rfl, fun closed => by rw [opened] at closed; cases closed⟩

theorem used_delay (e : q.delay c = .ok q') : q.Used q' := by
  obtain ⟨opened, ⟨-, rfl⟩ | ⟨delayed, rfl, -⟩⟩ := delay_eq_push e
  · exact .refl _
  · exact ⟨rfl, fun closed => by rw [opened] at closed; cases closed⟩

theorem size_replaceIn {less : JobOrder} {h h' : KeyedHeap Candidate} {key : String} {job : Job}
    {done : Bool} (e : replaceIn less h key job = some (done, h')) : h'.size ≤ h.size := by
  unfold replaceIn at e
  obtain ⟨current, found, e⟩ := Option.map_eq_some_iff.1 e
  dsimp only at e
  split at e
  · split at e
    · rename_i updated
      cases e
      exact Nat.le_of_eq (KeyedHeap.size_update updated)
    · cases e
      exact Nat.le_refl _
  · -- the old version is there to be removed, so the new one comes in its stead at most
    obtain ⟨⟨gone, rest⟩, removed⟩ := KeyedHeap.remove_of_find? less found
    have smaller := KeyedHeap.size_remove removed
    rw [removed] at e
    dsimp only at e
    split at e
    · rename_i pushed
      cases e
      exact Nat.le_of_eq ((KeyedHeap.size_push pushed).trans smaller)
    · cases e
      omega

theorem used_update (q : JobQueue) (old new : Job) : q.Used (q.update old new).2 := by
  rcases update_cases q old new with ⟨_, _, ready, -, e, eu⟩ |
    ⟨-, _, _, delayed, -, e, eu⟩ | ⟨-, -, eu⟩
  · rw [eu]
    exact ⟨rfl, fun _ => Nat.add_le_add_right (size_replaceIn e) _⟩
  · rw [eu]
    exact ⟨rfl, fun _ => Nat.add_le_add_left (size_replaceIn e) _⟩
  · rw [eu]
    exact .refl q

theorem used_remove (q : JobQueue) (key : String) : q.Used (q.remove key).2 := by
  unfold remove
  split
  · rename_i e
    have smaller := KeyedHeap.size_remove e
    exact ⟨rfl, fun _ => Nat.add_le_add_right (Nat.le.intro smaller) _⟩
  · split
    · rename_i e
      have smaller := KeyedHeap.size_remove e
      exact ⟨rfl, fun _ => Nat.add_le_add_left (Nat.le.intro smaller) _⟩
    · exact .refl q

theorem used_pop (e : q.pop = .ok (c, q')) : q.Used q' := by
  unfold pop at e
  rcases popped : q.ready.pop q.order with err | ⟨d, ready⟩
  · rw [popped] at e; cases e
  · rw [popped] at e
    cases e
    have smaller := KeyedHeap.size_pop popped
    exact ⟨rfl, fun _ => Nat.add_le_add_right (Nat.le.intro smaller) _⟩

theorem used_flushUpTo (now fuel : Nat) (q : JobQueue) : q.Used (flushUpTo now fuel q).2 := by
  fun_induction JobQueue.flushUpTo now fuel q with
  | case1 => exact .refl _
  | case2 => exact .refl _
  | case3 => exact .refl _
  | case4 => exact .refl _
  | case5 fuel q _ _ _ c delayed popped ready pushed n q' flushed ih =>
    -- a candidate that moves is counted in the one heap and then in the other
    have moved : q.Used { q with ready, delayed } := by
      have less := KeyedHeap.size_pop popped
      have more := KeyedHeap.size_push pushed
      refine ⟨rfl, fun _ => Nat.le_of_eq ?_⟩
      unfold heldCount readyCount delayedCount
      dsimp only
      omega
    rw [flushed] at ih
    exact moved.trans ih
  | case6 fuel q _ _ _ c delayed popped _ _ ih =>
    have smaller := KeyedHeap.size_pop popped
    have dropped : q.Used { q with delayed } :=
      ⟨rfl, fun _ => Nat.add_le_add_left (Nat.le.intro smaller) _⟩
    exact dropped.trans ih

theorem used_start (q : JobQueue) : q.Used q.start := by
  unfold start
  split
  · exact .refl q
  · exact ⟨rfl, fun _ => Nat.le_refl _⟩

theorem used_stop (q : JobQueue) : q.Used q.stop := ⟨rfl, fun _ => Nat.le_refl _⟩

theorem used_elapse (q : JobQueue) (now span : Nat) : q.Used (q.elapse now span) := by
  have flushed := used_flushUpTo now q.delayedCount q
  unfold elapse
  split
  · exact ⟨rfl, fun _ => Nat.le_refl _⟩
  · split
    · exact .refl q
    · split
      · exact ⟨flushed.flag, flushed.held⟩
      · exact ⟨rfl, fun _ => Nat.le_refl _⟩

theorem used_takeAll (q : JobQueue) : q.Used q.takeAll.2 :=
  ⟨rfl, fun _ => Nat.zero_le _⟩

theorem used_receiveAll (q : JobQueue) (held : List Candidate × List Candidate) :
    q.Used (q.receiveAll held).2 := by
  have ready : q.Used (receive requeue q held.1).2 :=
    receive_induction (.refl q) fun _ _ _ _ h e => h.trans (used_requeue e)
  exact receive_induction ready fun _ _ _ _ h (e : delay _ _ = _) => h.trans (used_delay e)

theorem used_run {call : QueueCall} (not_close : call ≠ .close) (now : Nat) (q : JobQueue) :
    q.Used (call.run now q) := by
  cases call with
  | submit job =>
    show q.Used ((q.submit now job).toOption.getD q)
    rcases e : q.submit now job with err | q'
    · exact .refl q
    · exact used_requeue e
  | delay c =>
    show q.Used ((q.delay c).toOption.getD q)
    rcases e : q.delay c with err | q'
    · exact .refl q
    · exact used_delay e
  | update old new => exact used_update q old new
  | remove job => exact used_remove q job.key
  | removeKey key => exact used_remove q key
  | pop =>
    show q.Used ((q.pop.toOption.map (·.2)).getD q)
    rcases e : q.pop with err | ⟨c, q'⟩
    · exact .refl q
    · exact used_pop e
  | flush => exact used_flushUpTo now q.delayedCount q
  | close => exact absurd rfl not_close

/-- A closed queue refuses whatever is put in. -/
theorem refused_of_closed (closed : q.closed = true) (c : Candidate) :
    q.requeue c = .error (.queueClosed q.name) ∧ q.delay c = .error (.queueClosed q.name) := by
  unfold requeue delay
  rw [closed]
  exact ⟨rfl, rfl⟩

end JobQueue

/-- A step that closes no queue outright. -/
def RegistryStep.ClosesNone : RegistryStep → Prop
  | .call _ _ .close | .close => False
  | _ => True

namespace QueueSet

open JobQueue

variable {s t u : QueueSet} {id : QueueId} {q q' : JobQueue} {d old new : QueueDef}

/-! ## Steps that use queues -/

/-- `t` comes from `s` by use of its queues: none was made, and the names are the same. -/
structure Carried (s t : QueueSet) : Prop where
  ids : t.ids = s.ids
  used : ∀ id q', t.queue? id = some q' → ∃ q, s.queue? id = some q ∧ q.Used q'

theorem Carried.refl (s : QueueSet) : Carried s s := ⟨rfl, fun _ q e => ⟨q, e, .refl q⟩⟩

theorem Carried.trans (h : Carried s t) (h' : Carried t u) : Carried s u := by
  refine ⟨h'.ids.trans h.ids, fun id q'' e => ?_⟩
  obtain ⟨q', e', used'⟩ := h'.used id q'' e
  obtain ⟨q, there, used⟩ := h.used id q' e'
  exact ⟨q, there, used.trans used'⟩

theorem tracks_used : Tracks Used where
  refl := .refl
  trans _ _ _ h h' := h.trans h'
  takeAll := used_takeAll
  receiveAll := used_receiveAll
  pop _ _ _ := used_pop

/-- Use of the queues of a registry changes nothing else about it. -/
theorem Along.carried (h : Along Used s t) : Carried s t := ⟨by rw [h.only], h.queues⟩

/-! ## What a step makes of a queue -/

/-- What a step from `s` to `t` made of a queue that is there afterwards. -/
inductive Fate (s t : QueueSet) (id : QueueId) (q' : JobQueue) : Prop where
  /-- It was made, and is open under a name. -/
  | made (absent : s.queue? id = none) (opened : q'.closed = false)
      (named : ∃ name, t.idOf? name = some id)
  /-- It was used at most, and is called what it was called. -/
  | kept (q : JobQueue) (there : s.queue? id = some q) (used : q.Used q')
      (names : ∀ name, t.idOf? name = some id ↔ s.idOf? name = some id)
  /-- It lost its name and was closed. -/
  | retired (q : JobQueue) (there : s.queue? id = some q) (closed : q'.closed = true)
      (held : q'.heldCount ≤ q.heldCount) (unnamed : ∀ name, t.idOf? name ≠ some id)

theorem Carried.fate (h : Carried s t) (there : t.queue? id = some q') : Fate s t id q' := by
  obtain ⟨q, before, used⟩ := h.used id q' there
  exact .kept q before used fun name => by unfold idOf?; rw [h.ids]

/-- The names of the older queues once a new queue was given its name. -/
theorem idOf?_of_insert {ids : NameMap QueueId} {name : String}
    (same : t.ids = ids.insert name s.queues.size) (older : id ≠ s.queues.size) (other : String) :
    t.idOf? other = some id ↔ other ≠ name ∧ ids.get? other = some id := by
  unfold idOf?
  rw [same, NameMap.get?_insert]
  split
  · rename_i given
    subst given
    exact iff_of_false (fun e => older (Option.some.inj e).symm) fun both => both.1 rfl
  · rename_i distinct
    exact (and_iff_right (Ne.symm distinct)).symm

theorem idOf?_of_insert_self {ids : NameMap QueueId} {name : String}
    (same : t.ids = ids.insert name id) : t.idOf? name = some id := by
  unfold idOf?
  rw [same, NameMap.get?_insert, if_pos rfl]

theorem Named.fate_add (named : s.Named) (e : s.add d = .ok t) (there : t.queue? id = some q') :
    Fate s t id q' := by
  obtain ⟨q, fresh, rfl⟩ := add_eq_ok e
  have older : s.idOf? d.name ≠ some s.queues.size := fun e => named.ne_size e rfl
  have ids := ids_closeQueue ({ s with
    queues := s.queues.push q, ids := s.ids.insert d.name s.queues.size } : QueueSet)
    (s.idOf? d.name)
  rw [queue?_push_closeQueue s q _ older] at there
  split at there
  · rename_i last
    cases there
    subst last
    exact .made (queue?_size s) fresh.opened ⟨d.name, idOf?_of_insert_self ids⟩
  · rename_i earlier
    have names := idOf?_of_insert ids earlier
    split at there
    · rename_i replaced
      obtain ⟨r, before, rfl⟩ := Option.map_eq_some_iff.1 there
      refine .retired r before rfl (Nat.le_refl _) fun other e => ?_
      obtain ⟨distinct, also⟩ := (names other).1 e
      exact distinct (named.unique also replaced)
    · rename_i spared
      refine .kept q' there (.refl q') fun other => (names other).trans ⟨And.right, fun e => ?_⟩
      exact ⟨fun same => spared (same ▸ e), e⟩

theorem Named.fate_update (named : s.Named) (e : s.update old new = .ok t)
    (there : t.queue? id = some q') : Fate s t id q' := by
  obtain ⟨q, fresh, ids, last, previous, others⟩ := queue?_update named e
  by_cases earlier : id = s.queues.size
  · subst earlier
    rw [last] at there
    cases there
    refine .made (queue?_size s) ?_ ⟨new.name, idOf?_of_insert_self ids⟩
    -- what it received does not close it
    rcases s.lookup? old.name with _ | ⟨p, r⟩
    · exact fresh.opened
    · exact (used_receiveAll q r.takeAll.1).flag.trans fresh.opened
  · have names := idOf?_of_insert ids earlier
    have erased : ∀ other, (s.ids.erase old.name).get? other = some id ↔
        old.name ≠ other ∧ s.idOf? other = some id := by
      intro other
      rw [NameMap.get?_erase]
      split
      · rename_i same
        exact iff_of_false nofun fun both => both.1 same
      · rename_i distinct
        exact (and_iff_right distinct).symm
    by_cases renamed : s.idOf? old.name = some id
    · rw [previous id renamed] at there
      obtain ⟨r, before, rfl⟩ := Option.map_eq_some_iff.1 there
      refine .retired r before rfl (Nat.zero_le _) fun other e => ?_
      obtain ⟨distinct, also⟩ := (erased other).1 ((names other).1 e).2
      exact distinct (named.unique renamed also)
    · rw [others id earlier renamed] at there
      split at there
      · rename_i shadowed
        obtain ⟨r, before, rfl⟩ := Option.map_eq_some_iff.1 there
        refine .retired r before rfl (Nat.le_refl _) fun other e => ?_
        obtain ⟨distinct, also⟩ := (names other).1 e
        exact distinct (named.unique ((erased other).1 also).2 ((erased _).1 shadowed).2)
      · rename_i spared
        refine .kept q' there (.refl q') fun other => (names other).trans ⟨fun both =>
          ((erased other).1 both.2).2, fun e => ?_⟩
        have lasting := (erased other).2 ⟨fun same => renamed (same ▸ e), e⟩
        exact ⟨fun same => spared (same ▸ lasting), lasting⟩

theorem Named.fate_delete (named : s.Named) {name : String}
    (there : (s.delete name).2.queue? id = some q') : Fate s (s.delete name).2 id q' := by
  unfold delete at there ⊢
  rcases found : s.idOf? name with _ | dropped
  · rw [found] at there
    exact (Carried.refl s).fate there
  · rw [found] at there
    dsimp only at there ⊢
    have names : ∀ other, (({ s with ids := s.ids.erase name } : QueueSet).closeQueue
        (some dropped)).idOf? other = if name = other then none else s.idOf? other := by
      intro other
      unfold idOf?
      rw [ids_closeQueue]
      exact NameMap.get?_erase ..
    rw [queue?_closeQueue] at there
    split at there
    · rename_i same
      cases same
      obtain ⟨r, before, rfl⟩ := Option.map_eq_some_iff.1 there
      refine .retired r before rfl (Nat.le_refl _) fun other e => ?_
      rw [names] at e
      split at e
      · cases e
      · rename_i distinct
        exact distinct (named.unique found e)
    · rename_i spared
      refine .kept q' there (.refl q') fun other => ?_
      rw [names]
      split
      · rename_i same
        subst same
        rw [found]
        exact iff_of_false nofun spared
      · exact Iff.rfl

/-- The step lemma: a step that closes no queue outright makes a queue, uses it, or retires it. -/
theorem Named.fate (named : s.Named) {x : RegistryStep} (free : x.ClosesNone)
    (there : (s.step x).queue? id = some q') : Fate s (s.step x) id q' := by
  cases x with
  | add d =>
    change ((s.add d).toOption.getD s).queue? id = some q' at there
    show Fate s ((s.add d).toOption.getD s) id q'
    rcases e : s.add d with err | t
    · rw [e] at there
      exact (Carried.refl s).fate there
    · rw [e] at there
      exact named.fate_add e there
  | update old new =>
    change ((s.update old new).toOption.getD s).queue? id = some q' at there
    show Fate s ((s.update old new).toOption.getD s) id q'
    rcases e : s.update old new with err | t
    · rw [e] at there
      exact (Carried.refl s).fate there
    · rw [e] at there
      exact named.fate_update e there
  | delete name => exact named.fate_delete there
  | call now k made =>
    have not_close : made ≠ .close := by
      rintro rfl
      exact free
    exact (along_modify tracks_used (used_run not_close now) s k).carried.fate there
  | drain source target => exact (along_drain tracks_used s source target).carried.fate there
  | popNext => exact (along_popNext tracks_used s).carried.fate there
  | start =>
    have flagged : Carried s { s with running := true } := ⟨rfl, fun _ q e => ⟨q, e, .refl q⟩⟩
    exact (flagged.trans (along_mapNamed tracks_used used_start _).carried).fate there
  | cancel =>
    have stopped : Carried s s.cancel := ⟨rfl, (along_map used_stop s).queues⟩
    exact stopped.fate there
  | close => exact free.elim
  | elapse now span =>
    exact (along_map (fun q => used_elapse q now span) s).carried.fate there

/-! ## Runs -/

/-- The open queues are those with a name. -/
def Tidy (s : QueueSet) : Prop :=
  ∀ id q, s.queue? id = some q → (q.closed = false ↔ ∃ name, s.idOf? name = some id)

theorem tidy_new (rules : QueueRules) : (QueueSet.new rules).Tidy := fun id q e => by
  simp [queue?, QueueSet.new] at e

theorem Tidy.step (h : s.Tidy) (named : s.Named) {x : RegistryStep} (free : x.ClosesNone) :
    (s.step x).Tidy := by
  intro id q' there
  cases named.fate free there with
  | made _ opened given => exact iff_of_true opened given
  | kept q before used names =>
    rw [used.flag, h id q before]
    exact exists_congr fun name => (names name).symm
  | retired _ _ closed _ unnamed =>
    exact iff_of_false (by rw [closed]; nofun) fun ⟨name, e⟩ => unnamed name e

theorem Tidy.after (h : s.Tidy) (sound : s.Sound) {run : List RegistryStep}
    (free : ∀ x ∈ run, x.ClosesNone) : (s.after run).Tidy := by
  induction run generalizing s with
  | nil => exact h
  | cons x run ih =>
    obtain ⟨first, rest⟩ := List.forall_mem_cons.1 free
    exact ih (h.step sound.named first) (sound.step x) rest

/-- The queue of an identity has no name, is closed, and holds so many candidates at most. -/
def Retired (s : QueueSet) (id : QueueId) (most : Nat) : Prop :=
  ∃ q, s.queue? id = some q ∧ (∀ name, s.idOf? name ≠ some id) ∧ q.closed = true ∧
    q.heldCount ≤ most

theorem Retired.step {most : Nat} (h : s.Retired id most) (named : s.Named) {x : RegistryStep}
    (free : x.ClosesNone) : (s.step x).Retired id most := by
  obtain ⟨q, there, unnamed, closed, held⟩ := h
  obtain ⟨q', there', -⟩ := (s.descends_step x).kept id q there
  refine ⟨q', there', ?_⟩
  cases named.fate free there' with
  | made absent _ _ =>
    rw [absent] at there
    cases there
  | kept r before used names =>
    rw [there] at before
    cases before
    exact ⟨fun name e => unnamed name ((names name).1 e), used.flag.trans closed,
      Nat.le_trans (used.held closed) held⟩
  | retired r before closed' held' unnamed' =>
    rw [there] at before
    cases before
    exact ⟨unnamed', closed', Nat.le_trans held' held⟩

theorem Retired.after {most : Nat} (h : s.Retired id most) (sound : s.Sound)
    {run : List RegistryStep} (free : ∀ x ∈ run, x.ClosesNone) :
    (s.after run).Retired id most := by
  induction run generalizing s with
  | nil => exact h
  | cons x run ih =>
    obtain ⟨first, rest⟩ := List.forall_mem_cons.1 free
    exact ih (h.step sound.named first) (sound.step x) rest

/-- A queue that lost the name it had has no other. -/
theorem Named.unnamed_of_lost (named : s.Named) (h : Descends s t) (named' : t.Named)
    {name : String} (had : s.idOf? name = some id) (lost : t.idOf? name ≠ some id)
    (other : String) : t.idOf? other ≠ some id := by
  intro e
  obtain ⟨q, there, rfl⟩ := named name id had
  obtain ⟨q', there', same⟩ := h.kept id q there
  obtain ⟨r, there'', rfl⟩ := named' other id e
  rw [there'] at there''
  cases there''
  have name_eq : q'.name = q.name := congrArg (fun c => c.1.name) same
  exact lost (name_eq ▸ e)

/-- In a run that closes no queue outright, every name leads to an open queue of that name; a queue
that lost its name is retired for good; and nothing can be put into a queue that is not visited. -/
theorem nothing_put_out_of_sight (rules : QueueRules) (done rest : List RegistryStep)
    (free : ∀ x ∈ done ++ rest, x.ClosesNone) :
    let s := (QueueSet.new rules).after done
    let t := s.after rest
    (∀ name id, s.idOf? name = some id →
      ∃ q, s.queue? id = some q ∧ q.name = name ∧ q.closed = false) ∧
    (∀ name id, s.idOf? name = some id → t.idOf? name ≠ some id →
      ∀ other, t.idOf? other ≠ some id) ∧
    (∀ id q, s.queue? id = some q → (∀ name, s.idOf? name ≠ some id) →
      t.Retired id q.heldCount) ∧
    ∀ id q c, s.queue? id = some q → (id, q) ∉ s.visited →
      q.requeue c = .error (.queueClosed q.name) ∧ q.delay c = .error (.queueClosed q.name) := by
  intro s t
  obtain ⟨before, later⟩ := List.forall_mem_append.1 free
  have sound : s.Sound := (sound_new rules).after done
  have tidy : s.Tidy := (tidy_new rules).after (sound_new rules) before
  have closed : ∀ id q, s.queue? id = some q → (∀ name, s.idOf? name ≠ some id) →
      q.closed = true := by
    intro id q there unnamed
    rw [← Bool.not_eq_false, tidy id q there]
    exact fun ⟨name, e⟩ => unnamed name e
  refine ⟨fun name id e => ?_, fun name id had lost => ?_, fun id q there unnamed => ?_,
    fun id q c there hidden => ?_⟩
  · obtain ⟨q, there, rfl⟩ := sound.named name id e
    exact ⟨q, there, rfl, (tidy id q there).2 ⟨q.name, e⟩⟩
  · exact sound.named.unnamed_of_lost (s.descends_after rest) (sound.after rest).named had lost
  · have now : s.Retired id q.heldCount :=
      ⟨q, there, unnamed, closed id q there unnamed, Nat.le_refl _⟩
    exact now.after sound later
  · refine refused_of_closed (closed id q there fun name e => hidden ?_) c
    exact mem_visited.2 ⟨name, lookup?_of_idOf? e there⟩

/-- A queue that another one was renamed onto: whoever still uses it puts nothing in. -/
theorem nothing_put_into_shadowed_queue :
    let rules : QueueRules := ⟨Priority.queueOrder,
      NameMap.empty.insert Priority.name Priority.jobOrder, .standard, Priority.name⟩
    let s := (QueueSet.new rules).after [.add (QueueDef.new "a" 0), .add (QueueDef.new "b" 0),
      .update (QueueDef.new "a" 0) (QueueDef.new "b" 0)]
    s.idOf? "b" = some 2 ∧
      (s.after [.call 0 1 (.submit (Job.new "n" "x" "TFJob")), .drain 2 1]).Retired 1 0 := by
  intro rules s
  have ids : s.ids = NameMap.empty.insert "b" 2 := by decide +kernel
  refine ⟨by decide +kernel, ?_⟩
  have retired := (nothing_put_out_of_sight rules
    [.add (QueueDef.new "a" 0), .add (QueueDef.new "b" 0),
      .update (QueueDef.new "a" 0) (QueueDef.new "b" 0)]
    [.call 0 1 (.submit (Job.new "n" "x" "TFJob")), .drain 2 1]
    (by simp [RegistryStep.ClosesNone])).2.2.1
  have held : (s.queue? 1).map JobQueue.heldCount = some 0 := by decide +kernel
  obtain ⟨q, there, nothing⟩ := Option.map_eq_some_iff.1 held
  have unnamed : ∀ name, s.idOf? name ≠ some 1 := by
    intro name e
    change s.ids.get? name = some 1 at e
    rw [ids, NameMap.get?_insert] at e
    split at e <;> cases e
  have after := retired 1 q there unnamed
  rwa [nothing] at after

end QueueSet

end JobAdmission
