/-
The two heaps of a queue seen alike. A candidate is put into either heap if the queue is open and
holds its key in neither; a candidate that is not put in changes nothing, but it is refused in the
one case and passed over in the other.
-/
import JobAdmission.Proofs.Queue.Flush

namespace JobAdmission

namespace JobQueue

open KeyedHeap

/-! ## The two heaps -/

/-- The kinds of heaps that a queue has. -/
inductive HeapKind where
  | ready
  | delayed

/-- The heap of a kind. -/
def heap (q : JobQueue) : HeapKind → KeyedHeap Candidate
  | .ready => q.ready
  | .delayed => q.delayed

/-- The queue with another heap in the place of the one of a kind. -/
def withHeap (q : JobQueue) (h : KeyedHeap Candidate) : HeapKind → JobQueue
  | .ready => { q with ready := h }
  | .delayed => { q with delayed := h }

variable {q : JobQueue} {c : Candidate} {h : KeyedHeap Candidate} {kind kind' : HeapKind}
  {key : String} {cs : List Candidate}

@[simp] theorem heap_withHeap : (q.withHeap h kind).heap kind = h := by
  cases kind <;> rfl

@[simp] theorem closed_withHeap : (q.withHeap h kind).closed = q.closed := by
  cases kind <;> rfl

@[simp] theorem withHeap_withHeap (h' : KeyedHeap Candidate) :
    (q.withHeap h kind).withHeap h' kind = q.withHeap h' kind := by
  cases kind <;> rfl

@[simp] theorem withHeap_heap : q.withHeap (q.heap kind) kind = q := by
  cases kind <;> rfl

theorem Indexed.heap (hi : q.Indexed) (kind : HeapKind) : (q.heap kind).Indexed := by
  cases kind with
  | ready => exact hi.ready
  | delayed => exact hi.delayed

theorem holds_iff_or : q.holds key = true ↔
    q.ready.contains key = true ∨ q.delayed.contains key = true :=
  (Bool.or_eq_true ..).to_iff

theorem holds_iff_heap : q.holds key = true ↔ ∃ kind, (q.heap kind).contains key = true := by
  refine holds_iff_or.trans ⟨?_, ?_⟩
  · rintro (held | held)
    · exact ⟨.ready, held⟩
    · exact ⟨.delayed, held⟩
  · rintro ⟨_ | _, held⟩
    · exact .inl held
    · exact .inr held

theorem OneHeap.kind_eq (one : q.OneHeap) (held : (q.heap kind).contains key = true)
    (held' : (q.heap kind').contains key = true) : kind = kind' := by
  cases kind <;> cases kind'
  · rfl
  · exact absurd ⟨held, held'⟩ (one key)
  · exact absurd ⟨held', held⟩ (one key)
  · rfl

theorem heldCount_eq (q : JobQueue) :
    q.heldCount = (q.heap .ready).toList.length + (q.heap .delayed).toList.length := by
  rw [length_toList, length_toList]
  rfl

theorem heldCount_of_perm {ds : List Candidate} (ready : q.ready.toList.Perm cs)
    (delayed : q.delayed.toList.Perm ds) : q.heldCount = cs.length + ds.length := by
  rw [heldCount_eq]
  exact congrArg₂ (· + ·) ready.length_eq delayed.length_eq

/-- What a heap gains the queue gains. -/
theorem heldCount_withHeap {m n : Nat}
    (size : h.toList.length + m = (q.heap kind).toList.length + n) :
    (q.withHeap h kind).heldCount + m = q.heldCount + n := by
  rw [heldCount_eq, heldCount_eq]
  cases kind with
  | ready =>
    change h.toList.length + q.delayed.toList.length + m = _
    change _ = q.ready.toList.length + n at size
    dsimp only [heap]
    omega
  | delayed =>
    change q.ready.toList.length + h.toList.length + m = _
    change _ = q.delayed.toList.length + n at size
    dsimp only [heap]
    omega

theorem holds_iff (hi : q.Indexed) :
    q.holds key = true ↔ ∃ kind, ∃ c ∈ (q.heap kind).toList, c.key = key :=
  holds_iff_heap.trans (exists_congr fun kind => (hi.heap kind).contains_iff)

/-- The keys that are held once candidates were added to a heap. -/
theorem holds_withHeap (hi : q.Indexed) (hi' : (q.withHeap h kind).Indexed)
    (p : h.toList.Perm (cs ++ (q.heap kind).toList)) (key : String) :
    (q.withHeap h kind).holds key = true ↔ (∃ c ∈ cs, c.key = key) ∨ q.holds key = true := by
  have added : h.contains key = true ↔
      (∃ c ∈ cs, c.key = key) ∨ (q.heap kind).contains key = true := by
    have indexed := hi'.heap kind
    rw [heap_withHeap] at indexed
    rw [indexed.contains_iff, (hi.heap kind).contains_iff]
    simp only [p.mem_iff, List.mem_append, or_and_right, exists_or]
    rfl
  rw [holds_iff_or, holds_iff_or]
  cases kind with
  | ready => exact (or_congr_left added).trans or_assoc
  | delayed => exact (or_congr_right added).trans or_left_comm

/-! ## Putting in -/

/-- How a candidate that comes from a heap of another queue is put in. -/
def putInto : HeapKind → JobQueue → Candidate → Except AdmissionError JobQueue
  | .ready => requeue
  | .delayed => delay

/-- Whether a queue takes a candidate. -/
def takes (q : JobQueue) (c : Candidate) : Bool := !q.closed && !q.holds c.key

/-- Whether a candidate that comes from a heap of another queue is counted as moved. -/
def counts (q : JobQueue) : HeapKind → Candidate → Bool
  | .ready => q.takes
  | .delayed => fun _ => !q.closed

theorem takes_eq_true_iff : q.takes c = true ↔ q.closed = false ∧ q.holds c.key = false := by
  unfold takes
  rw [Bool.and_eq_true, Bool.not_eq_true', Bool.not_eq_true']

/-- A queue takes after candidates were added what it took before, under other keys than theirs. -/
theorem takes_withHeap (hi : q.Indexed) (hi' : (q.withHeap h kind).Indexed)
    (p : h.toList.Perm (cs ++ (q.heap kind).toList)) (others : ∀ a ∈ cs, a.key ≠ c.key) :
    (q.withHeap h kind).takes c = q.takes c := by
  have holds : (q.withHeap h kind).holds c.key = q.holds c.key := by
    rw [Bool.eq_iff_iff, holds_withHeap hi hi' p]
    exact or_iff_right fun ⟨a, ha, same⟩ => others a ha same
  unfold takes
  rw [closed_withHeap, holds]

theorem putInto_of_takes (sound : q.Sound) (kind : HeapKind) (free : q.takes c = true) :
    ∃ h, putInto kind q c = .ok (q.withHeap h kind) ∧ (q.withHeap h kind).Sound ∧
      h.toList.Perm ([c] ++ (q.heap kind).toList) := by
  obtain ⟨opened, absent⟩ := takes_eq_true_iff.1 free
  cases kind with
  | ready =>
    obtain ⟨h, e, -, p⟩ := requeue_of_free sound.toIndexed opened absent
    exact ⟨h, e, sound.requeue e, p⟩
  | delayed =>
    obtain ⟨h, e, -, p⟩ := delay_of_free sound.toIndexed opened absent
    exact ⟨h, e, sound.delay e, p⟩

theorem counts_of_takes (free : q.takes c = true) (kind : HeapKind) : q.counts kind c = true := by
  cases kind with
  | ready => exact free
  | delayed => exact ((Bool.and_eq_true ..).to_iff.1 free).1

/-- A candidate whose key is not free changes nothing. It is refused, but that an open queue passes
over a delayed one without an error. -/
theorem putInto_of_not_takes (hi : q.Indexed) (kind : HeapKind) (unfree : ¬ q.takes c = true) :
    (putInto kind q c).toOption.getD q = q ∧ (putInto kind q c).isOk = q.counts kind c := by
  cases kind with
  | ready =>
    show (q.requeue c).toOption.getD q = q ∧ (q.requeue c).isOk = q.takes c
    rcases e : q.requeue c with err | q'
    · exact ⟨rfl, (Bool.eq_false_iff.2 unfree).symm⟩
    · obtain ⟨-, -, opened, not_delayed, not_ready, -⟩ := requeue_eq_ok hi e
      exact absurd (takes_eq_true_iff.2
        ⟨opened, Bool.or_eq_false_iff.2 ⟨not_ready, not_delayed⟩⟩) unfree
  | delayed =>
    show (q.delay c).toOption.getD q = q ∧ (q.delay c).isOk = !q.closed
    rcases e : q.delay c with err | q'
    · rw [delay_refused_iff.1 ⟨err, e⟩]
      exact ⟨rfl, rfl⟩
    · obtain ⟨opened, ⟨-, rfl⟩ | ⟨-, -, absent, -⟩⟩ := delay_eq_ok hi e
      · rw [opened]
        exact ⟨rfl, rfl⟩
      · exact absurd (takes_eq_true_iff.2 ⟨opened, absent⟩) unfree

/-- Candidates of different keys put in one after the other: those whose keys are free are added to
the heap. -/
theorem receive_putInto (sound : q.Sound) (kind : HeapKind)
    (distinct : (cs.map Candidate.key).Nodup) :
    ∃ h, receive (putInto kind) q cs = (cs.countP (q.counts kind), q.withHeap h kind) ∧
      (q.withHeap h kind).Sound ∧ h.toList.Perm (cs.filter q.takes ++ (q.heap kind).toList) := by
  induction cs generalizing q with
  | nil =>
    exact ⟨q.heap kind, by rw [withHeap_heap]; rfl, by rwa [withHeap_heap], .refl _⟩
  | cons c cs ih =>
    obtain ⟨fresh, distinct⟩ := List.nodup_cons.1 distinct
    rw [receive_cons_eq]
    by_cases free : q.takes c = true
    · obtain ⟨h, e, sound', p⟩ := putInto_of_takes sound kind free
      obtain ⟨h', e', sound'', p'⟩ := ih sound' distinct
      -- the candidates that follow have other keys, so they find the queue as it was
      have takes : ∀ d ∈ cs, (q.withHeap h kind).takes d = q.takes d := fun d hd =>
        takes_withHeap sound.toIndexed sound'.toIndexed p fun a ha same =>
          fresh (List.mem_map.2 ⟨d, hd, (List.mem_singleton.1 ha ▸ same).symm⟩)
      have counts : ∀ d ∈ cs, (q.withHeap h kind).counts kind d = q.counts kind d := by
        cases kind with
        | ready => exact takes
        | delayed => exact fun _ _ => rfl
      rw [withHeap_withHeap] at e' sound''
      rw [heap_withHeap, List.filter_congr takes] at p'
      refine ⟨h', ?_, sound'', ?_⟩
      · rw [e]
        show (1 + (receive (putInto kind) (q.withHeap h kind) cs).1,
          (receive (putInto kind) (q.withHeap h kind) cs).2) = _
        rw [e', List.countP_cons_of_pos (counts_of_takes free kind),
          List.countP_congr fun d hd => by rw [counts d hd], Nat.add_comm]
      · rw [List.filter_cons_of_pos free]
        exact p'.trans ((p.append_left _).trans List.perm_middle)
    · obtain ⟨same, counted⟩ := putInto_of_not_takes sound.toIndexed kind free
      obtain ⟨h, e, sound', p⟩ := ih sound distinct
      refine ⟨h, ?_, sound', ?_⟩
      · rw [same, e, counted, List.countP_cons, Nat.add_comm]
      · rwa [List.filter_cons_of_neg free]

/-! ## A run that only puts in -/

/-- A queue as a run leaves it. -/
def Reachable (q : JobQueue) : Prop :=
  ∃ definition order timing stopped acts,
    q = (JobQueue.new definition order timing stopped).after acts

theorem Reachable.indexed (h : q.Reachable) : q.Indexed := by
  obtain ⟨definition, order, timing, stopped, acts, rfl⟩ := h
  exact lasting_indexed.after (fun _ held h => h.receiveAll held)
    (indexed_new definition order timing stopped) acts

/-- The call that puts a job into a heap for the first time. -/
def HeapKind.call : HeapKind → Nat → Job → QueueCall
  | .ready, _, job => .submit job
  | .delayed, now, job => .delay (.fresh job now)

/-- Jobs as they are put in for the first time, each with its time. -/
def arrivals (jobs : List (Nat × Job)) : List Candidate := jobs.map fun j => .fresh j.2 j.1

variable {d : QueueDef} {jobs ready delayed : List (Nat × Job)}

theorem after_calls (q : JobQueue) (kind : HeapKind) (jobs : List (Nat × Job)) :
    q.after (jobs.map fun j => .call j.1 (kind.call j.1 j.2)) =
      (receive (putInto kind) q (arrivals jobs)).2 := by
  induction jobs generalizing q with
  | nil => rfl
  | cons j jobs ih =>
    show _ = (receive (putInto kind) q (.fresh j.2 j.1 :: arrivals jobs)).2
    rw [List.map_cons, receive_cons, ← ih]
    unfold after
    rw [List.foldl_cons]
    congr 1
    cases kind <;> rfl

theorem map_key_arrivals (jobs : List (Nat × Job)) :
    (arrivals jobs).map Candidate.key = jobs.map (·.2.key) := by
  rw [arrivals, List.map_map]
  rfl

theorem filter_arrivals {f : Candidate → Bool} {g : Nat × Job → Bool}
    (same : ∀ j, f (.fresh j.2 j.1) = g j) (p : cs.Perm (arrivals jobs)) :
    (cs.filter f).Perm (arrivals (jobs.filter g)) := by
  have kept := p.filter f
  rwa [arrivals, List.filter_map, funext (f := f ∘ _) same] at kept

/-- A queue holds in addition the jobs of different keys, all of which it takes, that were put into
one of its heaps. -/
theorem Sound.filled (sound : q.Sound) (kind : HeapKind) (distinct : (jobs.map (·.2.key)).Nodup)
    (free : ∀ c ∈ arrivals jobs, q.takes c = true) :
    ∃ h, q.after (jobs.map fun j => .call j.1 (kind.call j.1 j.2)) = q.withHeap h kind ∧
      (q.withHeap h kind).Sound ∧ h.toList.Perm (arrivals jobs ++ (q.heap kind).toList) := by
  obtain ⟨h, e, sound', p⟩ := receive_putInto sound kind ((map_key_arrivals jobs).symm ▸ distinct)
  rw [List.filter_eq_self.2 free] at p
  exact ⟨h, (after_calls q kind jobs).trans (congrArg Prod.snd e), sound', p⟩

/-- An open queue of a definition holds some jobs as they were put in, and no others. -/
structure Filled (q : JobQueue) (d : QueueDef) (ready delayed : List (Nat × Job)) : Prop where
  sound : q.Sound
  opened : q.closed = false
  definition : q.definition = d
  keys : ∀ key, q.holds key = true ↔ ∃ j ∈ ready ++ delayed, j.2.key = key
  ready : q.ready.toList.Perm (arrivals ready)
  delayed : q.delayed.toList.Perm (arrivals delayed)

theorem Filled.heldCount (filled : q.Filled d ready delayed) :
    q.heldCount = ready.length + delayed.length := by
  rw [heldCount_of_perm filled.ready filled.delayed, arrivals, arrivals, List.length_map,
    List.length_map]

theorem Filled.takes_iff (filled : q.Filled d ready delayed) :
    q.takes c = true ↔ ∀ j ∈ ready ++ delayed, j.2.key ≠ c.key := by
  rw [takes_eq_true_iff, ← Bool.not_eq_true (q.holds c.key), filled.keys]
  simp [filled.opened]

/-- A new queue is filled with jobs of different keys. -/
theorem filled (d : QueueDef) (order : JobOrder) (timing : QueueTiming) (stopped : Bool)
    (ready delayed : List (Nat × Job)) (distinct : ((ready ++ delayed).map (·.2.key)).Nodup) :
    ((JobQueue.new d order timing stopped).after
      (ready.map (fun j => .call j.1 (.submit j.2)) ++
        delayed.map fun j => .call j.1 (.delay (.fresh j.2 j.1)))).Filled d ready delayed := by
  rw [List.map_append, List.nodup_append] at distinct
  obtain ⟨distinct, distinct', apart⟩ := distinct
  have sound₀ := sound_new d order timing stopped
  generalize hq : JobQueue.new d order timing stopped = q at sound₀ ⊢
  have nothing : ∀ key, q.holds key = false := fun key => by
    rw [← hq]
    exact Bool.or_eq_false_iff.2 ⟨contains_empty key, contains_empty key⟩
  have opened : q.closed = false := hq ▸ rfl
  have free : ∀ c, q.takes c = true := fun c => takes_eq_true_iff.2 ⟨opened, nothing c.key⟩
  obtain ⟨h, e, sound, p⟩ := sound₀.filled .ready distinct fun c _ => free c
  -- the keys of the delayed jobs are still free then
  have free' : ∀ c ∈ arrivals delayed, (q.withHeap h .ready).takes c = true := by
    intro c hc
    rw [takes_withHeap sound₀.toIndexed sound.toIndexed p, free]
    rw [← map_key_arrivals, ← map_key_arrivals] at apart
    exact fun a ha => apart _ (List.mem_map_of_mem ha) _ (List.mem_map_of_mem hc)
  obtain ⟨h', e', sound', p'⟩ := sound.filled .delayed distinct' free'
  have whole : q.after (ready.map (fun j => .call j.1 (.submit j.2)) ++
      delayed.map fun j => .call j.1 (.delay (.fresh j.2 j.1))) =
        (q.withHeap h .ready).withHeap h' .delayed := by
    refine List.foldl_append.trans ?_
    rw [← e', ← e]
    rfl
  rw [whole]
  refine ⟨sound', opened, hq ▸ rfl, fun key => ?_, ?_, ?_⟩
  · rw [holds_withHeap sound.toIndexed sound'.toIndexed p',
      holds_withHeap sound₀.toIndexed sound.toIndexed p, nothing]
    simp [arrivals, Candidate.fresh, or_and_right, exists_or, or_comm]
  · rw [show (q.heap .ready).toList = [] by rw [← hq]; rfl, List.append_nil] at p
    exact p
  · rw [show ((q.withHeap h .ready).heap .delayed).toList = [] by rw [← hq]; rfl,
      List.append_nil] at p'
    exact p'

end JobQueue

end JobAdmission
