/-
What an update makes of a held job. The new version takes the place of the old one, in the same heap
and with the record of its attempts, and nothing else changes: that is so under the same key, and
under a new key that the heap does not hold. Where the heap holds the new key already, the old entry
is taken out before the new one is refused: the update answers that it was not made, and the job is
gone.
-/
import JobAdmission.Proofs.Queue.Heaps

namespace JobAdmission

/-! ## One heap -/

namespace KeyedHeap

variable {h h' : KeyedHeap Candidate} {key : String} {into : Candidate → List Candidate}

/-- The candidate of a key gave way to others, and all other candidates are as they were. -/
def GivesWay (h : KeyedHeap Candidate) (key : String) (into : Candidate → List Candidate)
    (h' : KeyedHeap Candidate) : Prop :=
  ∃ c rest, c.key = key ∧ h.toList.Perm (c :: rest) ∧ h'.toList.Perm (into c ++ rest)

theorem GivesWay.length {n : Nat} (g : h.GivesWay key into h')
    (length : ∀ c, (into c).length = n) : h'.toList.length + 1 = h.toList.length + n := by
  obtain ⟨c, rest, -, before, after⟩ := g
  rw [before.length_eq, after.length_eq, List.length_append, length, List.length_cons]
  omega

theorem GivesWay.contains (hi : h.Indexed) (g : h.GivesWay key into h') :
    h.contains key = true := by
  obtain ⟨c, rest, found, before, -⟩ := g
  exact hi.contains_iff.2 ⟨c, before.mem_iff.2 List.mem_cons_self, found⟩

end KeyedHeap

namespace JobQueue

open KeyedHeap

variable {q q' : JobQueue} {old new : Job} {key : String} {into : Candidate → List Candidate}

/-! ## One update -/

/-- A new version is refused exactly if its key is another one that the heap holds. It has then
driven out the old version all the same. -/
theorem replaceIn_outcome {less : JobOrder} {h h' : KeyedHeap Candidate} {key : String}
    {job : Job} {old : Candidate} {done : Bool} (hi : h.Indexed) (hf : h.find? key = some old)
    (e : replaceIn less h key job = some (done, h')) :
    done = true ∧ ¬ (job.key ≠ key ∧ h.contains job.key = true) ∧
        h.GivesWay key (fun c => [c.replace job]) h' ∨
      done = false ∧ (job.key ≠ key ∧ h.contains job.key = true) ∧
        h.GivesWay key (fun _ => []) h' := by
  have hk := (hi.find?_eq_some_iff.1 hf).2
  obtain ⟨_, _, rest, e', hi', p, ⟨rfl, p'⟩ | ⟨rfl, other, held, p'⟩⟩ :=
    @replaceIn_spec less h key job old hi hf
  · rw [e] at e'
    cases e'
    refine .inl ⟨rfl, ?_, old, rest, hk, p, p'⟩
    rintro ⟨other, held⟩
    -- an entry of the new key would be left beside the new version
    obtain ⟨a, ha, hka⟩ := hi.contains_iff.1 held
    have nodup := List.nodup_cons.1 ((p'.map Keyed.key).nodup_iff.1 hi'.keys_nodup)
    rcases List.mem_cons.1 (p.mem_iff.1 ha) with rfl | ha
    · exact other (hka.symm.trans hk)
    · exact nodup.1 (List.mem_map.2 ⟨a, ha, hka⟩)
  · rw [e] at e'
    cases e'
    exact .inr ⟨rfl, ⟨other, held⟩, old, rest, hk, p, p'⟩

/-- An update would give a job the key of another one in the same heap. -/
def Collides (q : JobQueue) (old new : Job) : Prop :=
  new.key ≠ old.key ∧ ∃ kind,
    (q.heap kind).contains old.key = true ∧ (q.heap kind).contains new.key = true

/-- In one of the heaps the candidate of a key gave way to others. All the rest of the queue is as
it was. -/
def Exchanged (q : JobQueue) (key : String) (into : Candidate → List Candidate)
    (q' : JobQueue) : Prop :=
  ∃ kind heap, (q.heap kind).GivesWay key into heap ∧ q' = q.withHeap heap kind

/-- What an update comes to: its answer, and the queue after it. -/
inductive Updated (q : JobQueue) (old new : Job) : Bool × JobQueue → Prop where
  | absent (free : q.holds old.key = false) : Updated q old new (false, q)
  | replaced {q' : JobQueue} (clear : ¬ q.Collides old new)
      (exchanged : q.Exchanged old.key (fun c => [c.replace new]) q') : Updated q old new (true, q')
  | dropped {q' : JobQueue} (collides : q.Collides old new)
      (exchanged : q.Exchanged old.key (fun _ => []) q') : Updated q old new (false, q')

theorem Collides.holds (h : q.Collides old new) : q.holds old.key = true := by
  obtain ⟨-, kind, held, -⟩ := h
  exact holds_iff_heap.2 ⟨kind, held⟩

/-- Only the heap that holds the old key can hold the new one as well. -/
theorem collides_iff {kind : HeapKind} (one : q.OneHeap)
    (held : (q.heap kind).contains old.key = true) :
    q.Collides old new ↔ new.key ≠ old.key ∧ (q.heap kind).contains new.key = true := by
  refine and_congr_right fun _ => ⟨?_, fun there => ⟨kind, held, there⟩⟩
  rintro ⟨kind', held', there⟩
  rwa [one.kind_eq held held']

theorem Exchanged.holds (hi : q.Indexed) (h : q.Exchanged key into q') : q.holds key = true := by
  obtain ⟨kind, heap, way, -⟩ := h
  exact holds_iff_heap.2 ⟨kind, way.contains (hi.heap kind)⟩

theorem Exchanged.heldCount {n : Nat} (h : q.Exchanged key into q')
    (length : ∀ c, (into c).length = n) : q'.heldCount + 1 = q.heldCount + n := by
  obtain ⟨kind, heap, way, rfl⟩ := h
  exact heldCount_withHeap (way.length length)

/-- An update concerns the heap that holds the old key, if there is one. -/
theorem update_in_heap (hi : q.Indexed) (old new : Job) :
    (∃ kind c done h, ∃ less : JobOrder, (q.heap kind).find? old.key = some c ∧
      replaceIn less (q.heap kind) old.key new = some (done, h) ∧
      q.update old new = (done, q.withHeap h kind)) ∨
    q.holds old.key = false ∧ q.update old new = (false, q) := by
  rcases update_cases q old new with ⟨c, done, h, hf, e, eu⟩ | ⟨-, c, done, h, hf, e, eu⟩ |
    ⟨absent, absent', eu⟩
  · exact .inl ⟨.ready, c, done, h, _, hf, e, eu⟩
  · exact .inl ⟨.delayed, c, done, h, _, hf, e, eu⟩
  · exact .inr ⟨(holds_eq_false_iff hi).2 (Prod.ext absent absent'), eu⟩

/-- Where no key is held by both heaps, an update has one of three outcomes. -/
theorem Sound.updated (sound : q.Sound) (old new : Job) :
    q.Updated old new (q.update old new) := by
  rcases update_in_heap sound.toIndexed old new with ⟨kind, c, done, h, less, hf, e, eu⟩ |
    ⟨free, eu⟩
  · have indexed := sound.toIndexed.heap kind
    have collides : q.Collides old new ↔ _ :=
      collides_iff sound.oneHeap (contains_of_find? indexed hf)
    rw [eu]
    obtain ⟨rfl, clear, way⟩ | ⟨rfl, hit, way⟩ := replaceIn_outcome indexed hf e
    · exact .replaced (mt collides.1 clear) ⟨kind, h, way, rfl⟩
    · exact .dropped (collides.2 hit) ⟨kind, h, way, rfl⟩
  · rw [eu]
    exact .absent free

/-- An update that collides answers that it was not made, and the job is gone. -/
theorem Updated.of_collides {r : Bool × JobQueue} (h : q.Updated old new r)
    (collides : q.Collides old new) : r.1 = false ∧ q.Exchanged old.key (fun _ => []) r.2 := by
  cases h with
  | absent free => exact absurd collides.holds (Bool.eq_false_iff.1 free)
  | replaced clear => exact absurd collides clear
  | dropped _ exchanged => exact ⟨rfl, exchanged⟩

/-! ## What is asked of an update -/

/-- An update that came back with `r` did what is asked of it. If it answers that it was not made,
what is held is what was held before. If it was made, the new version is in the place of the old
one, in the same heap and with its record, and as many are held as before. -/
structure Faithful (q : JobQueue) (old new : Job) (r : Bool × JobQueue) : Prop where
  refused : r.1 = false → ∀ kind, (r.2.heap kind).toList.Perm (q.heap kind).toList
  made : r.1 = true → q.holds old.key = true ∧
    q.Exchanged old.key (fun c => [c.replace new]) r.2 ∧ r.2.heldCount = q.heldCount

theorem Updated.faithful_iff {r : Bool × JobQueue} (hi : q.Indexed) (h : q.Updated old new r) :
    q.Faithful old new r ↔ ¬ q.Collides old new := by
  cases h with
  | absent free =>
    exact iff_of_true ⟨fun _ _ => .refl _, nofun⟩ fun collides =>
      absurd collides.holds (Bool.eq_false_iff.1 free)
  | replaced clear exchanged =>
    refine iff_of_true ⟨nofun, fun _ => ⟨exchanged.holds hi, exchanged, ?_⟩⟩ clear
    exact Nat.succ.inj (exchanged.heldCount fun _ => rfl)
  | @dropped q' collides exchanged =>
    refine iff_of_false (fun faithful => ?_) (not_not_intro collides)
    have fewer : q'.heldCount + 1 = q.heldCount := exchanged.heldCount fun _ => rfl
    have same := faithful.refused rfl
    rw [heldCount_eq, heldCount_eq, (same .ready).length_eq, (same .delayed).length_eq] at fewer
    omega

/-- Whatever was done to a queue, as long as its heaps share no key an update does what is asked of
it exactly if it gives no job the key of another one in the same heap; an update that does loses the
job that it was to change. -/
theorem faithful_iff_no_collision (hq : q.Reachable) (one : q.OneHeap) (old new : Job) :
    (q.Faithful old new (q.update old new) ↔ ¬ q.Collides old new) ∧
      (q.Collides old new → (q.update old new).1 = false ∧
        q.Exchanged old.key (fun _ => []) (q.update old new).2) :=
  have outcome := Sound.updated ⟨hq.indexed, one⟩ old new
  ⟨outcome.faithful_iff hq.indexed, outcome.of_collides⟩

/-! ## Two jobs -/

/-- Two jobs of different keys submitted to a new queue are both ready. -/
theorem submitted_twice (definition : QueueDef) (order : JobOrder) (timing : QueueTiming)
    (stopped : Bool) {x y : Job} (other : x.key ≠ y.key) :
    let q := (JobQueue.new definition order timing stopped).after
      [.call 0 (.submit x), .call 0 (.submit y)]
    q.Sound ∧ q.heldCount = 2 ∧
      ∀ key, (q.heap .ready).contains key = true ↔ x.key = key ∨ y.key = key := by
  intro q
  have filled : q.Filled definition [(0, x), (0, y)] [] :=
    filled definition order timing stopped [(0, x), (0, y)] [] (by simpa using other)
  refine ⟨filled.sound, filled.heldCount, fun key =>
    (filled.sound.toIndexed.heap .ready).contains_iff.trans ?_⟩
  show (∃ c ∈ q.ready.toList, c.key = key) ↔ _
  simp [filled.ready.mem_iff, arrivals, Candidate.fresh]

/-- Of two ready jobs the first may take a key that is free, and is lost if it is to take that of
the second. -/
theorem renamed_to_free_key_and_to_held_key :
    let q := (JobQueue.new (QueueDef.new "a" 0) Priority.jobOrder .standard false).after
      [.call 0 (.submit (Job.new "n" "x" "TFJob")), .call 0 (.submit (Job.new "n" "y" "TFJob"))]
    (q.OneHeap ∧ ¬ q.Collides (Job.new "n" "x" "TFJob") (Job.new "n" "z" "TFJob") ∧
        q.Collides (Job.new "n" "x" "TFJob") (Job.new "n" "y" "TFJob")) ∧
      q.Faithful (Job.new "n" "x" "TFJob") (Job.new "n" "z" "TFJob")
        (q.update (Job.new "n" "x" "TFJob") (Job.new "n" "z" "TFJob")) ∧
      q.Exchanged "n/x" (fun _ => [])
        (q.update (Job.new "n" "x" "TFJob") (Job.new "n" "y" "TFJob")).2 := by
  intro q
  obtain ⟨sound, -, keys⟩ := submitted_twice (QueueDef.new "a" 0) Priority.jobOrder .standard false
    (x := Job.new "n" "x" "TFJob") (y := Job.new "n" "y" "TFJob") (by decide)
  have held := (keys (Job.new "n" "x" "TFJob").key).2 (.inl rfl)
  have free : ¬ q.Collides (Job.new "n" "x" "TFJob") (Job.new "n" "z" "TFJob") := fun collides =>
    absurd ((keys _).1 ((collides_iff sound.oneHeap held).1 collides).2) (by decide)
  have taken : q.Collides (Job.new "n" "x" "TFJob") (Job.new "n" "y" "TFJob") :=
    ⟨by decide, .ready, held, (keys _).2 (.inr rfl)⟩
  have main := faithful_iff_no_collision (q := q) ⟨_, _, _, _, _, rfl⟩ sound.oneHeap
    (Job.new "n" "x" "TFJob")
  exact ⟨⟨sound.oneHeap, free, taken⟩, (main (Job.new "n" "z" "TFJob")).1.2 free,
    ((main (Job.new "n" "y" "TFJob")).2 taken).2⟩

/-- A ready job that is to take the key of another ready job is gone, though the update answers that
it was not made. -/
theorem renamed_onto_ready_job :
    let q := (JobQueue.new (QueueDef.new "a" 0) Priority.jobOrder .standard false).after
      [.call 0 (.submit (Job.new "n" "x" "TFJob")), .call 0 (.submit (Job.new "n" "y" "TFJob"))]
    let r := q.update (Job.new "n" "x" "TFJob") (Job.new "n" "y" "TFJob")
    q.OneHeap ∧ r.1 = false ∧ q.heldCount = 2 ∧ r.2.heldCount = 1 := by
  intro q r
  obtain ⟨sound, count, keys⟩ := submitted_twice (QueueDef.new "a" 0) Priority.jobOrder .standard
    false (x := Job.new "n" "x" "TFJob") (y := Job.new "n" "y" "TFJob") (by decide)
  have taken : q.Collides (Job.new "n" "x" "TFJob") (Job.new "n" "y" "TFJob") :=
    ⟨by decide, .ready, (keys _).2 (.inl rfl), (keys _).2 (.inr rfl)⟩
  obtain ⟨refused, exchanged⟩ := (sound.updated _ _).of_collides taken
  have fewer : r.2.heldCount + 1 = q.heldCount := exchanged.heldCount fun _ => rfl
  change q.heldCount = 2 at count
  exact ⟨sound.oneHeap, refused, count, by omega⟩

end JobQueue

end JobAdmission
