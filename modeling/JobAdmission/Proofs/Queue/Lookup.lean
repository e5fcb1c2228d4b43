/-
What a queue finds under a key in its two heaps, and how each operation changes it. An operation on
other keys changes nothing; a flush moves what it finds among the delayed to the ready if its window
has ended; and a delivery to a queue that holds nothing leaves both heaps with what the heaps of the
source had, but that a key found in both is not taken twice.
-/
import JobAdmission.Proofs.Queue.Lasting

namespace JobAdmission

namespace KeyedHeap

variable {α : Type} [Keyed α] {h h' : KeyedHeap α} {key : String}

/-- Heaps that hold the same items of a key find the same under it. -/
theorem Indexed.find?_congr (hi : h.Indexed) (hi' : h'.Indexed)
    (same : ∀ a, Keyed.key a = key → (a ∈ h'.toList ↔ a ∈ h.toList)) :
    h'.find? key = h.find? key := by
  apply Option.ext
  intro a
  rw [hi'.find?_eq_some_iff, hi.find?_eq_some_iff]
  exact and_congr_left fun hk => same a hk

/-- A heap is known by its look-ups, up to the order of its items. -/
theorem Indexed.perm_of_find? (hi : h.Indexed) (hi' : h'.Indexed)
    (same : ∀ key, h'.find? key = h.find? key) : h'.toList.Perm h.toList := by
  refine (List.perm_ext_iff_of_nodup (.of_map _ hi'.keys_nodup) (.of_map _ hi.keys_nodup)).2
    fun a => ?_
  have found := same (Keyed.key a)
  constructor
  · intro ha
    rw [hi'.find?_eq_some_iff.2 ⟨ha, rfl⟩] at found
    exact (hi.find?_eq_some_iff.1 found.symm).1
  · intro ha
    rw [hi.find?_eq_some_iff.2 ⟨ha, rfl⟩] at found
    exact (hi'.find?_eq_some_iff.1 found).1

/-- Looking through the items one by one finds what the index finds. -/
theorem Indexed.find?_toList (hi : h.Indexed) (key : String) :
    h.toList.find? (fun a => Keyed.key a == key) = h.find? key := by
  rcases hf : h.toList.find? (fun a => Keyed.key a == key) with _ | a
  · refine (hi.find?_eq_none_iff.2 fun a ha hk => ?_).symm
    have := List.find?_eq_none.1 hf a ha
    simp [hk] at this
  · have hk : Keyed.key a = key := by simpa using List.find?_some hf
    exact (hi.find?_eq_some_iff.2 ⟨List.mem_of_find?_eq_some hf, hk⟩).symm

theorem find?_empty (key : String) : (empty : KeyedHeap α).find? key = none :=
  indexed_empty.find?_eq_none_iff.2 (by simp [toList, empty])

end KeyedHeap

namespace JobQueue

open KeyedHeap

/-- What the two heaps find under a key. -/
def found (q : JobQueue) (key : String) : Option Candidate × Option Candidate :=
  (q.ready.find? key, q.delayed.find? key)

variable {q q' : JobQueue} {c : Candidate} {key : String}

@[simp] theorem found_start : q.start.found key = q.found key := by
  unfold start
  split <;> rfl

@[simp] theorem found_close : q.close.found key = q.found key := rfl

/-- A queue holds a key exactly if one of its heaps finds something under it. -/
theorem holds_eq_false_iff (hi : q.Indexed) : q.holds key = false ↔ q.found key = (none, none) := by
  unfold holds found
  rw [hi.ready.contains_eq, hi.delayed.contains_eq, Bool.or_eq_false_iff, Prod.mk.injEq]
  simp

/-! ## Putting in and taking out -/

theorem found_requeue (hi : q.Indexed) (e : q.requeue c = .ok q') (key : String) :
    q'.found key = (if c.key = key then some c else (q.found key).1, (q.found key).2) := by
  obtain ⟨ready, rfl, -, -, -, ri, p⟩ := requeue_eq_ok hi e
  exact Prod.ext (hi.ready.find?_of_added ri p key) rfl

theorem found_delay_of_ne (hi : q.Indexed) (e : q.delay c = .ok q') (hne : c.key ≠ key) :
    q'.found key = q.found key := by
  obtain ⟨-, ⟨-, rfl⟩ | ⟨delayed, rfl, -, di, p⟩⟩ := delay_eq_ok hi e
  · rfl
  · refine Prod.ext rfl ?_
    exact (hi.delayed.find?_of_added di p key).trans (if_neg hne)

theorem found_delay_self (hi : q.Indexed) (e : q.delay c = .ok q')
    (free : q.found c.key = (none, none)) : q'.found c.key = (none, some c) := by
  obtain ⟨-, ⟨held, -⟩ | ⟨delayed, rfl, -, di, p⟩⟩ := delay_eq_ok hi e
  · rw [(holds_eq_false_iff hi).2 free] at held
    cases held
  · refine Prod.ext (show q.ready.find? c.key = none from congrArg Prod.fst free) ?_
    exact (hi.delayed.find?_of_added di p c.key).trans (if_pos rfl)

/-- A replacement concerns the old key and the new one. -/
theorem find?_replaceIn {less : JobOrder} {h h' : KeyedHeap Candidate} {old : String} {job : Job}
    {done : Bool} (hi : h.Indexed) (hf : h.find? old = some c)
    (e : replaceIn less h old job = some (done, h')) (ho : old ≠ key) (hn : job.key ≠ key) :
    h'.find? key = h.find? key := by
  have hk := (hi.find?_eq_some_iff.1 hf).2
  obtain ⟨done', g, rest, e', gi, p, alternatives⟩ :=
    @replaceIn_spec less h old job c hi hf
  rw [e] at e'
  cases e'
  refine hi.find?_congr gi fun a ha => ?_
  have other : a ≠ c := by
    rintro rfl
    exact ho (hk.symm.trans ha)
  have fresh : a ≠ c.replace job := by
    rintro rfl
    exact hn ha
  rw [p.mem_iff]
  rcases alternatives with ⟨-, p'⟩ | ⟨-, -, -, p'⟩
  · rw [p'.mem_iff]
    simp [other, fresh]
  · rw [p'.mem_iff]
    simp [other]

theorem found_update (hi : q.Indexed) {old new : Job} (ho : old.key ≠ key) (hn : new.key ≠ key) :
    (q.update old new).2.found key = q.found key := by
  rcases update_cases q old new with ⟨c, done, ready, hf, e, eu⟩ |
    ⟨-, c, done, delayed, hf, e, eu⟩ | ⟨-, -, eu⟩
  · rw [eu]
    exact Prod.ext (find?_replaceIn hi.ready hf e ho hn) rfl
  · rw [eu]
    exact Prod.ext rfl (find?_replaceIn hi.delayed hf e ho hn)
  · rw [eu]

theorem found_remove (hi : q.Indexed) {other : String} (hne : other ≠ key) :
    (q.remove other).2.found key = q.found key := by
  rcases remove_cases hi other with ⟨c, ready, hf, ri, p, e⟩ |
    ⟨-, c, delayed, hf, di, p, e⟩ | ⟨-, -, e⟩
  · have hk := (hi.ready.find?_eq_some_iff.1 hf).2
    rw [e]
    refine Prod.ext ?_ rfl
    exact (hi.ready.find?_of_taken ri p key).trans (if_neg fun e => hne (hk.symm.trans e))
  · have hk := (hi.delayed.find?_eq_some_iff.1 hf).2
    rw [e]
    refine Prod.ext rfl ?_
    exact (hi.delayed.find?_of_taken di p key).trans (if_neg fun e => hne (hk.symm.trans e))
  · rw [e]

theorem found_pop (hi : q.Indexed) (e : q.pop = .ok (c, q')) (key : String) :
    (q.found c.key).1 = some c ∧
      q'.found key = (if c.key = key then none else (q.found key).1, (q.found key).2) := by
  obtain ⟨ready, rfl, ri, p⟩ := JobQueue.pop_eq_ok hi e
  have was : q.ready.find? c.key = some c :=
    hi.ready.find?_eq_some_iff.2 ⟨p.mem_iff.2 List.mem_cons_self, rfl⟩
  exact ⟨was, Prod.ext (hi.ready.find?_of_taken ri p key) rfl⟩

/-! ## Flushing -/

/-- What is found under a key after candidates whose window ended at `now` may have moved. -/
inductive Flushed (p : RetryPolicy) (now : Nat) :
    Option Candidate × Option Candidate → Option Candidate × Option Candidate → Prop where
  | same (found : Option Candidate × Option Candidate) : Flushed p now found found
  | due (c : Candidate) (ended : p.deadline c ≤ now) : Flushed p now (none, some c) (some c, none)

theorem flushed_flushUpTo (hi : q.Indexed) (now fuel : Nat)
    (one : (q.found key).1 = none ∨ (q.found key).2 = none) :
    Flushed q.timing.retry now (q.found key) ((flushUpTo now fuel q).2.found key) := by
  fun_induction JobQueue.flushUpTo now fuel q with
  | case1 => exact .same _
  | case2 => exact .same _
  | case3 => exact .same _
  | case4 => exact .same _
  | case5 fuel q head front ended c delayed popped ready pushed n q' flushed ih =>
    obtain ⟨di, dp⟩ := KeyedHeap.pop_eq_ok hi.delayed popped
    obtain ⟨-, ri, rp⟩ := push_eq_ok hi.ready pushed
    have first : c = head := by
      obtain ⟨d, e, -⟩ := pop_spec q.byDeadline hi.delayed front
      rw [popped] at e
      cases e
      rfl
    have moved : ({ q with ready, delayed } : JobQueue).found key =
        (if c.key = key then some c else (q.found key).1,
          if c.key = key then none else (q.found key).2) :=
      Prod.ext (hi.ready.find?_of_added ri rp key) (hi.delayed.find?_of_taken di dp key)
    by_cases hk : c.key = key
    · -- the key itself moves, and there is nothing left of it to move
      rw [if_pos hk, if_pos hk] at moved
      have was : (q.found key).2 = some c :=
        hi.delayed.find?_eq_some_iff.2 ⟨dp.mem_iff.2 List.mem_cons_self, hk⟩
      have absent : (q.found key).1 = none := one.resolve_right (by rw [was]; simp)
      have rest := ih ⟨ri, di⟩ (.inr (by rw [moved]))
      rw [moved, flushed] at rest
      have before : q.found key = (none, some c) := Prod.ext absent was
      rw [before]
      generalize q'.found key = after at rest ⊢
      cases rest with
      | same => exact .due c (by rw [first]; omega)
    · rw [if_neg hk, if_neg hk] at moved
      have rest := ih ⟨ri, di⟩ (by rw [moved]; exact one)
      rw [moved, flushed] at rest
      exact rest
  | case6 fuel q head front ended c delayed popped err refused ih =>
    obtain ⟨di, dp⟩ := KeyedHeap.pop_eq_ok hi.delayed popped
    -- a refused candidate is ready already, so its key is not the one with a single place
    have ready : q.ready.contains c.key = true :=
      (push_refused_iff q.order q.ready c).1 ⟨_, refused⟩
    have was : q.delayed.find? c.key = some c :=
      hi.delayed.find?_eq_some_iff.2 ⟨dp.mem_iff.2 List.mem_cons_self, rfl⟩
    have other : c.key ≠ key := by
      rintro rfl
      rcases one with absent | absent
      · rw [hi.ready.contains_eq, show q.ready.find? c.key = none from absent] at ready
        cases ready
      · rw [show (q.found c.key).2 = some c from was] at absent
        cases absent
    have kept : ({ q with delayed } : JobQueue).found key = q.found key :=
      Prod.ext rfl ((hi.delayed.find?_of_taken di dp key).trans (if_neg other))
    have rest := ih ⟨hi.ready, di⟩ (by rw [kept]; exact one)
    rw [kept] at rest
    exact rest

theorem flushed_elapse (hi : q.Indexed) (now span : Nat)
    (one : (q.found key).1 = none ∨ (q.found key).2 = none) :
    Flushed q.timing.retry now (q.found key) ((q.elapse now span).found key) := by
  unfold elapse
  split
  · exact .same _
  · split
    · exact .same _
    · split
      · exact flushed_flushUpTo hi now q.delayedCount one
      · exact .same _

/-! ## Deliveries -/

/-- A fold that counts as it goes may start its count at zero. -/
theorem foldl_counted {σ α : Type} {step : Nat × σ → α → Nat × σ}
    (counts : ∀ n s a, step (n, s) a = (n + (step (0, s) a).1, (step (0, s) a).2)) (as : List α)
    (n : Nat) (s : σ) :
    as.foldl step (n, s) = (n + (as.foldl step (0, s)).1, (as.foldl step (0, s)).2) := by
  induction as generalizing n s with
  | nil => rfl
  | cons a as ih =>
    rw [List.foldl_cons, List.foldl_cons, counts, ih, ih (step (0, s) a).1]
    exact Prod.ext (Nat.add_assoc ..) rfl

theorem receive_cons_eq (put : JobQueue → Candidate → Except AdmissionError JobQueue)
    (q : JobQueue) (c : Candidate) (cs : List Candidate) :
    receive put q (c :: cs) =
      ((if (put q c).isOk then 1 else 0) + (receive put ((put q c).toOption.getD q) cs).1,
        (receive put ((put q c).toOption.getD q) cs).2) := by
  unfold receive
  rw [List.foldl_cons, ← foldl_counted]
  · congr 1
    dsimp only
    rcases put q c with e | q' <;> rfl
  · intro n q c
    dsimp only
    rcases put q c with e | q' <;> rfl

theorem receive_cons (put : JobQueue → Candidate → Except AdmissionError JobQueue) (q : JobQueue)
    (c : Candidate) (cs : List Candidate) :
    (receive put q (c :: cs)).2 = (receive put ((put q c).toOption.getD q) cs).2 := by
  rw [receive_cons_eq]

/-- Ready candidates delivered to an open queue without delayed ones: the first of a key is taken,
unless the queue has one. -/
theorem receive_requeue (hi : q.Indexed) (opened : q.closed = false)
    (empty : ∀ key, q.delayed.find? key = none) (cs : List Candidate) :
    ∃ ready, (receive requeue q cs).2 = { q with ready } ∧ ready.Indexed ∧
      ∀ key, ready.find? key = (q.ready.find? key).or (cs.find? (·.key == key)) := by
  induction cs generalizing q with
  | nil => exact ⟨q.ready, rfl, hi.ready, fun key => by simp⟩
  | cons c cs ih =>
    rw [receive_cons]
    by_cases held : q.ready.contains c.key = true
    · have refused : (q.requeue c).toOption.getD q = q := by
        rcases e : q.requeue c with err | q'
        · rfl
        · obtain ⟨-, -, -, -, free, -⟩ := requeue_eq_ok hi e
          exact absurd held (by rw [free]; simp)
      rw [refused]
      obtain ⟨ready, e, ri, found⟩ := ih hi opened empty
      refine ⟨ready, e, ri, fun key => ?_⟩
      rw [found]
      by_cases hk : c.key = key
      · rw [hi.ready.contains_eq, hk] at held
        obtain ⟨d, hd⟩ := Option.isSome_iff_exists.1 held
        rw [hd, Option.some_or, Option.some_or]
      · simp [hk]
    · have free : q.holds c.key = false := by
        unfold holds
        rw [hi.delayed.contains_eq, empty]
        simpa using held
      obtain ⟨ready, e, ri, p⟩ := requeue_of_free hi opened free
      rw [e]
      obtain ⟨ready', e', ri', found⟩ :=
        ih (q := { q with ready }) ⟨ri, hi.delayed⟩ opened empty
      refine ⟨ready', e', ri', fun key => ?_⟩
      rw [found]
      dsimp only
      rw [hi.ready.find?_of_added ri p]
      by_cases hk : c.key = key
      · have absent : q.ready.find? key = none := by
          rw [hi.ready.contains_eq, hk] at held
          simpa using held
        rw [if_pos (show Keyed.key c = key from hk), absent]
        simp [hk]
      · rw [if_neg (show ¬ Keyed.key c = key from hk)]
        simp [hk]

/-- Delayed candidates delivered to an open queue: the first of a key is taken, unless the queue
has one in either heap. -/
theorem receive_delay (hi : q.Indexed) (opened : q.closed = false) (cs : List Candidate) :
    ∃ delayed, (receive delay q cs).2 = { q with delayed } ∧ delayed.Indexed ∧
      ∀ key, delayed.find? key = (q.delayed.find? key).or
        (if (q.ready.find? key).isSome then none else cs.find? (·.key == key)) := by
  induction cs generalizing q with
  | nil => exact ⟨q.delayed, rfl, hi.delayed, fun key => by simp⟩
  | cons c cs ih =>
    rw [receive_cons]
    by_cases held : q.holds c.key = true
    · have same : (q.delay c).toOption.getD q = q := by
        unfold delay
        rw [opened, held]
        rfl
      rw [same]
      obtain ⟨delayed, e, di, found⟩ := ih hi opened
      refine ⟨delayed, e, di, fun key => ?_⟩
      rw [found]
      by_cases hk : c.key = key
      · unfold holds at held
        rw [hi.ready.contains_eq, hi.delayed.contains_eq, hk, Bool.or_eq_true] at held
        rcases held with held | held
        · rw [if_pos held, if_pos held]
        · obtain ⟨d, hd⟩ := Option.isSome_iff_exists.1 held
          rw [hd, Option.some_or, Option.some_or]
      · simp [hk]
    · have free : q.holds c.key = false := by simpa using held
      obtain ⟨delayed, e, di, p⟩ := delay_of_free hi opened free
      rw [e]
      obtain ⟨delayed', e', di', found⟩ :=
        ih (q := { q with delayed }) ⟨hi.ready, di⟩ opened
      refine ⟨delayed', e', di', fun key => ?_⟩
      rw [found]
      dsimp only
      rw [hi.delayed.find?_of_added di p]
      by_cases hk : c.key = key
      · have absent : q.found key = (none, none) := (holds_eq_false_iff hi).1 (hk ▸ free)
        have ready : q.ready.find? key = none := congrArg Prod.fst absent
        have delayed : q.delayed.find? key = none := congrArg Prod.snd absent
        rw [if_pos (show Keyed.key c = key from hk), ready, delayed]
        simp [hk]
      · rw [if_neg (show ¬ Keyed.key c = key from hk)]
        simp [hk]

/-- What a queue that holds nothing finds after it received all that another one held. -/
theorem found_receiveAll {t : JobQueue} (hi : q.Indexed) (ht : t.Indexed)
    (opened : t.closed = false) (empty : ∀ key, t.found key = (none, none)) :
    ∃ ready delayed, (t.receiveAll q.takeAll.1).2 = { t with ready, delayed } ∧
      ∀ key, (t.receiveAll q.takeAll.1).2.found key =
        ((q.found key).1, if (q.found key).1.isSome then none else (q.found key).2) := by
  obtain ⟨ready, e, ri, found⟩ := receive_requeue ht opened
    (fun key => congrArg Prod.snd (empty key)) q.ready.toList
  have whole : (t.receiveAll q.takeAll.1).2 =
      (receive delay (receive requeue t q.ready.toList).2 q.delayed.toList).2 := rfl
  rw [whole, e]
  obtain ⟨delayed, e', di, found'⟩ :=
    receive_delay (q := { t with ready }) ⟨ri, ht.delayed⟩ opened q.delayed.toList
  rw [e']
  refine ⟨ready, delayed, rfl, fun key => ?_⟩
  have first : ready.find? key = (q.found key).1 := by
    rw [found, show t.ready.find? key = none from congrArg Prod.fst (empty key), Option.none_or]
    exact hi.ready.find?_toList key
  refine Prod.ext first ?_
  show delayed.find? key = _
  rw [found', show t.delayed.find? key = none from congrArg Prod.snd (empty key), Option.none_or,
    show ({ t with ready } : JobQueue).ready.find? key = ready.find? key from rfl, first]
  congr 1
  exact hi.delayed.find?_toList key

/-- What is in one heap only arrives in that heap. -/
theorem found_receiveAll_single {t : JobQueue} (hi : q.Indexed) (ht : t.Indexed)
    (opened : t.closed = false) (empty : ∀ key, t.found key = (none, none))
    (one : (q.found key).1 = none ∨ (q.found key).2 = none) :
    (t.receiveAll q.takeAll.1).2.found key = q.found key := by
  obtain ⟨_, _, -, delivered⟩ := found_receiveAll hi ht opened empty
  refine (delivered key).trans (Prod.ext rfl ?_)
  dsimp only
  split
  · rename_i ready
    rcases one with absent | absent
    · rw [absent] at ready
      cases ready
    · exact absent.symm
  · rfl

end JobQueue

end JobAdmission
