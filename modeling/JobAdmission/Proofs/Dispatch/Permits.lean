/-
The permits of an open semaphore. None is lost: what is free and what waiting calls have been given
changes by what calls pick up and what comes back. Waiting calls are served in the order in which
they came, so the only one of them that can have some but not all of its permits is the first in
line.
-/
import JobAdmission.Dispatch.Semaphore
import Mathlib.Algebra.BigOperators.Group.List.Basic
import Mathlib.Algebra.Ring.Nat
import Mathlib.Tactic.Common

namespace JobAdmission

namespace Semaphore

variable {s t : Semaphore} {need ticket n : Nat}

/-- The calls that have not picked up their permits, first come first. -/
def waiters (s : Semaphore) : List Waiter := s.served ++ s.line

/-- The tickets of the waiting calls, with the permits they asked for. -/
def requests (s : Semaphore) : List (Nat × Nat) := s.waiters.map fun w => (w.ticket, w.need)

/-- The permits that some calls have been given. -/
def handed (ws : List Waiter) : Nat := (ws.map (·.got)).sum

/-- The permits that nobody has picked up. -/
def kept (s : Semaphore) : Nat := s.free + handed s.waiters

@[simp] theorem handed_nil : handed [] = 0 := rfl

@[simp] theorem handed_cons (w : Waiter) (ws : List Waiter) :
    handed (w :: ws) = w.got + handed ws := by
  simp [handed]

@[simp] theorem handed_append (ws vs : List Waiter) :
    handed (ws ++ vs) = handed ws + handed vs := by
  simp [handed]

theorem got_le_handed {ws : List Waiter} {w : Waiter} (h : w ∈ ws) : w.got ≤ handed ws := by
  obtain ⟨before, after, rfl⟩ := List.append_of_mem h
  simp only [handed_append, handed_cons]
  omega

/-- How an open semaphore is kept. -/
structure Orderly (s : Semaphore) : Prop where
  opened : s.closed = false
  served : ∀ w ∈ s.served, w.got = w.need
  line : ∀ w ∈ s.line, w.got < w.need
  /-- Nothing is given to a call before the calls that came earlier have all of theirs. -/
  behind : ∀ w ∈ s.line.tail, w.got = 0
  busy : s.line ≠ [] → s.free = 0
  increasing : s.requests.Pairwise fun a b => a.1 < b.1
  issued : ∀ r ∈ s.requests, r.1 < s.nextTicket ∧ 0 < r.2

theorem Orderly.not_closed (h : s.Orderly) : ¬ s.closed = true := by
  rw [h.opened]
  exact Bool.false_ne_true

/-- Every waiting call asked for something. -/
theorem Orderly.asks (h : s.Orderly) {w : Waiter} (hw : w ∈ s.waiters) : 0 < w.need :=
  (h.issued (w.ticket, w.need) (List.mem_map.2 ⟨w, hw, rfl⟩)).2

theorem orderly_new (permits : Nat) : (new permits).Orderly :=
  ⟨rfl, by simp [new], by simp [new], by simp [new], by simp [new], .nil,
    by simp [requests, waiters, new]⟩

/-! ## Asking -/

/-- What comes of a call for permits. -/
inductive Acquired (s : Semaphore) (need : Nat) : Acquisition × Semaphore → Prop where
  | granted (t : Semaphore) (orderly : t.Orderly) (enough : need ≤ s.free)
      (kept : t.kept + need = s.kept) (requests : t.requests = s.requests) :
      Acquired s need (.granted, t)
  | waiting (t : Semaphore) (orderly : t.Orderly) (short : s.free < need)
      (kept : t.kept = s.kept)
      (requests : t.requests = s.requests ++ [(s.nextTicket, need)]) :
      Acquired s need (.waiting s.nextTicket, t)

theorem Orderly.acquire (h : s.Orderly) (pos : 0 < need) : Acquired s need (s.acquire need) := by
  unfold Semaphore.acquire
  rw [if_neg h.not_closed]
  split
  · rename_i enough
    -- a call that gets its permits at once finds nobody in line
    have idle : s.line = [] := by
      by_contra busy
      have := h.busy busy
      omega
    refine .granted _ ⟨h.opened, h.served, h.line, h.behind, fun busy => absurd idle busy,
      h.increasing, h.issued⟩ enough ?_ rfl
    unfold Semaphore.kept waiters
    dsimp only
    omega
  · rename_i short
    have asked : ({ s with
        free := 0
        line := s.line ++ [⟨s.nextTicket, need, s.free⟩]
        nextTicket := s.nextTicket + 1 } : Semaphore).requests =
        s.requests ++ [(s.nextTicket, need)] := by
      simp [Semaphore.requests, waiters]
    refine .waiting _ ⟨h.opened, h.served, ?_, ?_, fun _ => rfl, ?_, ?_⟩ (by omega) ?_ asked
    · intro w hw
      rcases List.mem_append.1 hw with hw | hw
      · exact h.line w hw
      · cases List.mem_singleton.1 hw
        dsimp only
        omega
    · intro w hw
      rcases line : s.line with _ | ⟨first, rest⟩
      · rw [line] at hw
        cases hw
      · rw [line] at hw
        rcases List.mem_append.1 hw with hw | hw
        · exact h.behind w (by rw [line]; exact hw)
        · cases List.mem_singleton.1 hw
          exact h.busy (by rw [line]; simp)
    · rw [asked, List.pairwise_append]
      refine ⟨h.increasing, List.pairwise_singleton .., fun r hr last hl => ?_⟩
      cases List.mem_singleton.1 hl
      exact (h.issued r hr).1
    · rw [asked]
      intro r hr
      rcases List.mem_append.1 hr with hr | hr
      · exact ⟨Nat.lt_succ_of_lt (h.issued r hr).1, (h.issued r hr).2⟩
      · cases List.mem_singleton.1 hr
        exact ⟨Nat.lt_succ_self _, pos⟩
    · simp only [Semaphore.kept, waiters, handed_append, handed_cons, handed_nil]
      omega

/-! ## Giving back -/

/-- Permits handed out along the line: whoever has all of theirs leaves it, in order. -/
theorem hand_spec (n : Nat) (line : List Waiter) (lacking : ∀ w ∈ line, w.got < w.need)
    (behind : ∀ w ∈ line.tail, w.got = 0) {left : Nat} {served rest : List Waiter}
    (e : hand n line = (left, served, rest)) :
    ((served ++ rest).map fun w => (w.ticket, w.need)) = (line.map fun w => (w.ticket, w.need)) ∧
      (∀ w ∈ served, w.got = w.need) ∧ (∀ w ∈ rest, w.got < w.need) ∧
      (∀ w ∈ rest.tail, w.got = 0) ∧ (rest ≠ [] → left = 0) ∧
      left + handed (served ++ rest) = n + handed line := by
  fun_induction hand n line generalizing left served rest with
  | case1 n =>
    cases e
    simp
  | case2 n w line enough left' served' rest' eq ih =>
    cases e
    have := lacking w List.mem_cons_self
    obtain ⟨requests, full, short, behind', busy, sum⟩ :=
      ih (fun v hv => lacking v (List.mem_cons_of_mem _ hv))
        (fun v hv => behind v (List.mem_of_mem_tail hv)) eq
    refine ⟨?_, ?_, short, behind', busy, ?_⟩
    · rw [List.cons_append, List.map_cons, List.map_cons, requests]
    · intro v hv
      rcases List.mem_cons.1 hv with rfl | hv
      · rfl
      · exact full v hv
    · rw [List.cons_append, handed_cons, handed_cons]
      dsimp only
      omega
  | case3 n w line short =>
    cases e
    refine ⟨rfl, by simp, ?_, behind, fun _ => rfl, ?_⟩
    · intro v hv
      rcases List.mem_cons.1 hv with rfl | hv
      · dsimp only
        omega
      · exact lacking v (List.mem_cons_of_mem _ hv)
    · rw [List.nil_append, handed_cons, handed_cons]
      dsimp only
      omega

theorem Orderly.release (h : s.Orderly) (n : Nat) :
    (s.release n).Orderly ∧ (s.release n).kept = s.kept + n ∧
      (s.release n).requests = s.requests := by
  unfold Semaphore.release
  rw [if_neg h.not_closed]
  rcases e : hand n s.line with ⟨left, served, rest⟩
  obtain ⟨same, full, short, behind, busy, sum⟩ := hand_spec n s.line h.line h.behind e
  have asked : ({ s with free := s.free + left, served := s.served ++ served, line := rest } :
      Semaphore).requests = s.requests := by
    unfold requests waiters
    rw [List.append_assoc, List.map_append, same, ← List.map_append]
  refine ⟨⟨h.opened, ?_, short, behind, ?_, ?_, ?_⟩, ?_, asked⟩
  · intro w hw
    exact (List.mem_append.1 hw).elim (h.served w) (full w)
  · intro waits
    have before : s.line ≠ [] := by
      rintro none
      rw [none] at e
      cases e
      exact waits rfl
    show s.free + left = 0
    rw [busy waits, h.busy before]
  · rw [asked]
    exact h.increasing
  · rw [asked]
    exact h.issued
  · unfold kept waiters
    simp only [handed_append] at sum ⊢
    omega

/-! ## Looking again -/

/-- What comes of another look at a call. -/
inductive Polled (s : Semaphore) (ticket : Nat) : Acquisition × Semaphore → Prop where
  | granted (w : Waiter) (served : w ∈ s.served) (mine : w.ticket = ticket) (t : Semaphore)
      (orderly : t.Orderly) (kept : t.kept + w.need = s.kept)
      (requests : t.requests = s.requests.filter (·.1 != ticket)) :
      Polled s ticket (.granted, t)
  | waiting (unserved : ∀ w ∈ s.served, w.ticket ≠ ticket) : Polled s ticket (.waiting ticket, s)

/-- A waiting call is known by its ticket. -/
theorem Orderly.distinct (h : s.Orderly) {before after : List Waiter} {w : Waiter}
    (e : s.waiters = before ++ w :: after) :
    (∀ v ∈ before, v.ticket ≠ w.ticket) ∧ ∀ v ∈ after, v.ticket ≠ w.ticket := by
  have increasing := h.increasing
  unfold requests at increasing
  rw [e, List.pairwise_map, List.pairwise_append, List.pairwise_cons] at increasing
  obtain ⟨-, ⟨later, -⟩, earlier⟩ := increasing
  exact ⟨fun v hv => Nat.ne_of_lt (earlier v hv w List.mem_cons_self),
    fun v hv => Nat.ne_of_gt (later v hv)⟩

theorem Orderly.poll (h : s.Orderly) (ticket : Nat) : Polled s ticket (s.poll ticket) := by
  unfold Semaphore.poll
  rw [if_neg h.not_closed]
  split
  · rename_i there
    obtain ⟨w, hw, mine⟩ := List.any_eq_true.1 there
    have mine : w.ticket = ticket := by simpa using mine
    obtain ⟨before, after, split⟩ := List.append_of_mem hw
    have whole : s.waiters = before ++ w :: (after ++ s.line) := by
      unfold waiters
      rw [split, List.append_assoc, List.cons_append]
    obtain ⟨earlier, later⟩ := h.distinct whole
    have others : s.served.filter (·.ticket != ticket) = before ++ after := by
      rw [split, List.filter_append, List.filter_cons_of_neg (by simp [mine]),
        List.filter_eq_self.2, List.filter_eq_self.2]
      · intro v hv
        simpa [mine] using later v (List.mem_append_left _ hv)
      · intro v hv
        simpa [mine] using earlier v hv
    have asked : ({ s with served := s.served.filter (·.ticket != ticket) } :
        Semaphore).requests = s.requests.filter (·.1 != ticket) := by
      have left : ({ s with served := s.served.filter (·.ticket != ticket) } :
          Semaphore).waiters = s.waiters.filter (·.ticket != ticket) := by
        unfold waiters
        dsimp only
        have line : s.line.filter (·.ticket != ticket) = s.line := by
          refine List.filter_eq_self.2 fun v hv => ?_
          simpa [mine] using later v (List.mem_append_right _ hv)
        rw [List.filter_append, line]
      unfold requests
      rw [left, List.filter_map]
      rfl
    refine .granted w hw mine _ ⟨h.opened, fun v hv => h.served v (List.mem_of_mem_filter hv),
      h.line, h.behind, h.busy, ?_, ?_⟩ ?_ asked
    · rw [asked]
      exact h.increasing.filter _
    · rw [asked]
      exact fun r hr => h.issued r (List.mem_of_mem_filter hr)
    · have full := h.served w hw
      unfold kept
      rw [whole]
      unfold waiters
      dsimp only
      rw [others]
      simp only [handed_append, handed_cons]
      omega
  · rename_i unserved
    refine .waiting fun w hw mine => unserved (List.any_eq_true.2 ⟨w, hw, ?_⟩)
    simpa using mine

/-! ## A call for all permits -/

/-- If one call has been given all permits that are not picked up, no other has been served. -/
theorem Orderly.alone (h : s.Orderly) {w : Waiter} (hw : w ∈ s.served) (all : s.kept ≤ w.need) :
    s.waiters = w :: s.line := by
  obtain ⟨before, after, split⟩ := List.append_of_mem hw
  have full := h.served w hw
  have sum : handed before + handed after = 0 := by
    have whole := all
    unfold kept waiters at whole
    rw [split] at whole
    simp only [handed_append, handed_cons] at whole
    omega
  -- whoever was served has something
  have something : ∀ v ∈ s.served, 0 < v.got := by
    intro v hv
    rw [h.served v hv]
    exact h.asks (List.mem_append_left _ hv)
  have nobody : ∀ {ws : List Waiter}, (∀ v ∈ ws, v ∈ s.served) → handed ws = 0 → ws = [] := by
    rintro (_ | ⟨v, ws⟩) sub none
    · rfl
    · have := something v (sub v List.mem_cons_self)
      rw [handed_cons] at none
      omega
  have none_before : before = [] :=
    nobody (fun v hv => by rw [split]; exact List.mem_append_left _ hv) (by omega)
  have none_after : after = [] :=
    nobody (fun v hv => by
      rw [split]
      exact List.mem_append_right _ (List.mem_cons_of_mem _ hv)) (by omega)
  unfold waiters
  rw [split, none_before, none_after]
  rfl

/-- While a call waits for all permits that are not picked up, it lacks some. -/
theorem Orderly.lacking (h : s.Orderly) {w : Waiter} {rest : List Waiter}
    (first : s.waiters = w :: rest) (unserved : w ∉ s.served) : s.kept < w.need := by
  rcases served : s.served with _ | ⟨v, vs⟩
  · unfold waiters at first
    rw [served, List.nil_append] at first
    have nothing : handed rest = 0 := by
      have behind := h.behind
      rw [first, List.tail_cons] at behind
      unfold handed
      rw [List.sum_eq_zero]
      intro got hg
      obtain ⟨v, hv, rfl⟩ := List.mem_map.1 hg
      exact behind v hv
    have lacks := h.line w (by rw [first]; exact List.mem_cons_self)
    have free := h.busy (by rw [first]; simp)
    unfold kept waiters
    rw [served, List.nil_append, first, handed_cons]
    omega
  · unfold waiters at first
    rw [served] at first unserved
    cases first
    exact absurd List.mem_cons_self unserved

/-- Nobody waits while all permits that are not picked up are free. -/
theorem Orderly.nobody (h : s.Orderly) (all : s.kept ≤ s.free) (pos : 0 < s.free) :
    s.waiters = [] := by
  have idle : s.line = [] := by
    by_contra busy
    have := h.busy busy
    omega
  rcases served : s.served with _ | ⟨v, vs⟩
  · unfold waiters
    rw [served, idle]
    rfl
  · have hv : v ∈ s.served := by
      rw [served]
      exact List.mem_cons_self
    have full := h.served v hv
    have asks := h.asks (List.mem_append_left s.line hv)
    have given : v.got ≤ handed s.waiters := got_le_handed (List.mem_append_left _ hv)
    unfold kept at all
    omega

end Semaphore

end JobAdmission
