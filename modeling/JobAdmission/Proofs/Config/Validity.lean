/-
Valid configurations: no time is zero, the longest window is no shorter than the first, something is
enabled, and every queue has a name of its own.
-/
import JobAdmission.Config.Basic
import Mathlib.Tactic.Common

namespace JobAdmission

theorem bind_eq_ok_iff {ε α β : Type} {x : Except ε α} {f : α → Except ε β} {b : β} :
    x >>= f = .ok b ↔ ∃ a, x = .ok a ∧ f a = .ok b := by
  cases x with
  | error e => exact iff_of_false (fun h => nomatch h) fun ⟨_, h, _⟩ => nomatch h
  | ok a => exact ⟨fun h => ⟨a, rfl, h⟩, fun ⟨_, h, h'⟩ => by cases h; exact h'⟩

namespace Config

/-- The names of queues are valid beside those that came before exactly if none is empty or used
twice. -/
theorem validateQueues_eq_ok_iff {seen : List String} {queues : List QueueDef} :
    validateQueues seen queues = .ok () ↔
      (∀ q ∈ queues, q.name ≠ "" ∧ q.name ∉ seen) ∧ (queues.map (·.name)).Nodup := by
  induction queues generalizing seen with
  | nil => simp [validateQueues]
  | cons q rest ih =>
    unfold validateQueues
    rw [List.forall_mem_cons, List.map_cons, List.nodup_cons]
    split
    · rename_i empty
      refine iff_of_false (fun h => nomatch h) fun h => h.1.1.1 ?_
      simpa using empty
    · rename_i named
      split
      · rename_i known
        refine iff_of_false (fun h => nomatch h) fun h => h.1.1.2 ?_
        simpa using known
      · rename_i unknown
        rw [ih]
        have named : q.name ≠ "" := by simpa using named
        have unknown : q.name ∉ seen := by simpa using unknown
        have apart : (∀ r ∈ rest, r.name ∉ q.name :: seen) ↔
            (∀ r ∈ rest, r.name ∉ seen) ∧ q.name ∉ rest.map (·.name) := by
          rw [List.mem_map, not_exists, ← forall_and]
          refine forall_congr' fun r => ?_
          rw [List.mem_cons, not_or]
          tauto
        constructor
        · rintro ⟨each, nodup⟩
          obtain ⟨fresh, other⟩ := apart.1 fun r hr => (each r hr).2
          exact ⟨⟨⟨named, unknown⟩, fun r hr => ⟨(each r hr).1, fresh r hr⟩⟩, other, nodup⟩
        · rintro ⟨⟨-, each⟩, other, nodup⟩
          have fresh := apart.2 ⟨fun r hr => (each r hr).2, other⟩
          exact ⟨fun r hr => ⟨(each r hr).1, fresh r hr⟩, nodup⟩

/-- What makes a configuration usable. -/
structure Valid (c : Config) : Prop where
  initialBackoff : c.initialBackoff ≠ 0
  maxBackoff : c.initialBackoff ≤ c.maxBackoff
  flushInterval : c.flushInterval ≠ 0
  idleInterval : c.idleInterval ≠ 0
  maxInflight : c.maxInflight ≠ some 0
  plugins : c.plugins ≠ []
  defaultPolicy : c.defaultPolicy ≠ ""
  named : ∀ q ∈ c.queues, q.name ≠ ""
  distinct : (c.queues.map (·.name)).Nodup

/-- A check that must not fail, and what is checked after it. -/
theorem guard_eq_ok_iff {p : Prop} [Decidable p] {fault : ConfigFault}
    {rest : Except ConfigFault Unit} :
    (if p then .error fault else rest) = .ok () ↔ ¬ p ∧ rest = .ok () := by
  split
  · rename_i h
    exact iff_of_false (fun h => nomatch h) fun h' => h'.1 h
  · rename_i h
    exact (and_iff_right h).symm

theorem validate_eq_ok_iff {c : Config} : c.validate = .ok () ↔ c.Valid := by
  unfold validate
  simp only [guard_eq_ok_iff, validateQueues_eq_ok_iff]
  constructor
  · rintro ⟨initial, max, flush, idle, inflight, plugins, policy, queues, distinct⟩
    exact ⟨initial, UInt64.not_lt.1 max, flush, idle, inflight, by simpa using plugins,
      by simpa using policy, fun q hq => (queues q hq).1, distinct⟩
  · intro h
    exact ⟨h.initialBackoff, UInt64.not_lt.2 h.maxBackoff, h.flushInterval, h.idleInterval,
      h.maxInflight, by simpa using h.plugins, by simpa using h.defaultPolicy,
      fun q hq => ⟨h.named q hq, List.not_mem_nil⟩, h.distinct⟩

end Config

end JobAdmission
