/-
Runs: a state that a list of steps takes from one to the next, oldest first. What holds all along a
run is shown at its start and step by step, and so is what a run needs to keep to it.
-/
import Mathlib.Data.List.Induction

namespace JobAdmission

variable {S A : Type} {f : S → A → S} {b : S} {steps : List A}

/-- A step of a run is the first, or one of those after it. -/
theorem concat_prefix_cons {done rest : List A} {a c : A} :
    done ++ [c] <+: a :: rest ↔
      done = [] ∧ c = a ∨ ∃ later, done = a :: later ∧ later ++ [c] <+: rest := by
  cases done with
  | nil => simp
  | cons x done =>
    rw [List.cons_append, List.cons_prefix_cons]
    simp

/-- A step of a run that is one step longer is the last, or one of those before it. -/
theorem concat_eq_append_cons {before later : List A} {a c : A} :
    steps ++ [a] = before ++ c :: later ↔
      later = [] ∧ before = steps ∧ c = a ∨
        ∃ rest, later = rest ++ [a] ∧ steps = before ++ c :: rest := by
  constructor
  · intro whole
    rcases List.eq_nil_or_concat later with rfl | ⟨rest, last, rfl⟩
    · obtain ⟨same, last⟩ := List.append_inj' whole rfl
      exact .inl ⟨rfl, same.symm, (List.singleton_inj.1 last).symm⟩
    · rw [List.concat_eq_append, ← List.cons_append, ← List.append_assoc] at whole
      obtain ⟨same, last⟩ := List.append_inj' whole rfl
      exact .inr ⟨rest, by rw [List.concat_eq_append, List.singleton_inj.1 last], same⟩
  · rintro (⟨rfl, rfl, rfl⟩ | ⟨rest, rfl, rfl⟩)
    · rfl
    · simp

/-- What holds at the start and is kept by each step of a run holds all along the run. -/
theorem holds_along {P : S → Prop} (start : P b)
    (next : ∀ done a, done ++ [a] <+: steps → P (done.foldl f b) → P (f (done.foldl f b) a)) :
    ∀ done, done <+: steps → P (done.foldl f b) := by
  intro done
  -- from the end: a run is continued by its last step
  induction done using List.reverseRecOn with
  | nil => intro _; exact start
  | append_singleton done a ih =>
    intro hp
    rw [List.foldl_append]
    exact next done a hp (ih ((List.prefix_append done [a]).trans hp))

/-- A run is good all along exactly if each of its steps is in order, where from sound states the
steps in order are those that lead to good states, and these are sound. -/
theorem good_along_iff {P Q : S → Prop} {R : S → A → Prop} (start : P b) (good : ∀ s, P s → Q s)
    (keep : ∀ done a, done ++ [a] <+: steps → P (done.foldl f b) →
      Q (f (done.foldl f b) a) → P (f (done.foldl f b) a))
    (step : ∀ done a, done ++ [a] <+: steps → P (done.foldl f b) →
      (Q (f (done.foldl f b) a) ↔ R (done.foldl f b) a)) :
    (∀ done, done <+: steps → Q (done.foldl f b)) ↔
      ∀ done a, done ++ [a] <+: steps → R (done.foldl f b) a := by
  constructor
  · intro all
    have after : ∀ done a, done ++ [a] <+: steps → Q (f (done.foldl f b) a) := by
      intro done a hp
      have := all _ hp
      rwa [List.foldl_append] at this
    -- a step leads to a sound state because the state it leads to is known to be good
    have sound := holds_along start fun done a hp h => keep done a hp h (after done a hp)
    intro done a hp
    exact (step done a hp (sound done ((List.prefix_append done [a]).trans hp))).1 (after done a hp)
  · intro ok
    have sound := holds_along start fun done a hp h =>
      keep done a hp h ((step done a hp h).2 (ok done a hp))
    exact fun done hp => good _ (sound done hp)

end JobAdmission
