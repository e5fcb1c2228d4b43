/-
How long a window is. After a number of failures it is the first window doubled for every failure
but the first, and at most the limit. That doubling stops at the longest span of time is not seen,
because the limit is no longer than that; nor is it seen whether the doubling ends as soon as the
limit is reached or goes on.
-/
import JobAdmission.Queue.Retry
import Mathlib.Tactic.Ring

namespace JobAdmission.RetryPolicy

/-! ## The closed form -/

theorem doubled_eq {limit : Nat} (short : limit ≤ maxSpan) (n window : Nat) :
    doubled limit n window = min (window * 2 ^ n) limit := by
  induction n generalizing window with
  | zero => simp [doubled]
  | succ n ih =>
    have grown : window * 2 ^ (n + 1) = 2 * window * 2 ^ n := by ring
    have at_least : 2 * window ≤ window * 2 ^ (n + 1) := by
      rw [grown]
      exact Nat.le_mul_of_pos_right _ (Nat.two_pow_pos n)
    unfold doubled
    dsimp only
    split
    · -- the limit is reached, and further doubling does not lead below it
      omega
    · split
      · -- only the window of no length stays as it is
        have zero : window = 0 := by omega
        simp [zero]
      · have below : min (2 * window) maxSpan = 2 * window := by omega
        rw [below, ih, grown]

/-- The window after a number of failures; none counts as one. -/
theorem window_eq {p : RetryPolicy} (short : p.limit ≤ maxSpan) (attempts : Nat) :
    p.window attempts = min (p.initial * 2 ^ (attempts - 1)) p.limit :=
  doubled_eq short (attempts - 1) p.initial

/-! ## Other ways to double -/

/-- A window doubled a number of times by the rule `double`, cut to the limit at the end, and, if
so chosen, as soon as the limit is reached. -/
def repeated (double : Nat → Nat) (early : Bool) (limit : Nat) : Nat → Nat → Nat
  | 0, window => min window limit
  | n + 1, window =>
    let next := double window
    if early ∧ limit ≤ next then limit else repeated double early limit n next

/-- A doubling that stops at the longest span of time. -/
def saturating (window : Nat) : Nat := min (2 * window) maxSpan

/-- A rule that doubles every window as far as the limit lets it be seen. -/
def DoublesUpTo (limit : Nat) (double : Nat → Nat) : Prop :=
  ∀ window, min (double window) limit = min (2 * window) limit

theorem doublesUpTo_exact (limit : Nat) : DoublesUpTo limit (2 * ·) := fun _ => rfl

theorem doublesUpTo_saturating {limit : Nat} (short : limit ≤ maxSpan) :
    DoublesUpTo limit saturating := by
  intro window
  unfold saturating
  omega

theorem repeated_eq {double : Nat → Nat} {limit : Nat} (doubles : DoublesUpTo limit double)
    (early : Bool) (n window : Nat) :
    repeated double early limit n window = min (window * 2 ^ n) limit := by
  induction n generalizing window with
  | zero => simp [repeated]
  | succ n ih =>
    have once := doubles window
    have grown : window * 2 ^ (n + 1) = 2 * window * 2 ^ n := by ring
    have at_least := Nat.le_mul_of_pos_right (2 * window) (Nat.two_pow_pos n)
    unfold repeated
    dsimp only
    split
    · rename_i reached
      omega
    · rw [ih, grown]
      rcases Nat.lt_or_ge (double window) limit with below | reached
      · have exact : double window = 2 * window := by omega
        rw [exact]
      · -- once the limit is reached, the rest of the doubling is cut off
        have rest := Nat.le_mul_of_pos_right (double window) (Nat.two_pow_pos n)
        omega

/-! ## Windows -/

/-- The window after a number of failures, exactly: it never exceeds the limit and never shrinks
with further failures, and it is the same whether doubling stops at the longest span of time or
does not, and whether it ends once the limit is reached or goes on. -/
theorem window_exact {p : RetryPolicy} (short : p.limit ≤ maxSpan) (attempts : Nat) :
    p.window attempts = min (p.initial * 2 ^ (max attempts 1 - 1)) p.limit ∧
      p.window attempts ≤ p.limit ∧
      (∀ more, attempts ≤ more → p.window attempts ≤ p.window more) ∧
      ∀ early, repeated saturating early p.limit (attempts - 1) p.initial = p.window attempts ∧
        repeated (2 * ·) early p.limit (attempts - 1) p.initial = p.window attempts := by
  have times : max attempts 1 - 1 = attempts - 1 := by omega
  rw [times, window_eq short]
  refine ⟨rfl, Nat.min_le_right _ _, fun more h => ?_, fun early => ⟨?_, ?_⟩⟩
  · rw [window_eq short]
    have fewer : 2 ^ (attempts - 1) ≤ 2 ^ (more - 1) :=
      Nat.pow_le_pow_right (by decide) (Nat.sub_le_sub_right h 1)
    have shorter := Nat.mul_le_mul_left p.initial fewer
    omega
  · exact repeated_eq (doublesUpTo_saturating short) early _ _
  · exact repeated_eq (doublesUpTo_exact p.limit) early _ _

/-- From a nanosecond up to the longest span of time, after the largest number of failures. -/
theorem window_exact_longest :
    maxSpan ≤ maxSpan ∧
      (⟨1, maxSpan⟩ : RetryPolicy).window Candidate.maxAttempts = maxSpan := by
  -- for any large number, so that the power is not worked out
  have reached : ∀ attempts, 95 ≤ attempts →
      (⟨1, maxSpan⟩ : RetryPolicy).window attempts = maxSpan := by
    intro attempts many
    obtain ⟨exact, -⟩ := window_exact (p := ⟨1, maxSpan⟩) (Nat.le_refl _) attempts
    have long : maxSpan ≤ 2 ^ 94 := by decide
    have grown : 2 ^ 94 ≤ 2 ^ (max attempts 1 - 1) := Nat.pow_le_pow_right (by decide) (by omega)
    rw [exact, Nat.one_mul]
    exact Nat.min_eq_right (long.trans grown)
  exact ⟨Nat.le_refl _, reached _ (by decide)⟩

end JobAdmission.RetryPolicy
