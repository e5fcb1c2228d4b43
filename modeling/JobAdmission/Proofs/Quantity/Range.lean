/-
Reading a quantity in signed 128-bit numbers. The number is worked out step by step; a step that is
guarded refuses the text when its result is out of range, and the others rely on their results
being in range. They are, whatever the text: so reading with unbounded numbers and one bound on the
largest of them says what the steps say.
-/
import JobAdmission.Proofs.Quantity.Numeral

namespace JobAdmission.Quantity

open Text

/-- Why reading stops. -/
inductive Halt where
  /-- The text is refused. -/
  | refused
  /-- A step that nothing guards has no result in the range. -/
  | fault
deriving DecidableEq, Repr

/-- A result under a condition without which the text is refused. -/
def onlyIf {α : Type} (p : Prop) [Decidable p] (a : α) : Except Halt α :=
  if p then .ok a else .error .refused

/-- The result of a step that is guarded. -/
def guarded (n : Int) : Except Halt Int := onlyIf (Fits n) n

/-- The result of a step that is not. -/
def unguarded (n : Int) : Except Halt Int := if Fits n then .ok n else .error .fault

/-- Digits as a number in the range, zero if there are none. -/
def readPlaces (cs : List Char) : Except Halt Int :=
  match readDigits (.pow 2 127) 0 cs with
  | .ok n => .ok n
  | .error _ => .error .refused

/-- What the digits in front of the point and behind it write, in units of the last place, times
the upper part of the suffix's factor and a thousand. -/
def joinUp (whole fraction scale num : Int) : Except Halt Int := do
  let shifted ← guarded (whole * scale)
  let joined ← guarded (shifted + fraction)
  let scaled ← guarded (joined * num)
  guarded (scaled * 1000)

/-- So many of the finest units in whole numbers of `parts` of them, rounded up. -/
def roundUp (finest parts : Int) : Except Halt Int :=
  if parts = 0 then .error .fault else do
    let quotient ← unguarded (finest.tdiv parts)
    if finest.tmod parts = 0 then .ok quotient else unguarded (quotient + 1)

/-- The milli-units that the digits of a text stand for under a suffix with the factor
`num / den`. -/
def Literal.milli (l : Literal) (num den : Nat) : Except Halt Int := do
  onlyIf (l.whole ≠ [] ∨ l.fraction ≠ []) ()
  onlyIf (l.fraction.length ≤ maxPlaces) ()
  let whole ← readPlaces l.whole
  let fraction ← readPlaces l.fraction
  let scale ← unguarded (10 ^ l.fraction.length)
  let finest ← joinUp whole fraction scale num
  let parts ← unguarded (scale * den)
  roundUp finest parts

def withSign (negative : Bool) (milli : Int) : Except Halt Quantity := do
  let signed ← if negative then unguarded (-milli) else .ok milli
  .ok ⟨signed⟩

/-- The quantity that a text stands for, or why there is none. -/
def workOut (text : String) : Except Halt Quantity :=
  match Literal.of? text with
  | none => .error .refused
  | some l =>
    match scales.lookup l.suffix with
    | none => .error .refused
    | some (num, den) => do
      let milli ← l.milli num den
      withSign l.negative milli

/-! ## Conditions in a row -/

section OnlyIf

variable {α β : Type} {p q : Prop} [Decidable p] [Decidable q]

theorem onlyIf_congr (h : p ↔ q) (a : α) : onlyIf p a = onlyIf q a := if_congr h rfl rfl

theorem onlyIf_bind {a : α} {b : β} {next : α → Except Halt β} (h : p → next a = onlyIf q b) :
    (onlyIf p a >>= next) = onlyIf (p ∧ q) b := by
  by_cases hp : p
  · rw [onlyIf_congr (and_iff_right hp), ← h hp]
    unfold onlyIf
    rw [if_pos hp]
    rfl
  · unfold onlyIf
    rw [if_neg hp, if_neg fun h => hp h.1]
    rfl

end OnlyIf

/-! ## Steps -/

theorem fits_natCast {n : ℕ} : Fits n ↔ (n : Int) ≤ maxMilli := by
  refine and_iff_right ?_
  unfold minMilli
  omega

theorem unguarded_of_fits {n : Int} (h : Fits n) : unguarded n = .ok n := if_pos h

theorem le_ofDigitChars (cs : List Char) (n : ℕ) : n ≤ Nat.ofDigitChars 10 cs n := by
  rw [Nat.ofDigitChars_eq_ofDigitChars_zero]
  have := Nat.le_mul_of_pos_left n (Nat.pow_pos (a := 10) (n := cs.length) (by decide))
  omega

/-- Digits are read as the number they write if it is below the limit; a larger number is found out
at the digit where it gets there. -/
theorem readDigits_eq_ok_iff (cs : List Char) {n limit : ℕ} (hn : n < limit) (m : ℕ) :
    readDigits limit n cs = .ok m ↔
      (∀ c ∈ cs, c.isDigit = true) ∧ m < limit ∧ Nat.ofDigitChars 10 cs n = m := by
  induction cs generalizing n with
  | nil =>
    unfold readDigits
    simp only [List.not_mem_nil, false_implies, implies_true, true_and, Nat.ofDigitChars_nil,
      Except.ok.injEq]
    exact ⟨fun h => ⟨h ▸ hn, h⟩, fun h => h.2⟩
  | cons c rest ih =>
    unfold readDigits
    rw [digit?_eq, Nat.ofDigitChars_cons, List.forall_mem_cons]
    by_cases digit : c.isDigit = true
    · rw [if_pos digit, Nat.mul_comm 10 n, and_iff_right digit]
      dsimp only
      split
      · rename_i below
        exact ih below
      · rename_i above
        have := le_ofDigitChars rest (n * 10 + (c.toNat - '0'.toNat))
        refine iff_of_false (fun h => nomatch h) ?_
        rintro ⟨-, below, rfl⟩
        omega
    · rw [if_neg digit]
      exact iff_of_false (fun h => nomatch h) fun h => digit h.1.1

theorem readPlaces_eq (cs : List Char) : readPlaces cs =
    onlyIf ((∀ c ∈ cs, c.isDigit = true) ∧ Fits (Nat.ofDigitChars 10 cs 0 : ℕ))
      (Nat.ofDigitChars 10 cs 0 : Int) := by
  have limit : ∀ m : ℕ, m < 2 ^ 127 ↔ Fits m := by
    intro m
    rw [fits_natCast]
    unfold maxMilli
    omega
  have read := readDigits_eq_ok_iff cs (show 0 < 2 ^ 127 by decide)
  unfold readPlaces onlyIf
  show (match readDigits (2 ^ 127) 0 cs with | .ok n => _ | .error _ => _) = _
  rcases e : readDigits (2 ^ 127) 0 cs with fault | m
  · rw [if_neg]
    rintro ⟨digits, fits⟩
    have := (read _).2 ⟨digits, (limit _).2 fits, rfl⟩
    rw [e] at this
    cases this
  · obtain ⟨digits, below, rfl⟩ := (read m).1 e
    rw [if_pos ⟨digits, (limit _).1 below⟩]

/-- The last guarded result is the largest, so it alone decides. -/
theorem joinUp_natCast (whole fraction scale : ℕ) {num : ℕ} (hn : 0 < num) :
    joinUp whole fraction scale num =
      onlyIf (Fits ((whole * scale + fraction) * num * 1000 : ℕ))
        (((whole * scale + fraction) * num * 1000 : ℕ) : Int) := by
  have joined_le : whole * scale + fraction ≤ (whole * scale + fraction) * num :=
    Nat.le_mul_of_pos_right _ hn
  have steps : joinUp whole fraction scale num =
      onlyIf (Fits (whole * scale : ℕ) ∧ Fits (whole * scale + fraction : ℕ) ∧
          Fits ((whole * scale + fraction) * num : ℕ) ∧
          Fits ((whole * scale + fraction) * num * 1000 : ℕ))
        (((whole * scale + fraction) * num * 1000 : ℕ) : Int) := by
    unfold joinUp guarded
    push_cast
    exact onlyIf_bind fun _ => onlyIf_bind fun _ => onlyIf_bind fun _ => rfl
  rw [steps]
  refine onlyIf_congr ?_ _
  simp only [fits_natCast]
  omega

/-- A division with a rest is rounded up to the next number. -/
theorem ceilDiv_eq_div (a : ℕ) {d : ℕ} (hd : 0 < d) :
    ceilDiv a d = if a % d = 0 then a / d else a / d + 1 := by
  unfold ceilDiv
  split
  · rename_i h
    obtain ⟨k, rfl⟩ := Nat.dvd_of_mod_eq_zero h
    rw [Nat.mul_div_cancel_left k hd, Nat.add_sub_assoc hd, Nat.mul_add_div hd,
      Nat.div_eq_of_lt (by omega), Nat.add_zero]
  · rename_i h
    have hpos : 0 < a % d := Nat.pos_of_ne_zero h
    have hlt := Nat.mod_lt a hd
    have whole : a + d - 1 = d * (a / d + 1) + (a % d - 1) := by
      have whole := Nat.div_add_mod a d
      rw [Nat.mul_add, Nat.mul_one]
      omega
    have none_left : (a % d - 1) / d = 0 := Nat.div_eq_of_lt (by omega)
    rw [whole, Nat.mul_add_div hd, none_left, Nat.add_zero]

theorem ceilDiv_le (a : ℕ) {d : ℕ} (hd : 0 < d) : ceilDiv a d ≤ a := by
  rw [ceilDiv_eq_div a hd]
  split
  · exact Nat.div_le_self a d
  · rename_i h
    -- a number with a rest is positive and is divided by more than one
    have several : d ≠ 1 := by
      rintro rfl
      exact h (Nat.mod_one a)
    have positive : a ≠ 0 := by
      rintro rfl
      exact h (Nat.zero_mod d)
    exact Nat.div_lt_self (Nat.pos_of_ne_zero positive) (by omega)

theorem roundUp_natCast {finest parts : ℕ} (hp : 0 < parts) (fits : Fits finest) :
    roundUp finest parts = .ok (ceilDiv finest parts : Int) := by
  have below := fits_natCast.1 fits
  have small := Nat.div_le_self finest parts
  have least := ceilDiv_le finest hp
  have quotient : unguarded ((finest : Int).tdiv parts) = .ok ((finest / parts : ℕ) : Int) :=
    unguarded_of_fits (fits_natCast.2 (by omega))
  have rest : (finest : Int).tmod parts = ((finest % parts : ℕ) : Int) := rfl
  rw [ceilDiv_eq_div finest hp] at least ⊢
  unfold roundUp
  rw [if_neg (by omega), quotient, rest]
  dsimp only [bind, Except.bind]
  by_cases exact : finest % parts = 0
  · rw [if_pos (by omega), if_pos exact]
  · rw [if_neg exact] at least
    rw [if_neg (by omega), if_neg exact]
    exact unguarded_of_fits (n := (finest / parts + 1 : ℕ)) (fits_natCast.2 (by omega))

theorem withSign_natCast (negative : Bool) {m : ℕ} (fits : Fits m) :
    withSign negative m = .ok ⟨(if negative then -1 else 1) * (m : Int)⟩ := by
  unfold withSign
  cases negative with
  | false =>
    rw [if_neg Bool.false_ne_true, if_neg Bool.false_ne_true, Int.one_mul]
    rfl
  | true =>
    have opposite : Fits (-(m : Int)) := by
      unfold Fits minMilli maxMilli at *
      omega
    rw [if_pos rfl, if_pos rfl, unguarded_of_fits opposite, Int.neg_mul, Int.one_mul]
    rfl

/-! ## Texts -/

theorem Literal.milli_eq (l : Literal) {num den : ℕ} (hn : 0 < num) (hd : 0 < den)
    (hd' : den ≤ 1000) :
    l.milli num den =
      let finest := (Nat.ofDigitChars 10 l.whole 0 * 10 ^ l.fraction.length +
        Nat.ofDigitChars 10 l.fraction 0) * num * 1000
      onlyIf (((l.whole ≠ [] ∨ l.fraction ≠ []) ∧ l.fraction.length ≤ maxPlaces) ∧
          ((∀ c ∈ l.whole, c.isDigit = true) ∧ ∀ c ∈ l.fraction, c.isDigit = true) ∧
            (finest : Int) ≤ maxMilli)
        (ceilDiv finest (10 ^ l.fraction.length * den) : Int) := by
  dsimp only
  generalize hw : Nat.ofDigitChars 10 l.whole 0 = whole
  generalize hf : Nat.ofDigitChars 10 l.fraction 0 = fraction
  generalize hs : 10 ^ l.fraction.length = scale
  generalize he : (whole * scale + fraction) * num * 1000 = finest
  have scale_pos : 0 < scale := hs ▸ Nat.pow_pos (by decide)
  have steps : l.milli num den =
      onlyIf ((l.whole ≠ [] ∨ l.fraction ≠ []) ∧ l.fraction.length ≤ maxPlaces ∧
          ((∀ c ∈ l.whole, c.isDigit = true) ∧ Fits whole) ∧
          ((∀ c ∈ l.fraction, c.isDigit = true) ∧ Fits fraction) ∧ Fits finest ∧ True)
        (ceilDiv finest (scale * den) : Int) := by
    unfold Literal.milli
    refine onlyIf_bind fun _ => onlyIf_bind fun places => ?_
    rw [readPlaces_eq, readPlaces_eq, hw, hf]
    refine onlyIf_bind fun _ => onlyIf_bind fun _ => ?_
    -- what the places and the suffix divide by is far from the ends of the range
    have scale_le : scale ≤ 10 ^ 18 := hs ▸ Nat.pow_le_pow_right (by decide) places
    have parts_le : scale * den ≤ 10 ^ 18 * 1000 := Nat.mul_le_mul scale_le hd'
    have parts_pos : 0 < scale * den := Nat.mul_pos scale_pos hd
    have scale_fits : Fits scale := fits_natCast.2 (by unfold maxMilli; omega)
    have parts_fits : Fits (scale * den : ℕ) := fits_natCast.2 (by unfold maxMilli; omega)
    have power : (10 ^ l.fraction.length : Int) = scale := by exact_mod_cast hs
    rw [power, unguarded_of_fits scale_fits]
    dsimp only [bind, Except.bind]
    rw [joinUp_natCast _ _ _ hn, he, ← Int.natCast_mul, unguarded_of_fits parts_fits]
    exact onlyIf_bind fun fits => roundUp_natCast parts_pos fits
  rw [steps]
  refine onlyIf_congr ?_ _
  -- the numbers that are read are no larger than what is made of them
  have whole_le : whole ≤ whole * scale := Nat.le_mul_of_pos_right _ scale_pos
  have joined_le : whole * scale + fraction ≤ (whole * scale + fraction) * num :=
    Nat.le_mul_of_pos_right _ hn
  simp only [fits_natCast, and_true]
  constructor
  · rintro ⟨digit, places, ⟨dw, -⟩, ⟨df, -⟩, fits⟩
    exact ⟨⟨digit, places⟩, ⟨dw, df⟩, fits⟩
  · rintro ⟨⟨digit, places⟩, ⟨dw, df⟩, fits⟩
    exact ⟨digit, places, ⟨dw, by omega⟩, ⟨df, by omega⟩, fits⟩

/-- What working a text out in steps ends with is what reading it ends with; so no step faults. -/
theorem workOut_eq (text : String) : workOut text =
    match parse? text with
    | some q => .ok q
    | none => .error .refused := by
  unfold workOut parse?
  rcases Literal.of? text with _ | l
  · rfl
  rw [Option.bind_some, Literal.value?_eq]
  dsimp only
  rcases known : scales.lookup l.suffix with _ | ⟨num, den⟩
  · rfl
  obtain ⟨hn, hd, hd'⟩ : 0 < num ∧ 0 < den ∧ den ≤ 1000 := by
    obtain ⟨s, hs⟩ := Suffix.exists_of_lookup known
    rw [← hs, s.lookup_text] at known
    cases known
    exact ⟨s.numerator_pos, s.denominator_pos, s.denominator_le⟩
  rw [Option.bind_some]
  dsimp only
  rw [l.milli_eq hn hd hd']
  dsimp only
  unfold onlyIf
  split
  · rename_i good
    have parts_pos : 0 < 10 ^ l.fraction.length * den := Nat.mul_pos (Nat.pow_pos (by decide)) hd
    exact withSign_natCast l.negative
      (fits_natCast.2 ((Int.ofNat_le.2 (ceilDiv_le _ parts_pos)).trans good.2.2))
  · rfl

/-- A text is a quantity exactly if it writes a numeral that is small enough, and then it is the
numeral's value in thousandths, rounded away from zero. In signed 128-bit numbers no step on the way
to it, or to the refusal, is out of range unnoticed. -/
theorem parse_eq_ok_iff_writes (text : String) :
    (∀ q, parse text = .ok q ↔ ∃ n : Numeral, n.Writes text ∧ (n.finest : Int) ≤ maxMilli ∧
      q.milli = n.sign.factor * ⌈n.amount * 1000⌉) ∧
    workOut text =
      match parse text with
      | .ok q => .ok q
      | .error _ => .error .refused := by
  have ok_iff : ∀ q, parse text = .ok q ↔ parse? text = some q := by
    intro q
    unfold parse
    rcases parse? text with _ | q' <;> simp
  constructor
  · intro q
    rw [ok_iff]
    constructor
    · intro h
      obtain ⟨n, writes⟩ := exists_writes_of_parse? h
      rw [n.parse?_of_writes writes] at h
      split at h
      · rename_i fits
        cases h
        exact ⟨n, writes, fits, rfl⟩
      · cases h
    · rintro ⟨n, writes, fits, milli⟩
      rw [n.parse?_of_writes writes, if_pos fits]
      exact congrArg some (by cases q; cases milli; rfl)
  · rw [workOut_eq]
    unfold parse
    rcases parse? text with _ | q <;> rfl

end JobAdmission.Quantity
