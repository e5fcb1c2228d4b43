/-
Which texts are quantities. A numeral is an optional sign, a decimal number and a suffix, and
stands for a rational number of units. A text is read exactly if it shows a numeral, with white
space around it or none, that is small enough; it is read as that number in thousandths, rounded
away from zero.
-/
import JobAdmission.Quantity.Text
import Mathlib

namespace JobAdmission

/-! ## White space and digits -/

namespace Text

/-- White space around a text without any is what trimming takes off. -/
theorem trim_enclosed {before cs after : List Char} (hb : ∀ c ∈ before, isBlank c = true)
    (hc : ∀ c ∈ cs, isBlank c = false) (ha : ∀ c ∈ after, isBlank c = true) :
    trim (before ++ cs ++ after) = cs := by
  have inner : ∀ ds : List Char, (∀ c ∈ ds, isBlank c = false) → ds.dropWhile isBlank = ds := by
    intro ds hd
    cases ds with
    | nil => rfl
    | cons d rest => rw [List.dropWhile_cons_of_neg (by simp [hd d])]
  have front : (before ++ cs ++ after).dropWhile isBlank =
      if cs = [] then [] else cs ++ after := by
    rw [List.append_assoc, List.dropWhile_append_of_pos hb]
    split
    · rename_i h
      rw [h, List.nil_append, List.dropWhile_eq_nil_iff]
      exact ha
    · rename_i h
      obtain ⟨c, rest, rfl⟩ := List.exists_cons_of_ne_nil h
      rw [List.cons_append, List.dropWhile_cons_of_neg (by simp [hc c])]
  unfold trim
  rw [front]
  split
  · rename_i h
    rw [h]
    rfl
  · rw [List.reverse_append, List.dropWhile_append_of_pos (by simpa using ha),
      inner _ (by simpa using hc), List.reverse_reverse]

/-- What trimming takes off is white space at both ends. -/
theorem exists_enclosing (cs : List Char) : ∃ before after : List Char,
    (∀ c ∈ before, isBlank c = true) ∧ (∀ c ∈ after, isBlank c = true) ∧
      cs = before ++ trim cs ++ after := by
  refine ⟨cs.takeWhile isBlank, ((cs.dropWhile isBlank).reverse.takeWhile isBlank).reverse,
    fun c hc => List.mem_takeWhile_imp hc,
    fun c hc => List.mem_takeWhile_imp (List.mem_reverse.1 hc), ?_⟩
  unfold trim
  rw [List.append_assoc, ← List.reverse_append, List.takeWhile_append_dropWhile,
    List.reverse_reverse, List.takeWhile_append_dropWhile]

theorem digit?_eq (c : Char) :
    digit? c = if c.isDigit = true then some (c.toNat - '0'.toNat) else none := by
  have same : ('0' ≤ c ∧ c ≤ '9') ↔ c.isDigit = true := by
    rw [Char.isDigit_iff_toNat]
    rfl
  unfold digit?
  simp only [same]

/-- Digits read one after the other write their number in base ten. -/
theorem foldlM_digits (cs : List Char) (n : Nat) :
    cs.foldlM (fun n c => (digit? c).map (n * 10 + ·)) n =
      if ∀ c ∈ cs, c.isDigit = true then some (Nat.ofDigitChars 10 cs n) else none := by
  induction cs generalizing n with
  | nil => simp
  | cons c rest ih =>
    rw [List.foldlM_cons, digit?_eq]
    by_cases h : c.isDigit = true
    · rw [if_pos h, Option.map_some, Option.bind_eq_bind, Option.bind_some, ih,
        Nat.ofDigitChars_cons, Nat.mul_comm n 10]
      simp only [List.forall_mem_cons, h, true_and]
    · rw [if_neg h, if_neg fun all => h (all c List.mem_cons_self)]
      rfl

end Text

namespace Quantity

open Text

theorem placesValue?_eq (cs : List Char) :
    placesValue? cs =
      if ∀ c ∈ cs, c.isDigit = true then some (Nat.ofDigitChars 10 cs 0) else none := by
  rw [← foldlM_digits]
  cases cs <;> rfl

theorem ceilDiv_eq_ceil (a : ℕ) {d : ℕ} (hd : 0 < d) : (ceilDiv a d : ℤ) = ⌈(a : ℚ) / d⌉ := by
  have quotient : d * ceilDiv a d + (a + d - 1) % d = a + d - 1 := Nat.div_add_mod _ _
  have rest : (a + d - 1) % d < d := Nat.mod_lt _ hd
  generalize ceilDiv a d = k at quotient ⊢
  have positive : (0 : ℚ) < d := by exact_mod_cast hd
  symm
  rw [Int.ceil_eq_iff, lt_div_iff₀ positive, div_le_iff₀ positive]
  constructor
  · have below : d * k < a + d := by omega
    have : (d * k : ℚ) < a + d := by exact_mod_cast below
    push_cast
    linarith
  · have above : a ≤ d * k := by omega
    have : (a : ℚ) ≤ d * k := by exact_mod_cast above
    push_cast
    linarith

/-- A text written in the parts `l` is a quantity if the suffix is known and the parts are digits
that write a number which fits. -/
theorem Literal.value?_eq (l : Literal) : l.value? =
    (scales.lookup l.suffix).bind fun scale =>
      let finest := (Nat.ofDigitChars 10 l.whole 0 * 10 ^ l.fraction.length +
        Nat.ofDigitChars 10 l.fraction 0) * scale.1 * 1000
      if ((l.whole ≠ [] ∨ l.fraction ≠ []) ∧ l.fraction.length ≤ maxPlaces) ∧
          ((∀ c ∈ l.whole, c.isDigit = true) ∧ ∀ c ∈ l.fraction, c.isDigit = true) ∧
            (finest : Int) ≤ maxMilli then
        some ⟨(if l.negative then -1 else 1) *
          (ceilDiv finest (10 ^ l.fraction.length * scale.2) : Int)⟩
      else none := by
  unfold Literal.value?
  rw [placesValue?_eq, placesValue?_eq]
  rcases scales.lookup l.suffix with _ | ⟨num, den⟩
  · rfl
  have digit : ((l.whole.isEmpty && l.fraction.isEmpty) = true) ↔
      ¬ (l.whole ≠ [] ∨ l.fraction ≠ []) := by
    rw [Bool.and_eq_true, List.isEmpty_iff, List.isEmpty_iff, not_or, not_not, not_not]
  simp only [Option.bind_eq_bind, Option.bind_some, Option.bind_none, digit]
  by_cases some_digit : l.whole ≠ [] ∨ l.fraction ≠ []
  · by_cases places : l.fraction.length ≤ maxPlaces
    · simp only [some_digit, places, not_true_eq_false, gt_iff_lt, Nat.not_lt.2 places, true_and,
        if_false]
      by_cases whole : ∀ c ∈ l.whole, c.isDigit = true
      · by_cases fraction : ∀ c ∈ l.fraction, c.isDigit = true
        · simp only [if_pos whole, if_pos fraction, Option.bind_some]
          have digits : (∀ c ∈ l.whole, c.isDigit = true) ∧ ∀ c ∈ l.fraction, c.isDigit = true :=
            ⟨whole, fraction⟩
          rw [if_congr (and_iff_right digits) rfl rfl, ← ite_not]
          simp only [Int.not_lt]
          cases l.negative <;> simp only [Bool.false_eq_true, if_true, if_false, Int.one_mul,
            Int.neg_mul] <;> rfl
        · simp only [if_pos whole, Option.bind_some, Option.bind_none, fraction, and_false,
            false_and, if_false]
      · simp only [Option.bind_none, whole, false_and, if_false]
    · simp only [some_digit, places, Nat.not_le.1 places, not_true_eq_false, gt_iff_lt, and_false,
        false_and, if_false, if_true]
  · simp only [some_digit, not_false_eq_true, false_and, if_true, if_false]

/-! ## Numerals -/

/-- The sign in front of a numeral, if there is one. -/
inductive Sign where
  | absent
  | plus
  | minus
deriving DecidableEq, Repr

def Sign.text : Sign → List Char
  | absent => []
  | plus => ['+']
  | minus => ['-']

theorem Sign.not_isBlank (s : Sign) : ∀ c ∈ s.text, isBlank c = false := by
  have all : (s.text.all fun c => !isBlank c) = true := by cases s <;> rfl
  simpa using all

def Sign.factor : Sign → Int
  | minus => -1
  | _ => 1

/-- The suffix of a numeral. -/
inductive Suffix where
  | one
  | milli
  | kilo | mega | giga | tera | peta | exa
  | kibi | mebi | gibi | tebi | pebi | exbi
deriving DecidableEq, Repr

namespace Suffix

def text : Suffix → List Char
  | one => []
  | milli => ['m']
  | kilo => ['k']
  | mega => ['M']
  | giga => ['G']
  | tera => ['T']
  | peta => ['P']
  | exa => ['E']
  | kibi => ['K', 'i']
  | mebi => ['M', 'i']
  | gibi => ['G', 'i']
  | tebi => ['T', 'i']
  | pebi => ['P', 'i']
  | exbi => ['E', 'i']

/-- The factor of a suffix, above the fraction line. -/
def numerator : Suffix → Nat
  | one | milli => 1
  | kilo => 1000 ^ 1
  | mega => 1000 ^ 2
  | giga => 1000 ^ 3
  | tera => 1000 ^ 4
  | peta => 1000 ^ 5
  | exa => 1000 ^ 6
  | kibi => 1024 ^ 1
  | mebi => 1024 ^ 2
  | gibi => 1024 ^ 3
  | tebi => 1024 ^ 4
  | pebi => 1024 ^ 5
  | exbi => 1024 ^ 6

/-- The factor of a suffix, below the fraction line. -/
def denominator : Suffix → Nat
  | milli => 1000
  | _ => 1

theorem numerator_pos (s : Suffix) : 0 < s.numerator := by
  cases s <;> decide

theorem denominator_pos (s : Suffix) : 0 < s.denominator := by
  cases s <;> decide

theorem denominator_le (s : Suffix) : s.denominator ≤ 1000 := by
  cases s <;> decide

theorem not_isBlank (s : Suffix) : ∀ c ∈ s.text, isBlank c = false := by
  have all : (s.text.all fun c => !isBlank c) = true := by cases s <;> rfl
  simpa using all

theorem lookup_text (s : Suffix) :
    scales.lookup s.text = some (s.numerator, s.denominator) := by
  cases s <;> decide

/-- There are no other suffixes. -/
theorem exists_of_lookup {cs : List Char} {scale : Nat × Nat} (h : scales.lookup cs = some scale) :
    ∃ s : Suffix, s.text = cs := by
  have known : cs ∈ scales.map (·.1) := by
    rw [List.lookup_eq_some_iff] at h
    obtain ⟨front, back, e, -⟩ := h
    rw [e]
    simp
  have named : ∀ cs ∈ scales.map (·.1), ∃ s : Suffix, s.text = cs := by
    simp only [scales, List.map_cons, List.map_nil, List.forall_mem_cons, List.not_mem_nil,
      false_implies, implies_true, and_true]
    exact ⟨⟨one, rfl⟩, ⟨milli, rfl⟩, ⟨kilo, rfl⟩, ⟨mega, rfl⟩, ⟨giga, rfl⟩, ⟨tera, rfl⟩,
      ⟨peta, rfl⟩, ⟨exa, rfl⟩, ⟨kibi, rfl⟩, ⟨mebi, rfl⟩, ⟨gibi, rfl⟩, ⟨tebi, rfl⟩, ⟨pebi, rfl⟩,
      ⟨exbi, rfl⟩⟩
  exact named cs known

end Suffix

/-- A written number: a sign or none, digits with a point or none, and a suffix. -/
structure Numeral where
  sign : Sign
  /-- The digits in front of the point. -/
  whole : List Char
  /-- The digits behind the point, if there is a point. -/
  point : Option (List Char)
  suffix : Suffix
  whole_digits : ∀ c ∈ whole, c.isDigit = true
  fraction_digits : ∀ c ∈ point.getD [], c.isDigit = true
  some_digit : whole ≠ [] ∨ point.getD [] ≠ []
  few_places : (point.getD []).length ≤ 18

namespace Numeral

variable (n : Numeral)

def fraction : List Char := n.point.getD []

/-- What stands between the sign and the suffix. -/
def digits : List Char := n.whole ++ n.point.elim [] ('.' :: ·)

def text : List Char := n.sign.text ++ n.digits ++ n.suffix.text

/-- A text that consists of the numeral, with white space around it or none. -/
def Writes (text : String) : Prop := ∃ before after : List Char,
  (∀ c ∈ before, isBlank c = true) ∧ (∀ c ∈ after, isBlank c = true) ∧
    text.toList = before ++ n.text ++ after

/-- The number of units without the sign. -/
def amount : ℚ :=
  (Nat.ofDigitChars 10 n.whole 0 + Nat.ofDigitChars 10 n.fraction 0 / 10 ^ n.fraction.length) *
    (n.suffix.numerator / n.suffix.denominator)

/-- A thousand times what the digits write, in units of the last place, under the suffix. It must
be a quantity for the numeral to be read. -/
def finest : ℕ :=
  (Nat.ofDigitChars 10 n.whole 0 * 10 ^ n.fraction.length + Nat.ofDigitChars 10 n.fraction 0) *
    n.suffix.numerator * 1000

/-- The quantity that the numeral stands for, rounded away from zero. -/
def quantity : Quantity := ⟨n.sign.factor * ⌈n.amount * 1000⌉⟩

/-! ## Reading what a numeral writes -/

/-- The parts of the numeral. -/
def literal : Literal where
  negative := n.sign == .minus
  whole := n.whole
  fraction := n.fraction
  suffix := n.suffix.text

variable {n}

theorem digits_isNumberChar : ∀ c ∈ n.digits, isNumberChar c = true := by
  have digit : ∀ c : Char, c.isDigit = true → isNumberChar c = true := by
    intro c h
    unfold isNumberChar
    rw [digit?_eq, if_pos h]
    rfl
  intro c hc
  rcases List.mem_append.1 hc with hw | hf
  · exact digit c (n.whole_digits c hw)
  · have hd := n.fraction_digits
    rcases e : n.point with _ | ds <;> rw [e] at hf hd
    · cases hf
    · rcases List.mem_cons.1 hf with rfl | hf
      · rfl
      · exact digit c (hd c hf)

/-- A character of a number is neither a sign nor white space. -/
theorem not_sign_of_isNumberChar {c : Char} (h : isNumberChar c = true) :
    c ≠ '-' ∧ c ≠ '+' ∧ isBlank c = false := by
  have bounds : c = '.' ∨ 48 ≤ c.toNat ∧ c.toNat ≤ 57 := by
    unfold isNumberChar at h
    rw [digit?_eq] at h
    split at h
    · rename_i hd
      exact .inr (Char.isDigit_iff_toNat.1 hd)
    · exact .inl (by simpa using h)
  rcases bounds with rfl | ⟨low, high⟩
  · decide +kernel
  · refine ⟨?_, ?_, ?_⟩
    · rintro rfl
      exact absurd low (by decide)
    · rintro rfl
      exact absurd low (by decide)
    · unfold isBlank
      simp only [blankRanges, List.any_cons, List.any_nil, Bool.or_false, Bool.or_eq_false_iff,
        Bool.and_eq_false_iff, decide_eq_false_iff_not]
      omega

theorem text_not_blank : ∀ c ∈ n.text, isBlank c = false := by
  intro c hc
  rcases List.mem_append.1 hc with hc | hs
  · rcases List.mem_append.1 hc with hs | hd
    · exact n.sign.not_isBlank c hs
    · exact (not_sign_of_isNumberChar (digits_isNumberChar c hd)).2.2
  · exact n.suffix.not_isBlank c hs

theorem digits_ne_nil : n.digits ≠ [] := by
  intro h
  obtain ⟨hw, hp⟩ := List.append_eq_nil_iff.1 h
  rcases n.some_digit with some | some
  · exact some hw
  · rcases e : n.point with _ | ds <;> rw [e] at hp some
    · exact some rfl
    · cases hp

theorem ofUnsigned_digits (negative : Bool) :
    Literal.ofUnsigned negative (n.digits ++ n.suffix.text) =
      ⟨negative, n.whole, n.fraction, n.suffix.text⟩ := by
  have suffix_drop : n.suffix.text.dropWhile isNumberChar = n.suffix.text := by
    cases n.suffix <;> rfl
  have suffix_take : n.suffix.text.takeWhile isNumberChar = [] := by
    cases n.suffix <;> rfl
  have whole_no_point : ∀ c ∈ n.whole, (c != '.') = true := by
    intro c hc
    rw [bne_iff_ne]
    rintro rfl
    exact absurd (n.whole_digits _ hc) (by decide)
  unfold Literal.ofUnsigned
  dsimp only
  rw [List.takeWhile_append_of_pos digits_isNumberChar,
    List.dropWhile_append_of_pos digits_isNumberChar, suffix_take, suffix_drop, List.append_nil]
  unfold digits fraction
  rw [List.takeWhile_append_of_pos whole_no_point, List.dropWhile_append_of_pos whole_no_point]
  cases n.point <;> simp

theorem of?_of_writes {text : String} (h : n.Writes text) : Literal.of? text = some n.literal := by
  obtain ⟨before, after, hb, ha, e⟩ := h
  have trimmed : trim text.toList = n.sign.text ++ (n.digits ++ n.suffix.text) := by
    rw [e, trim_enclosed hb text_not_blank ha, Numeral.text, List.append_assoc]
  have parts := ofUnsigned_digits (n := n)
  obtain ⟨c, rest, ed⟩ := List.exists_cons_of_ne_nil n.digits_ne_nil
  obtain ⟨minus, plus, -⟩ :=
    not_sign_of_isNumberChar (n.digits_isNumberChar c (by rw [ed]; exact List.mem_cons_self))
  unfold Literal.of? literal
  rw [trimmed]
  rw [ed, List.cons_append] at parts ⊢
  cases n.sign with
  | absent =>
    simp only [Sign.text, List.nil_append]
    split
    · contradiction
    · rename_i h; cases h; contradiction
    · rename_i h; cases h; contradiction
    · rename_i h; rw [parts]; rfl
  | plus => simp only [Sign.text, List.cons_append, List.nil_append]; rw [parts]; rfl
  | minus => simp only [Sign.text, List.cons_append, List.nil_append]; rw [parts]; rfl

theorem amount_eq : n.amount * 1000 =
    (n.finest : ℚ) / (10 ^ n.fraction.length * n.suffix.denominator : ℕ) := by
  have hd : (n.suffix.denominator : ℚ) ≠ 0 := by
    exact_mod_cast n.suffix.denominator_pos.ne'
  unfold amount finest
  push_cast
  field_simp

/-- What the parts of a numeral are read as. -/
theorem value?_literal : n.literal.value? =
    if (n.finest : Int) ≤ maxMilli then some n.quantity else none := by
  have scale_pos : 0 < 10 ^ n.fraction.length * n.suffix.denominator :=
    Nat.mul_pos (Nat.pow_pos (by decide)) n.suffix.denominator_pos
  have factor : (if n.literal.negative = true then -1 else 1 : Int) = n.sign.factor := by
    unfold literal
    cases n.sign <;> rfl
  rw [Literal.value?_eq, show n.literal.suffix = n.suffix.text from rfl, n.suffix.lookup_text,
    Option.bind_some, factor]
  dsimp only
  refine if_congr ?_ ?_ rfl
  · exact (and_iff_right ⟨n.some_digit, n.few_places⟩).trans
      (and_iff_right ⟨n.whole_digits, n.fraction_digits⟩)
  · unfold quantity
    rw [amount_eq, ← ceilDiv_eq_ceil _ scale_pos]
    rfl

/-- What the writing of a numeral is read as. -/
theorem parse?_of_writes {text : String} (h : n.Writes text) :
    parse? text = if (n.finest : Int) ≤ maxMilli then some n.quantity else none := by
  unfold parse?
  rw [of?_of_writes h, Option.bind_some, value?_literal]

end Numeral

/-- The parts of a text are a sign and what follows it. -/
theorem Literal.exists_of_of? {text : String} {l : Literal} (h : Literal.of? text = some l) :
    ∃ (sign : Sign) (body : List Char), trim text.toList = sign.text ++ body ∧
      l = .ofUnsigned (sign == .minus) body := by
  unfold Literal.of? at h
  split at h
  · cases h
  · rename_i body e
    cases h
    exact ⟨.minus, body, e, rfl⟩
  · rename_i body e
    cases h
    exact ⟨.plus, body, e, rfl⟩
  · cases h
    exact ⟨.absent, _, rfl, rfl⟩

/-- The parts of an unsigned text make up the text; there is a fraction only behind a point. -/
theorem Literal.exists_point (negative : Bool) (body : List Char) :
    ∃ point : Option (List Char), (ofUnsigned negative body).fraction = point.getD [] ∧
      body = (ofUnsigned negative body).whole ++ point.elim [] ('.' :: ·) ++
        (ofUnsigned negative body).suffix := by
  have parts : ∀ number : List Char, ∃ point : Option (List Char),
      (number.dropWhile (· != '.')).drop 1 = point.getD [] ∧
        number = number.takeWhile (· != '.') ++ point.elim [] ('.' :: ·) := by
    intro number
    have whole := List.takeWhile_append_dropWhile (p := (· != '.')) (l := number)
    rcases e : number.dropWhile (· != '.') with _ | ⟨c, rest⟩
    · exact ⟨none, rfl, by rw [e] at whole; exact whole.symm⟩
    · have point : c = '.' := by
        have nonempty : number.dropWhile (· != '.') ≠ [] := by rw [e]; exact List.cons_ne_nil _ _
        have := List.head_dropWhile_not (· != '.') nonempty
        simpa [e] using this
      exact ⟨some rest, rfl, by rw [e, point] at whole; exact whole.symm⟩
  obtain ⟨point, fraction, number⟩ := parts (body.takeWhile isNumberChar)
  refine ⟨point, fraction, ?_⟩
  unfold ofUnsigned
  dsimp only
  rw [← number, List.takeWhile_append_dropWhile]

/-- A text that is read writes a numeral. -/
theorem exists_writes_of_parse? {text : String} {q : Quantity} (h : parse? text = some q) :
    ∃ n : Numeral, n.Writes text := by
  unfold parse? at h
  obtain ⟨l, parts, value⟩ := Option.bind_eq_some_iff.1 h
  obtain ⟨sign, body, trimmed, rfl⟩ := Literal.exists_of_of? parts
  obtain ⟨point, fraction, split⟩ := Literal.exists_point (sign == .minus) body
  rw [Literal.value?_eq] at value
  obtain ⟨scale, known, value⟩ := Option.bind_eq_some_iff.1 value
  dsimp only at value
  split at value
  · rename_i good
    obtain ⟨⟨some_digit, few_places⟩, ⟨whole_digits, fraction_digits⟩, -⟩ := good
    obtain ⟨suffix, text_suffix⟩ := Suffix.exists_of_lookup known
    obtain ⟨before, after, hb, ha, e⟩ := exists_enclosing text.toList
    rw [fraction] at some_digit few_places fraction_digits
    refine ⟨⟨sign, _, point, suffix, whole_digits, fraction_digits, some_digit, few_places⟩,
      before, after, hb, ha, ?_⟩
    unfold Numeral.text Numeral.digits
    rw [text_suffix, List.append_assoc sign.text, ← split, ← trimmed]
    exact e
  · cases value

/-- What is read is in the range, and so is its opposite. -/
theorem abs_le_of_parse? {text : String} {q : Quantity} (h : parse? text = some q) :
    |q.milli| ≤ maxMilli := by
  obtain ⟨n, writes⟩ := exists_writes_of_parse? h
  rw [n.parse?_of_writes writes] at h
  split at h
  · rename_i fits
    cases h
    have parts : (1 : ℚ) ≤ (10 ^ n.fraction.length * n.suffix.denominator : ℕ) := by
      exact_mod_cast Nat.mul_pos (Nat.pow_pos (by decide)) n.suffix.denominator_pos
    have nonneg : 0 ≤ ⌈n.amount * 1000⌉ := by
      rw [n.amount_eq]
      exact Int.ceil_nonneg (by positivity)
    have least : ⌈n.amount * 1000⌉ ≤ n.finest := by
      rw [n.amount_eq, Int.ceil_le]
      exact div_le_self (Nat.cast_nonneg _) parts
    have size : |n.sign.factor| = 1 := by cases n.sign <;> rfl
    unfold Numeral.quantity
    rw [abs_mul, size, one_mul, abs_of_nonneg nonneg]
    exact least.trans fits
  · cases h

end Quantity

end JobAdmission
