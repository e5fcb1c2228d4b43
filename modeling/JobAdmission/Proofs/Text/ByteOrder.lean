/-
Texts compare as their bytes do. Texts are ordered by their code points, from the first on. A code
point is written as a lead byte and up to three more, which are its digits to the base 64; a longer
form has a greater lead byte, and in forms of one length the digits compare from the greatest on.
So the bytes of a text have the order of its code points.
-/
import JobAdmission.NameMap
import Mathlib.Algebra.Group.Nat.Defs
import Mathlib.Data.Nat.Basic
import Mathlib.Tactic.Common

namespace JobAdmission.Text

/-- The bytes of a text. -/
def bytes (s : String) : List UInt8 := s.toUTF8.data.toList

/-- A number as a lead byte, which stands for its upper part, and its `k` lower digits to the base
64, each in a byte of its own. -/
def digits (lead : Nat) : Nat → Nat → List UInt8
  | 0, v => [.ofNat (lead + v)]
  | k + 1, v => digits lead k (v / 64) ++ [.ofNat (0x80 + v % 64)]

theorem ofNat_lt {m n : Nat} (h : m < n) (small : n < 256) : UInt8.ofNat m < UInt8.ofNat n := by
  rw [UInt8.lt_iff_toNat_lt, UInt8.toNat_ofNat', UInt8.toNat_ofNat']
  omega

theorem digits_head (lead k v : Nat) :
    ∃ rest, digits lead k v = UInt8.ofNat (lead + v / 64 ^ k) :: rest := by
  induction k generalizing v with
  | zero => exact ⟨[], by simp [digits]⟩
  | succ k ih =>
    obtain ⟨rest, h⟩ := ih (v / 64)
    rw [Nat.div_div_eq_div_mul, Nat.mul_comm, ← Nat.pow_succ] at h
    exact ⟨rest ++ [.ofNat (0x80 + v % 64)], by rw [digits, h, List.cons_append]⟩

theorem append_lt_append_left (l : List UInt8) {xs ys : List UInt8} (h : xs < ys) :
    l ++ xs < l ++ ys := by
  induction l with
  | nil => exact h
  | cons a l ih => exact List.cons_lt_cons_iff.2 (.inr ⟨rfl, ih⟩)

/-- Digits compare as their numbers do, whatever follows them. -/
theorem digits_lt {lead k m n : Nat} (h : m < n) (small : lead + n / 64 ^ k < 256)
    (xs ys : List UInt8) : digits lead k m ++ xs < digits lead k n ++ ys := by
  induction k generalizing m n xs ys with
  | zero =>
    rw [Nat.pow_zero, Nat.div_one] at small
    exact List.cons_lt_cons_iff.2 (.inl (ofNat_lt (by omega) small))
  | succ k ih =>
    rw [Nat.pow_succ, Nat.mul_comm, ← Nat.div_div_eq_div_mul] at small
    simp only [digits, List.append_assoc, List.singleton_append]
    rcases Nat.lt_or_ge (m / 64) (n / 64) with less | rest
    · exact ih less small _ _
    · have same : m / 64 = n / 64 := by omega
      rw [same]
      exact append_lt_append_left _
        (List.cons_lt_cons_iff.2 (.inl (ofNat_lt (by omega) (by omega))))

/-- A code point below another has the lesser lead byte if its form is shorter. -/
theorem digits_lt_of_lead {lead lead' k k' m n : Nat} (h : lead + m / 64 ^ k < lead' + n / 64 ^ k')
    (small : lead' + n / 64 ^ k' < 256) (xs ys : List UInt8) :
    digits lead k m ++ xs < digits lead' k' n ++ ys := by
  obtain ⟨rest, e⟩ := digits_head lead k m
  obtain ⟨rest', e'⟩ := digits_head lead' k' n
  rw [e, e']
  exact List.cons_lt_cons_iff.2 (.inl (ofNat_lt h small))

theorem val_lt (c : Char) : c.val.toNat < 0x110000 := by
  have valid := c.valid
  unfold UInt32.isValidChar Nat.isValidChar at valid
  omega

theorem utf8EncodeChar_eq_digits (c : Char) :
    String.utf8EncodeChar c =
      if c.val.toNat ≤ 0x7f then digits 0 0 c.val.toNat
      else if c.val.toNat ≤ 0x7ff then digits 0xc0 1 c.val.toNat
      else if c.val.toNat ≤ 0xffff then digits 0xe0 2 c.val.toNat
      else digits 0xf0 3 c.val.toNat := by
  have valid := val_lt c
  unfold String.utf8EncodeChar
  generalize c.val.toNat = v at *
  dsimp only
  have twice : v / 64 / 64 = v / 4096 := Nat.div_div_eq_div_mul ..
  have thrice : v / 4096 / 64 = v / 262144 := Nat.div_div_eq_div_mul ..
  split
  · simp [digits]
  · split
    · have lead : v / 64 % 32 = v / 64 := by omega
      simp [digits, lead, Nat.add_comm]
    · split
      · have lead : v / 4096 % 16 = v / 4096 := by omega
        simp [digits, twice, lead, Nat.add_comm]
      · have lead : v / 262144 % 8 = v / 262144 := by omega
        simp [digits, twice, thrice, lead, Nat.add_comm]

/-- The bytes of two code points compare as these do, whatever follows them. -/
theorem utf8EncodeChar_lt {c d : Char} (h : c < d) (xs ys : List UInt8) :
    String.utf8EncodeChar c ++ xs < String.utf8EncodeChar d ++ ys := by
  have less : c.val.toNat < d.val.toNat := h
  have valid := val_lt d
  rw [utf8EncodeChar_eq_digits, utf8EncodeChar_eq_digits]
  generalize c.val.toNat = m at *
  generalize d.val.toNat = n at *
  split_ifs <;> first
    | exact digits_lt less (by omega) xs ys
    | exact digits_lt_of_lead (by omega) (by omega) xs ys

theorem flatMap_utf8EncodeChar_lt {cs ds : List Char} (h : cs < ds) :
    cs.flatMap String.utf8EncodeChar < ds.flatMap String.utf8EncodeChar := by
  induction cs generalizing ds with
  | nil =>
    cases ds with
    | nil => exact absurd h (List.lt_irrefl [])
    | cons d ds =>
      have some := d.utf8Size_pos
      rw [← String.length_utf8EncodeChar] at some
      obtain ⟨b, rest, e⟩ := List.exists_cons_of_length_pos some
      simp [e]
  | cons c cs ih =>
    cases ds with
    | nil => exact absurd h (List.not_lt_nil _)
    | cons d ds =>
      rw [List.flatMap_cons, List.flatMap_cons]
      rcases List.cons_lt_cons_iff.1 h with less | ⟨rfl, later⟩
      · exact utf8EncodeChar_lt less _ _
      · exact append_lt_append_left _ (ih later)

theorem bytes_eq (s : String) : bytes s = s.toList.flatMap String.utf8EncodeChar := by
  conv => lhs; rw [← String.ofList_toList (s := s)]
  unfold bytes
  rw [String.toUTF8_eq_toByteArray, String.toByteArray_ofList, List.utf8Encode,
    List.data_toByteArray]

/-- Texts compare as their bytes do. -/
theorem bytes_lt_iff {a b : String} : bytes a < bytes b ↔ a < b := by
  have up : ∀ {a b : String}, a < b → bytes a < bytes b := by
    intro a b h
    rw [bytes_eq, bytes_eq]
    exact flatMap_utf8EncodeChar_lt h
  refine ⟨fun h => Classical.byContradiction fun not_less => ?_, up⟩
  by_cases same : a = b
  · subst same
    exact List.lt_irrefl _ h
  · exact List.lt_asymm h (up (NameMap.lt_of_not_lt_of_ne not_less same))

end JobAdmission.Text
