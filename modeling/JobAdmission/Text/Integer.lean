/-
Whole numbers as text: reading an unsigned number of a bounded range, with the reason of a
failure, and signed numbers of any size.
-/

namespace JobAdmission.Text

/-- Why a text is not an unsigned number of the range asked for. -/
inductive NumberFault where
  | empty
  | invalidDigit
  | tooLarge
deriving DecidableEq, Repr

/-- The sentence shown for a fault. -/
def NumberFault.message : NumberFault → String
  | empty => "cannot parse integer from empty string"
  | invalidDigit => "invalid digit found in string"
  | tooLarge => "number too large to fit in target type"

/-- The value of an ASCII digit. -/
def digit? (c : Char) : Option Nat :=
  if '0' ≤ c ∧ c ≤ '9' then some (c.toNat - '0'.toNat) else none

/-- Read digits into a number from left to right; the first fault met is reported. -/
def readDigits (limit : Nat) : Nat → List Char → Except NumberFault Nat
  | value, [] => .ok value
  | value, c :: rest =>
    match digit? c with
    | none => .error .invalidDigit
    | some d => if value * 10 + d < limit then readDigits limit (value * 10 + d) rest
      else .error .tooLarge

/-- Read an unsigned number below `limit`: digits, with at most one `+` in front. -/
def readNat (limit : Nat) (cs : List Char) : Except NumberFault Nat :=
  match cs with
  | [] => .error .empty
  | ['+'] => .error .invalidDigit
  | '+' :: rest => readDigits limit 0 rest
  | _ => readDigits limit 0 cs

/-- The number written by a non-empty list of digits. -/
def digitsValue? : List Char → Option Nat
  | [] => none
  | cs => cs.foldlM (fun n c => (digit? c).map (n * 10 + ·)) 0

/-- A signed number of any size: digits with at most one sign in front. -/
def readInt? (s : String) : Option Int :=
  match s.toList with
  | '-' :: rest => (digitsValue? rest).map fun n => -(n : Int)
  | '+' :: rest => (digitsValue? rest).map Int.ofNat
  | cs => (digitsValue? cs).map Int.ofNat

/-- The decimal digits of a number. -/
def natText (n : Nat) : List Char := Nat.toDigits 10 n

/-- The decimal text of a signed number. -/
def intText : Int → List Char
  | .ofNat n => natText n
  | .negSucc n => '-' :: natText (n + 1)

end JobAdmission.Text
