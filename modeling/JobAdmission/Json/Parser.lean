/-
Reading JSON text. The reader takes one value, with white space around it and nothing after it.
Each step takes at least one character off the text or enters the value it stands before, so twice
the length of the text bounds the number of steps.
-/
import JobAdmission.Json.Basic
import JobAdmission.Text.Integer

namespace JobAdmission.Json

open Text

/-- The white space of JSON. -/
def isSpace (c : Char) : Bool := c == ' ' || c == '\n' || c == '\t' || c == '\r'

/-- The text after its leading white space. -/
def skipSpace (cs : List Char) : List Char := cs.dropWhile isSpace

/-- The value of a hexadecimal digit. -/
def hexDigit? (c : Char) : Option Nat :=
  if '0' ≤ c ∧ c ≤ '9' then some (c.toNat - '0'.toNat)
  else if 'a' ≤ c ∧ c ≤ 'f' then some (c.toNat - 'a'.toNat + 10)
  else if 'A' ≤ c ∧ c ≤ 'F' then some (c.toNat - 'A'.toNat + 10)
  else none

/-- The 16-bit unit written by four hexadecimal digits. -/
def hexUnit? : List Char → Option (Nat × List Char)
  | a :: b :: c :: d :: rest => do
    let a ← hexDigit? a
    let b ← hexDigit? b
    let c ← hexDigit? c
    let d ← hexDigit? d
    some (((a * 16 + b) * 16 + c) * 16 + d, rest)
  | _ => none

/-- The character of an escape of one letter. -/
def escape? : Char → Option Char
  | '"' => some '"'
  | '\\' => some '\\'
  | '/' => some '/'
  | 'b' => some '\x08'
  | 'f' => some '\x0c'
  | 'n' => some '\n'
  | 'r' => some '\r'
  | 't' => some '\t'
  | _ => none

/-- Whether a unit is the first half of a pair. -/
def isHighSurrogate (n : Nat) : Bool := 0xD800 ≤ n && n < 0xDC00

/-- Whether a unit is the second half of a pair. -/
def isLowSurrogate (n : Nat) : Bool := 0xDC00 ≤ n && n < 0xE000

/-- The characters of a string after its opening quote, and the text after its closing quote.
A half pair makes the string unreadable: the first component is then `none`. -/
def stringTail? : Nat → List Char → Option (Option (List Char) × List Char)
  | 0, _ => none
  | _ + 1, [] => none
  | _ + 1, '"' :: rest => some (some [], rest)
  | fuel + 1, '\\' :: 'u' :: rest => do
    let (u, rest) ← hexUnit? rest
    if isHighSurrogate u then
      match rest with
      | '\\' :: 'u' :: rest' =>
        let (v, rest') ← hexUnit? rest'
        let (tail, rest') ← stringTail? fuel rest'
        if isLowSurrogate v then
          some (tail.map (Char.ofNat (0x10000 + (u - 0xD800) * 0x400 + (v - 0xDC00)) :: ·), rest')
        else some (none, rest')
      | _ => do
        let (_, rest) ← stringTail? fuel rest
        some (none, rest)
    else
      let (tail, rest) ← stringTail? fuel rest
      if isLowSurrogate u then some (none, rest)
      else some (tail.map (Char.ofNat u :: ·), rest)
  | fuel + 1, '\\' :: e :: rest => do
    let c ← escape? e
    let (tail, rest) ← stringTail? fuel rest
    some (tail.map (c :: ·), rest)
  | fuel + 1, c :: rest => do
    if c.toNat < 0x20 || c == '\\' then none
    let (tail, rest) ← stringTail? fuel rest
    some (tail.map (c :: ·), rest)

/-- The text of a string after its opening quote, `none` inside if it is unreadable. -/
def string? (cs : List Char) : Option (Option String × List Char) :=
  (stringTail? (cs.length + 1) cs).map fun (t, rest) => (t.map String.ofList, rest)

/-- The digits at the front of a text. -/
def digitSpan (cs : List Char) : List Char × List Char :=
  cs.span fun c => (digit? c).isSome

/-- The number written by digits, zero if there are none. -/
def digitsNat (cs : List Char) : Nat := (digitsValue? cs).getD 0

/-- The exponent part of a number: `e` or `E`, a sign if any, digits. -/
def exponent? : List Char → Option (Option Int × List Char)
  | c :: rest =>
    if c == 'e' || c == 'E' then
      let (negative, rest) := match rest with
        | '-' :: r => (true, r)
        | '+' :: r => (false, r)
        | r => (false, r)
      match digitSpan rest with
      | ([], _) => none
      | (ds, rest) =>
        let n : Int := digitsNat ds
        some (some (if negative then -n else n), rest)
    else some (none, c :: rest)
  | [] => some (none, [])

/-- The values of digits. -/
def digitValues (cs : List Char) : List Nat := cs.filterMap digit?

/-- A number. No digit follows a leading zero, and digits stand on both sides of a point. Minus
zero is no whole number. -/
def number? (cs : List Char) : Option (Json × List Char) := do
  let (negative, cs) := match cs with
    | '-' :: r => (true, r)
    | r => (false, r)
  let (whole, rest) := digitSpan cs
  if whole.isEmpty || (whole.length > 1 && whole.head? == some '0') then none
  let (places, rest) ← match rest with
    | '.' :: r => match digitSpan r with
      | ([], _) => none
      | (ds, r) => some (ds, r)
    | r => some ([], r)
  let (exponent, rest) ← exponent? rest
  let size : Int := digitsNat whole
  let n := if negative then -size else size
  if places.isEmpty ∧ exponent = none ∧ -0x8000000000000000 ≤ n ∧ n < 0x10000000000000000 ∧
      ¬(negative ∧ size = 0) then
    some (.int n, rest)
  else
    some (.decimal { negative, whole := digitValues whole, places := digitValues places, exponent },
      rest)

mutual

/-- One value and the text after it. -/
def value? : Nat → List Char → Option (Json × List Char)
  | 0, _ => none
  | fuel + 1, cs =>
    match skipSpace cs with
    | 'n' :: 'u' :: 'l' :: 'l' :: rest => some (.null, rest)
    | 't' :: 'r' :: 'u' :: 'e' :: rest => some (.bool true, rest)
    | 'f' :: 'a' :: 'l' :: 's' :: 'e' :: rest => some (.bool false, rest)
    | '"' :: rest => (string? rest).map fun (s, rest) =>
        (s.elim .unreadable .str, rest)
    | '[' :: rest =>
      match skipSpace rest with
      | ']' :: rest => some (.arr [], rest)
      | rest => (items? fuel rest).map fun (items, rest) => (.arr items, rest)
    | '\x7b' :: rest =>
      match skipSpace rest with
      | '\x7d' :: rest => some (.obj [], rest)
      | rest => (members? fuel rest).map fun (members, rest) =>
          (members.elim .unreadable .obj, rest)
    | rest => number? rest

/-- The items of an array up to its closing bracket. -/
def items? : Nat → List Char → Option (List Json × List Char)
  | 0, _ => none
  | fuel + 1, cs => do
    let (j, rest) ← value? fuel cs
    match skipSpace rest with
    | ',' :: rest => (items? fuel rest).map fun (items, rest) => (j :: items, rest)
    | ']' :: rest => some ([j], rest)
    | _ => none

/-- The members of an object up to its closing brace, `none` inside if a key is unreadable. -/
def members? : Nat → List Char → Option (Option (List (String × Json)) × List Char)
  | 0, _ => none
  | fuel + 1, cs =>
    match skipSpace cs with
    | '"' :: rest => do
      let (key, rest) ← string? rest
      match skipSpace rest with
      | ':' :: rest =>
        let (j, rest) ← value? fuel rest
        let first := key.map fun k => (k, j)
        match skipSpace rest with
        | ',' :: rest => (members? fuel rest).map fun (more, rest) =>
            (first.bind fun m => more.map (m :: ·), rest)
        | '\x7d' :: rest => some (first.map ([·]), rest)
        | _ => none
      | _ => none
    | _ => none

end

/-- The value that a text holds, if it holds exactly one. -/
def parse? (s : String) : Option Json :=
  let cs := s.toList
  match value? (2 * cs.length + 2) cs with
  | some (j, rest) => if (skipSpace rest).isEmpty then some j else none
  | none => none

end JobAdmission.Json
