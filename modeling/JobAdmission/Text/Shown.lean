/-
The inspection form of values: quoted text, bracketed listings and records such as
`Heap { len: 3, .. }` in which a trailing `..` says that more is there than is shown.
-/
import JobAdmission.Text.Unseen

namespace JobAdmission.Text

/-- The digits of a number in base sixteen, without leading zeros. -/
def hexDigits (n : Nat) : String := String.ofList (Nat.toDigits 16 n)

/-- One character inside quotes. -/
def quotedChar (c : Char) : String :=
  if c = '"' then "\\\""
  else if c = '\\' then "\\\\"
  else if c = '\n' then "\\n"
  else if c = '\r' then "\\r"
  else if c = '\t' then "\\t"
  else if c = '\x00' then "\\0"
  else if isUnseen c then "\\u\x7b" ++ hexDigits c.toNat ++ "\x7d"
  else c.toString

/-- A text in quotes, with escapes for what would break it or not be seen. -/
def quoted (s : String) : String :=
  "\"" ++ String.join (s.toList.map quotedChar) ++ "\""

/-- A bracketed listing of parts already shown. -/
def listing (parts : List String) : String :=
  "[" ++ ", ".intercalate parts ++ "]"

/-- A braced listing of parts already shown. -/
def braced (parts : List String) : String :=
  "\x7b" ++ ", ".intercalate parts ++ "\x7d"

/-- A record that shows all its fields. -/
def closedRecord (name : String) (fields : List (String × String)) : String :=
  name ++ " \x7b " ++ ", ".intercalate (fields.map fun f => f.1 ++ ": " ++ f.2) ++ " \x7d"

/-- A record that shows some of its fields. -/
def openRecord (name : String) (fields : List (String × String)) : String :=
  let parts := fields.map (fun f => f.1 ++ ": " ++ f.2) ++ [".."]
  name ++ " \x7b " ++ ", ".intercalate parts ++ " \x7d"

/-- The decimal digits of a number, with zeros in front up to a width. -/
def padded (width n : Nat) : String :=
  let digits := toString n
  String.ofList (List.replicate (width - digits.length) '0') ++ digits

/-- A whole number of `unit`s with what is left over as decimal places, without trailing zeros;
`places` is the number of digits of the largest remainder. -/
def withPlaces (n unit places : Nat) : String :=
  let rest := ((padded places (n % unit)).toList.reverse.dropWhile (· == '0')).reverse
  if rest.isEmpty then toString (n / unit) else toString (n / unit) ++ "." ++ String.ofList rest

/-- A span of time in nanoseconds, in the largest unit of which it holds at least one. -/
def timeSpan (ns : Nat) : String :=
  if ns ≥ 1000000000 then withPlaces ns 1000000000 9 ++ "s"
  else if ns ≥ 1000000 then withPlaces ns 1000000 6 ++ "ms"
  else if ns ≥ 1000 then withPlaces ns 1000 3 ++ "µs"
  else toString ns ++ "ns"

end JobAdmission.Text
