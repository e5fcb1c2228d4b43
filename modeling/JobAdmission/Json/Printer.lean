/-
Writing JSON text without white space between the parts.
-/
import JobAdmission.Json.Basic
import JobAdmission.Text.Integer

namespace JobAdmission.Json

open Text

/-- The two hexadecimal digits of a number below 256. -/
def hexPair (n : Nat) : List Char :=
  [Nat.digitChar (n / 16), Nat.digitChar (n % 16)]

/-- One character inside a string: quotes, backslashes and control characters are escaped. -/
def escaped (c : Char) : List Char :=
  if c = '"' then ['\\', '"']
  else if c = '\\' then ['\\', '\\']
  else if c = '\n' then ['\\', 'n']
  else if c = '\r' then ['\\', 'r']
  else if c = '\t' then ['\\', 't']
  else if c.toNat < 0x20 then '\\' :: 'u' :: '0' :: '0' :: hexPair c.toNat
  else [c]

/-- A string in quotes. -/
def renderString (s : String) : String :=
  "\"" ++ String.ofList (s.toList.flatMap escaped) ++ "\""

/-- A number as it is written. -/
def renderNumeral (n : Numeral) : String :=
  let sign := if n.negative then "-" else ""
  let point := if n.places.isEmpty then "" else "."
  sign ++ String.ofList (n.whole.map Nat.digitChar) ++ point
    ++ String.ofList (n.places.map Nat.digitChar)
    ++ n.exponent.elim "" fun e => "e" ++ String.ofList (intText e)

mutual

/-- The text of a value. What cannot be read is written as null. -/
def render : Json → String
  | null => "null"
  | bool b => if b then "true" else "false"
  | int n => String.ofList (intText n)
  | decimal n => renderNumeral n
  | str s => renderString s
  | arr items => "[" ++ renderItems items ++ "]"
  | obj members => "\x7b" ++ renderMembers members ++ "\x7d"
  | unreadable => "null"

/-- The items of an array with commas between them. -/
def renderItems : List Json → String
  | [] => ""
  | [j] => render j
  | j :: k :: rest => render j ++ "," ++ renderItems (k :: rest)

/-- The members of an object with commas between them. -/
def renderMembers : List (String × Json) → String
  | [] => ""
  | [m] => renderString m.1 ++ ":" ++ render m.2
  | m :: n :: rest => renderString m.1 ++ ":" ++ render m.2 ++ "," ++ renderMembers (n :: rest)

end

end JobAdmission.Json
