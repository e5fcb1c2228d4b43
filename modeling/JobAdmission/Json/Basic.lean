/-
JSON values as they are read. Whole numbers of 64 bits are kept apart from other numbers, and the
members of an object are kept in order with their repetitions, because readers of typed values
refuse some of both. A string or an object key may be written with an escape that stands for no
character; such a value can be skipped but not read, and is kept as `unreadable`.
-/
import JobAdmission.Json.Numeral

namespace JobAdmission

/-- A JSON value. -/
inductive Json where
  | null
  | bool (b : Bool)
  /-- A number written with digits only that fits 64 bits, with or without a sign. -/
  | int (n : Int)
  /-- Another number, as it is written. -/
  | decimal (n : Numeral)
  | str (s : String)
  | arr (items : List Json)
  | obj (members : List (String × Json))
  /-- A string, or an object with a key, that is no text. -/
  | unreadable
deriving Inhabited, Repr, BEq

namespace Json

mutual

/-- How many arrays and objects are open at the deepest point of a value. -/
def depth : Json → Nat
  | arr items => depthItems items + 1
  | obj members => depthMembers members + 1
  | _ => 0

/-- The largest depth of some items. -/
def depthItems : List Json → Nat
  | [] => 0
  | j :: rest => max (depth j) (depthItems rest)

/-- The largest depth of some members. -/
def depthMembers : List (String × Json) → Nat
  | [] => 0
  | m :: rest => max (depth m.2) (depthMembers rest)

end

mutual

/-- Whether every part of a value can be held in memory as text, numbers and containers. -/
def readable : Json → Bool
  | arr items => readableItems items
  | obj members => readableMembers members
  | decimal n => n.inDoubleRange
  | unreadable => false
  | _ => true

/-- Whether all items are readable. -/
def readableItems : List Json → Bool
  | [] => true
  | j :: rest => readable j && readableItems rest

/-- Whether all members are readable. -/
def readableMembers : List (String × Json) → Bool
  | [] => true
  | m :: rest => readable m.2 && readableMembers rest

end

end Json

end JobAdmission
