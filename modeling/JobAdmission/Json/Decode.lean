/-
Reading typed values out of JSON values. A record is an object whose known members occur at most
once and whose other members are passed over, or an array that lists the fields in order and may
stop early. A tagged choice names its alternative in a member of its own.
-/
import JobAdmission.Json.Basic
import JobAdmission.NameMap
import JobAdmission.Text.Integer

namespace JobAdmission.Json

/-! ## Plain values -/

/-- The text of a string. -/
def str? : Json → Option String
  | str s => some s
  | _ => none

/-- A truth value. -/
def bool? : Json → Option Bool
  | bool b => some b
  | _ => none

/-- A whole number. -/
def int? : Json → Option Int
  | int n => some n
  | _ => none

/-- A number written with digits only, however large. -/
def natural? : Json → Option Nat
  | int (.ofNat n) => some n
  | decimal n => n.natural?
  | _ => none

/-- A whole number from zero up to below a limit. -/
def natBelow? (limit : Nat) (j : Json) : Option Nat := do
  let n ← j.natural?
  if n < limit then some n else none

/-- A signed 32-bit number. -/
def int32? (j : Json) : Option Int32 := do
  let n ← j.int?
  if -0x80000000 ≤ n ∧ n < 0x80000000 then some (.ofInt n) else none

/-- An unsigned 64-bit number. -/
def uint64? (j : Json) : Option UInt64 := (j.natBelow? (.pow 2 64)).map .ofNat

/-- The items of an array, each read by `read`. -/
def list? {α : Type} (read : Json → Option α) : Json → Option (List α)
  | arr items => items.mapM read
  | _ => none

/-- An object as a map, its values read by `read`; of two members of one name the later wins. -/
def map? {α : Type} (read : Json → Option α) : Json → Option (NameMap α)
  | obj members => (members.mapM fun m => (read m.2).map fun v => (m.1, v)).map NameMap.ofList
  | _ => none

/-- The name of an alternative without content: a string, or an object that binds it to null. -/
def choice? : Json → Option String
  | str s => some s
  | obj [(s, null)] => some s
  | _ => none

/-- The name of an alternative without content, in a value held for a tagged choice: there an empty
object may stand in the place of null. -/
def heldChoice? : Json → Option String
  | obj [(s, obj [])] => some s
  | j => j.choice?

/-- The value of a member of an object; of two members of one name the later wins. -/
def member? (j : Json) (name : String) : Option Json :=
  match j with
  | obj members => (members.reverse.find? (·.1 == name)).map (·.2)
  | _ => none

/-! ## Records -/

/-- The fields of a record among the known names. -/
def record? (known : List String) : Json → Option (NameMap Json)
  | obj members =>
    let own := members.filter fun m => known.contains m.1
    if (own.map (·.1)).Nodup then some (.ofList own) else none
  | arr items => if items.length ≤ known.length then some (.ofList (known.zip items)) else none
  | _ => none

variable {α : Type}

/-- A field that must be there. -/
def need? (r : NameMap Json) (name : String) (read : Json → Option α) : Option α :=
  (r.get? name).bind read

/-- A field with a value of its own when it is missing. -/
def orElse? (r : NameMap Json) (name : String) (default : α) (read : Json → Option α) :
    Option α :=
  match r.get? name with
  | none => some default
  | some j => read j

/-- A field that may be missing or null. -/
def maybe? (r : NameMap Json) (name : String) (read : Json → Option α) : Option (Option α) :=
  match r.get? name with
  | none => some none
  | some null => some none
  | some j => (read j).map some

/-! ## Tagged choices -/

/-- The deepest nesting held for a tagged choice while its tag is looked for. -/
def maxDepth : Nat := 127

/-- The tag of a choice and the rest of it: the member `tag` of an object, or the first item of an
array. -/
def tagged? (tag : String) (j : Json) : Option (String × Json) :=
  if j.depth ≤ maxDepth ∧ j.readable then
    match j with
    | obj members =>
      match members.filter (·.1 == tag) with
      | [(_, str t)] => some (t, obj (members.filter (·.1 != tag)))
      | _ => none
    | arr (str t :: items) => some (t, arr items)
    | _ => none
  else none

/-! ## Writing -/

/-- A member that is left out when there is no value. -/
def optional (name : String) (write : α → Json) : Option α → List (String × Json)
  | none => []
  | some v => [(name, write v)]

/-- A value, or null where there is none. -/
def orNull (write : α → Json) (a : Option α) : Json := a.elim null write

/-- A count. -/
def ofNat (n : Nat) : Json := int n

/-- A number of any size as a string of its digits. -/
def digits (n : Int) : Json := str (String.ofList (Text.intText n))

/-- Strings as an array. -/
def ofStrings (l : List String) : Json := arr (l.map str)

/-- A map as an object. -/
def ofMap (write : α → Json) (m : NameMap α) : Json :=
  obj (m.entries.map fun e => (e.1, write e.2))

end JobAdmission.Json
