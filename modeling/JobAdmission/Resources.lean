/-
Resource lists: how much of each named resource is asked for, held or allowed.
-/
import JobAdmission.NameMap
import JobAdmission.Quantity.Text

namespace JobAdmission

/-- A quantity for each of some named resources. -/
abbrev Resources := NameMap Quantity

namespace Resources

/-- The amount of a resource, nothing if it is not listed. -/
def amount (r : Resources) (name : String) : Quantity := (r.get? name).getD .zero

/-- Add one entry, which starts from nothing if the resource is not listed. -/
def addEntry (total : Resources) (e : String × Quantity) : Resources :=
  total.insert e.1 (total.amount e.1 + e.2)

/-- Add every entry of a request to a total. -/
def add (total request : Resources) : Resources :=
  request.entries.foldl addEntry total

/-- Take one entry off. A resource that is not listed stays so, and one of which nothing is left
is dropped. -/
def subEntry (total : Resources) (e : String × Quantity) : Resources :=
  match total.get? e.1 with
  | none => total
  | some current =>
    let left := current - e.2
    if left.sign ≤ 0 then total.erase e.1 else total.insert e.1 left

/-- Take every entry of a request off a total. -/
def sub (total request : Resources) : Resources :=
  request.entries.foldl subEntry total

/-- The list of pairs of names and written quantities. The first text that is no quantity is the
error; of two pairs of one name the later wins. -/
def ofPairs (pairs : List (String × String)) : Except AdmissionError Resources :=
  pairs.foldlM (fun m e => return m.insert e.1 (← Quantity.parse e.2)) NameMap.empty

end Resources

end JobAdmission
