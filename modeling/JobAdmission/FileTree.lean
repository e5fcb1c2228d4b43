/-
Paths in a tree of directories. A path from the root is followed part by part: an empty part and
`.` stay, `..` goes up, and at the root it stays too; any other part goes down to the entry of that
name. Only a directory can be followed further, and a path that is too long leads nowhere.
-/
import JobAdmission.Text.Fields

namespace JobAdmission

/-- A file with its text, or a directory with its entries by name. -/
inductive FileTree where
  | file (text : String)
  | directory (entries : List (String × FileTree))

namespace FileTree

/-- A directory without entries. -/
def bare : FileTree := directory []

/-- What lies where a path leads, if it leads anywhere. The directories above the present place come
nearest first. -/
def follow? (place : FileTree) (above : List FileTree) : List String → Option FileTree
  | [] => some place
  | part :: rest =>
    match place with
    | file _ => none
    | directory entries =>
      if part.isEmpty || part == "." then place.follow? above rest
      else if part == ".." then
        match above with
        | [] => place.follow? [] rest
        | parent :: above => parent.follow? above rest
      else match entries.lookup part with
        | some entry => entry.follow? (place :: above) rest
        | none => none

/-- The most bytes that a path may have. -/
def longestPath : Nat := 4095

/-- The text of the file that a path from the root leads to, if there is one. -/
def read? (root : FileTree) (path : String) : Option String :=
  if path.utf8ByteSize > longestPath then none
  else match Text.fieldsOf '/' path with
    | "" :: parts@(_ :: _) =>
      match root.follow? [] parts with
      | some (file text) => some text
      | _ => none
    | _ => none

end FileTree

end JobAdmission
