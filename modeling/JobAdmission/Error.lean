/-
What can go wrong in admission, one constructor for each cause, and the sentence each one shows.
-/

namespace JobAdmission

/-- A failure of a queue, a plugin, a collaborator or the configuration. -/
inductive AdmissionError where
  | duplicateKey (key : String)
  /-- The named job, queue, quota or handler does not exist. -/
  | notFound (what : String)
  | empty
  /-- The text is not a key of the expected number of fields. -/
  | malformedKey (text : String)
  | invalidQuantity (text : String)
  | config (reason : String)
  | queueClosed (queue : String)
  | client (reason : String)
  /-- The backend cannot do what it was asked. -/
  | backend (reason : String)
deriving DecidableEq, Repr, Inhabited

namespace AdmissionError

/-- The sentence shown for an error. -/
def message : AdmissionError → String
  | duplicateKey key => "duplicate key: " ++ key
  | notFound what => "not found: " ++ what
  | empty => "heap is empty"
  | malformedKey text => "failed to parse key: " ++ text
  | invalidQuantity text => "invalid quantity: " ++ text
  | config reason => "configuration error: " ++ reason
  | queueClosed queue => "queue closed: " ++ queue
  | client reason => "client error: " ++ reason
  | backend reason => "backend error: " ++ reason

/-- The name of a cause, under which errors are reported. -/
def kind : AdmissionError → String
  | duplicateKey _ => "DuplicateKey"
  | notFound _ => "NotFound"
  | empty => "Empty"
  | malformedKey _ => "KeyParse"
  | invalidQuantity _ => "InvalidQuantity"
  | config _ => "Config"
  | queueClosed _ => "QueueClosed"
  | client _ => "Client"
  | backend _ => "Backend"

/-- The error of a cause, given its name and what went wrong. -/
def ofKind? (kind detail : String) : Option AdmissionError :=
  match kind with
  | "DuplicateKey" => some (duplicateKey detail)
  | "NotFound" => some (notFound detail)
  | "Empty" => some empty
  | "KeyParse" => some (malformedKey detail)
  | "InvalidQuantity" => some (invalidQuantity detail)
  | "Config" => some (config detail)
  | "QueueClosed" => some (queueClosed detail)
  | "Client" => some (client detail)
  | "Backend" => some (backend detail)
  | _ => none

/-- Whether the error says that something is gone, which ends a retry without harm. -/
def isNotFound : AdmissionError → Bool
  | notFound _ => true
  | _ => false

end AdmissionError

end JobAdmission
