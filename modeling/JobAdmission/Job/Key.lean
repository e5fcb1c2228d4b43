/-
The identity of a job as it travels between services: kind, namespace and name, and a uid where
one is known, with slashes between them.
-/
import JobAdmission.Job.Basic
import JobAdmission.Text.Fields

namespace JobAdmission

/-- The identity of a job. -/
structure JobKey where
  kind : String
  ns : String
  name : String
  uid : Option String
deriving DecidableEq, Repr

namespace JobKey

/-- The character between two fields. -/
def separator : Char := '/'

/-- The fields in order. -/
def parts (k : JobKey) : List String := [k.kind, k.ns, k.name] ++ k.uid.toList

/-- The written form. -/
def text (k : JobKey) : String := (String.singleton separator).intercalate k.parts

/-- Read a key of four fields. -/
def parse (s : String) : Except AdmissionError JobKey :=
  match Text.fieldsOf separator s with
  | [kind, ns, name, uid] => .ok { kind, ns, name, uid := some uid }
  | _ => .error (.malformedKey s)

/-- Read a key of three fields, which has no uid. -/
def parseJob (s : String) : Except AdmissionError JobKey :=
  match Text.fieldsOf separator s with
  | [kind, ns, name] => .ok { kind, ns, name, uid := none }
  | _ => .error (.malformedKey s)

/-- A waiting job with this identity and nothing else. -/
def toJob (k : JobKey) : Job := { Job.new k.ns k.name k.kind with uid := k.uid }

end JobKey

namespace Job

/-- The identity of a job. -/
def identity (j : Job) : JobKey := { kind := j.kind, ns := j.ns, name := j.name, uid := j.uid }

/-- The written identity of a job. -/
def identityText (j : Job) : String := j.identity.text

/-- A waiting job with the identity that a key of four fields states. -/
def ofIdentityText (s : String) : Except AdmissionError Job := (JobKey.parse s).map JobKey.toJob

end Job

end JobAdmission
