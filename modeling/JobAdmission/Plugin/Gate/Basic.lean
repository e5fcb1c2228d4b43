/-
Gates: plugins whose answers are set from outside, for holding jobs back by hand and for rehearsing
what a scheduler does. A gate has the capabilities it is set up with. It asks nobody: each call is
noted down and answered as the book of gates says.
-/
import JobAdmission.Plugin.Basic
import JobAdmission.Slot

namespace JobAdmission

/-- The calls that a gate answers. -/
inductive GateCall where
  | filter
  | reserve
  | unreserve
deriving DecidableEq, Repr

namespace GateCall

/-- The name of a call. -/
def name : GateCall → String
  | filter => "filter"
  | reserve => "reserve"
  | unreserve => "unreserve"

/-- The call of a name. -/
def ofName? : String → Option GateCall
  | "filter" => some filter
  | "reserve" => some reserve
  | "unreserve" => some unreserve
  | _ => none

end GateCall

/-- The answers of a gate. -/
structure GateAnswers where
  filter : Verdict
  reserve : Verdict
  unreserve : Verdict
deriving DecidableEq, Repr

namespace GateAnswers

/-- Acceptance of every call. -/
def standard : GateAnswers := ⟨.success, .success, .success⟩

/-- The answer to a call. -/
def answer (a : GateAnswers) : GateCall → Verdict
  | .filter => a.filter
  | .reserve => a.reserve
  | .unreserve => a.unreserve

/-- Another answer to one of the calls. -/
def withAnswer (a : GateAnswers) (call : GateCall) (v : Verdict) : GateAnswers :=
  match call with
  | .filter => { a with filter := v }
  | .reserve => { a with reserve := v }
  | .unreserve => { a with unreserve := v }

end GateAnswers

/-- What the gates of an environment answer, and what they were asked. -/
structure GateBook where
  answers : NameMap GateAnswers
  /-- The calls noted down, oldest first. -/
  calls : List String
deriving DecidableEq

namespace GateBook

/-- A book without gates. -/
def empty : GateBook := ⟨.empty, []⟩

instance : Inhabited GateBook := ⟨empty⟩

/-- Enter a gate. -/
def enter (b : GateBook) (gate : String) (answers : GateAnswers) : GateBook :=
  { b with answers := b.answers.insert gate answers }

/-- Whether a gate is entered. -/
def holds (b : GateBook) (gate : String) : Bool := (b.answers.get? gate).isSome

/-- Set the answer of a gate to a call. A gate that is not entered gets none. -/
def setAnswer (b : GateBook) (gate : String) (call : GateCall) (v : Verdict) : GateBook :=
  match b.answers.get? gate with
  | some answers => b.enter gate (answers.withAnswer call v)
  | none => b

/-- Note a call down and answer it. -/
def ask (gate : String) (call : GateCall) (c : Candidate) (b : GateBook) : Verdict × GateBook :=
  (((b.answers.get? gate).getD .standard).answer call,
    { b with calls := b.calls ++ [gate ++ "." ++ call.name ++ " " ++ c.key] })

/-- The calls noted down, which are then forgotten. -/
def takeCalls (b : GateBook) : List String × GateBook := (b.calls, { b with calls := [] })

end GateBook

/-- How a gate is set up. -/
structure GateSetup where
  name : String
  queueOrder : Option QueueOrder
  jobOrder : Option JobOrder
  filters : Bool
  reserves : Bool
  /-- Why the gate cannot be made, if so. -/
  failure : Option String

namespace GateSetup

variable {E : Type}

/-- The plugin of a setup. -/
def plugin (g : GateSetup) (slot : Slot E GateBook) : Plugin E :=
  let ask (call : GateCall) : Consultation E := fun c => slot.act (GateBook.ask g.name call c)
  { name := g.name
    queueOrder := g.queueOrder
    jobOrder := g.jobOrder
    filter := if g.filters then some (ask .filter) else none
    reservation :=
      if g.reserves then some { reserve := ask .reserve, unreserve := ask .unreserve } else none }

/-- Making the plugin. -/
def factory (g : GateSetup) (slot : Slot E GateBook) : Factory E := fun _ env =>
  match g.failure with
  | some reason => (.error (.backend reason), env)
  | none => (.ok (g.plugin slot), env)

/-- A catalog with gates added to it. -/
def registerAll (slot : Slot E GateBook) (catalog : Catalog E) (gates : List GateSetup) :
    Except AdmissionError (Catalog E) :=
  gates.foldlM (fun catalog g => catalog.register g.name (g.factory slot)) catalog

end GateSetup

end JobAdmission
