/-
Where a configuration comes from: a JSON text, or variables that override single fields of a base,
which is a file if a variable names one. The result is checked once all overrides are in place, so
they may mend a base that is not usable by itself.
-/
import JobAdmission.Config.Basic
import JobAdmission.Json.Parser
import JobAdmission.Text.Fields

namespace JobAdmission

/-- Why no configuration could be had. -/
inductive SourceFault where
  | unparsable
  | unreadable (path : String)
  /-- The value of a variable is not a number of its range. -/
  | badNumber (name value : String) (cause : Text.NumberFault)
  | unusable (cause : ConfigFault)
deriving DecidableEq, Repr

/-- The sentence shown for a fault; what the reader of the text or of the file adds to it is left
to them. -/
def SourceFault.message : SourceFault → String
  | unparsable => "parse error"
  | unreadable path => "cannot read `" ++ path ++ "`"
  | badNumber name value cause => name ++ "=`" ++ value ++ "` invalid: " ++ cause.message
  | unusable cause => cause.message

namespace Config

/-- A usable configuration. -/
def usable (c : Config) : Except SourceFault Config :=
  match c.validate with
  | .ok () => .ok c
  | .error cause => .error (.unusable cause)

/-- The configuration that a text holds, usable or not. -/
def ofText (text : String) : Except SourceFault Config :=
  match (Json.parse? text).bind ofJson? with
  | some c => .ok c
  | none => .error .unparsable

/-- The usable configuration that a text holds. -/
def fromText (text : String) : Except SourceFault Config := ofText text >>= usable

/-- What the name of every variable starts with. -/
def variableStem : String := "KUBE_QUEUE_"

/-- The name of the variable for a setting. -/
def variableName (setting : String) : String := variableStem ++ setting

/-- Values of variables. -/
abbrev Variables := String → Option String

/-- The number that a variable states, or the value it overrides. -/
def numberOr (vars : Variables) (setting : String) (base : UInt64) : Except SourceFault UInt64 :=
  match vars (variableName setting) with
  | none => .ok base
  | some value =>
    match Text.readNat (.pow 2 64) (Text.trim value.toList) with
    | .ok n => .ok (.ofNat n)
    | .error cause => .error (.badNumber (variableName setting) value cause)

/-- The number that a variable states, or nothing if a base states none either. -/
def maybeNumberOr (vars : Variables) (setting : String) (base : Option UInt64) :
    Except SourceFault (Option UInt64) :=
  match vars (variableName setting) with
  | none => .ok base
  | some _ => (numberOr vars setting 0).map some

/-- The names in a list with commas; blank ones do not count. -/
def listedNames (text : String) : List String :=
  ((Text.fieldsOf ',' text).map Text.trimmed).filter (!·.isEmpty)

/-- A base with the fields replaced for which there is a variable. -/
def overridden (vars : Variables) (base : Config) : Except SourceFault Config := do
  let initialBackoff ← numberOr vars "INITIAL_BACKOFF_MS" base.initialBackoff
  let maxBackoff ← numberOr vars "MAX_BACKOFF_MS" base.maxBackoff
  let flushInterval ← numberOr vars "FLUSH_INTERVAL_MS" base.flushInterval
  let idleInterval ← numberOr vars "IDLE_INTERVAL_MS" base.idleInterval
  let maxInflight ← maybeNumberOr vars "MAX_INFLIGHT_CONFIRMATIONS" base.maxInflight
  let plugins := (vars (variableName "PLUGINS")).elim base.plugins listedNames
  let defaultPolicy := (vars (variableName "DEFAULT_QUEUE_POLICY")).getD base.defaultPolicy
  return { base with
    initialBackoff, maxBackoff, flushInterval, idleInterval, maxInflight, plugins, defaultPolicy }

/-- The base of the overrides: the file that a variable names, or the standard one. -/
def base (readFile : String → Option String) (vars : Variables) : Except SourceFault Config :=
  match vars (variableName "CONFIG") with
  | none => .ok standard
  | some path =>
    match readFile path with
    | none => .error (.unreadable path)
    | some text => ofText text

/-- The usable configuration that variables and the file they name make up. -/
def fromVariables (readFile : String → Option String) (vars : Variables) :
    Except SourceFault Config := do
  (← overridden vars (← base readFile vars)).usable

end Config

end JobAdmission
