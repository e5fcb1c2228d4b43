/-
The configuration of a scheduler, its JSON form, and what makes it usable. Times are milliseconds.
-/
import JobAdmission.Plugin.InTree

namespace JobAdmission

/-- The configuration of a scheduler. -/
structure Config where
  /-- The window after the first failed attempt. -/
  initialBackoff : UInt64
  maxBackoff : UInt64
  /-- The time between two background flushes. -/
  flushInterval : UInt64
  /-- The pause of the loop when no queue has a ready job. -/
  idleInterval : UInt64
  /-- How many confirmations may be under way; left to the host if it is not stated. -/
  maxInflight : Option UInt64
  /-- The enabled plugins, in the order in which they are asked. -/
  plugins : List String
  /-- The order of queues whose definition names none. -/
  defaultPolicy : String
  /-- The queues that exist from the start. -/
  queues : List QueueDef
  /-- The addresses of the handlers of admitted jobs, by kind of job. -/
  extensions : NameMap String
deriving DecidableEq

/-- Why a configuration cannot be used. -/
inductive ConfigFault where
  | zeroInitialBackoff
  | maxBelowInitial
  | zeroFlushInterval
  | zeroIdleInterval
  | zeroInflight
  | noPlugins
  | noDefaultPolicy
  | unnamedQueue
  | duplicateQueue (name : String)
deriving DecidableEq, Repr

/-- The sentence shown for a fault. -/
def ConfigFault.message : ConfigFault → String
  | zeroInitialBackoff => "initial_backoff_ms must be greater than 0"
  | maxBelowInitial => "max_backoff_ms must not be less than initial_backoff_ms"
  | zeroFlushInterval => "flush_interval_ms must be greater than 0"
  | zeroIdleInterval => "idle_interval_ms must be greater than 0"
  | zeroInflight => "max_inflight_confirmations must be greater than 0"
  | noPlugins => "at least one plugin must be enabled"
  | noDefaultPolicy => "default_queue_policy must not be empty"
  | unnamedQueue => "queue names must not be empty"
  | duplicateQueue name => "queue `" ++ name ++ "` defined more than once"

namespace Config

open Json

/-- The configuration that states nothing. -/
def standard : Config :=
  { initialBackoff := 1000, maxBackoff := 4000, flushInterval := 1000, idleInterval := 100,
    maxInflight := none, plugins := standardPlugins, defaultPolicy := Priority.name, queues := [],
    extensions := .empty }

/-! ## Validity -/

/-- Check the names of queues against those that came before. -/
def validateQueues (seen : List String) : List QueueDef → Except ConfigFault Unit
  | [] => .ok ()
  | q :: rest =>
    if q.name.isEmpty then .error .unnamedQueue
    else if seen.contains q.name then .error (.duplicateQueue q.name)
    else validateQueues (q.name :: seen) rest

/-- Check a configuration. The first fault in the order of the fields is reported. -/
def validate (c : Config) : Except ConfigFault Unit :=
  if c.initialBackoff = 0 then .error .zeroInitialBackoff
  else if c.maxBackoff < c.initialBackoff then .error .maxBelowInitial
  else if c.flushInterval = 0 then .error .zeroFlushInterval
  else if c.idleInterval = 0 then .error .zeroIdleInterval
  else if c.maxInflight = some 0 then .error .zeroInflight
  else if c.plugins.isEmpty then .error .noPlugins
  else if c.defaultPolicy.isEmpty then .error .noDefaultPolicy
  else validateQueues [] c.queues

/-! ## Derived settings -/

/-- A number of milliseconds as a span of time. -/
def spanOf (ms : UInt64) : Nat := ms.toNat * nanosPerMilli

/-- The times of the queues. -/
def timing (c : Config) : QueueTiming :=
  { retry := { initial := spanOf c.initialBackoff, limit := spanOf c.maxBackoff }
    flushEvery := spanOf c.flushInterval }

/-- The pause of the loop. -/
def idleEvery (c : Config) : Nat := spanOf c.idleInterval

/-- How many confirmations may be under way on a host with some processors: as stated, or else four
for each processor. -/
def inflightLimit (c : Config) (processors : Nat) : Nat :=
  c.maxInflight.elim (4 * max processors 1) (·.toNat)

/-! ## JSON -/

/-- The members of a configuration. -/
def fieldNames : List String :=
  ["initial_backoff_ms", "max_backoff_ms", "flush_interval_ms", "idle_interval_ms",
    "max_inflight_confirmations", "plugins", "default_queue_policy", "queues", "extensions"]

/-- A configuration as an object. What is left to the host is left out. -/
def toJson (c : Config) : Json :=
  .obj ([("initial_backoff_ms", .int c.initialBackoff.toNat),
      ("max_backoff_ms", .int c.maxBackoff.toNat),
      ("flush_interval_ms", .int c.flushInterval.toNat),
      ("idle_interval_ms", .int c.idleInterval.toNat)]
    ++ optional "max_inflight_confirmations" (fun n => .int n.toNat) c.maxInflight
    ++ [("plugins", .arr (c.plugins.map .str)), ("default_queue_policy", .str c.defaultPolicy),
      ("queues", .arr (c.queues.map QueueDef.toJson)),
      ("extensions", ofMap .str c.extensions)])

/-- Read a configuration. A field that is missing has its standard value. -/
def ofJson? (j : Json) : Option Config := do
  let r ← j.record? fieldNames
  return {
    initialBackoff := ← orElse? r "initial_backoff_ms" standard.initialBackoff uint64?
    maxBackoff := ← orElse? r "max_backoff_ms" standard.maxBackoff uint64?
    flushInterval := ← orElse? r "flush_interval_ms" standard.flushInterval uint64?
    idleInterval := ← orElse? r "idle_interval_ms" standard.idleInterval uint64?
    maxInflight := ← orElse? r "max_inflight_confirmations" none fun n => n.uint64?.map some
    plugins := ← orElse? r "plugins" standard.plugins (list? str?)
    defaultPolicy := ← orElse? r "default_queue_policy" standard.defaultPolicy str?
    queues := ← orElse? r "queues" [] (list? QueueDef.ofJson?)
    extensions := ← orElse? r "extensions" .empty (map? str?) }

end Config

end JobAdmission
