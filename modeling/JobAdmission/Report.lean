/-
Reports: what a service shows as JSON of its queues, of the candidates in them and of the answers
and decisions about them. Times are shown in whole milliseconds.
-/
import JobAdmission.Audit
import JobAdmission.Config.Basic
import JobAdmission.Job.Key
import JobAdmission.Queue.Set
import JobAdmission.Release.Recorder

namespace JobAdmission

open Json

/-- A time or a span in whole milliseconds. -/
def millisOf (ns : Nat) : Nat := ns / nanosPerMilli

namespace AdmissionError

/-- The report on an error. -/
def report (e : AdmissionError) : Json :=
  .obj [("error", .str e.kind), ("message", .str e.message)]

end AdmissionError

namespace Quantity

/-- The report on a quantity. -/
def report (q : Quantity) : Json :=
  .obj [("milli", digits q.milli), ("value", digits q.value), ("text", .str q.render),
    ("signum", .int q.sign), ("is_zero", .bool q.isZero)]

end Quantity

namespace Job

/-- The report on a job. -/
def report (j : Job) : Json :=
  .obj [("json", j.toJson), ("effective_priority", .int j.effectivePriority.toInt),
    ("queue_name", .str j.queueName), ("queue_key", .str j.key),
    ("serialize_key", .str j.identityText)]

end Job

namespace JobKey

/-- The report on an identity. -/
def report (k : JobKey) : Json :=
  .obj [("job_type", .str k.kind), ("namespace", .str k.ns), ("name", .str k.name),
    ("uid", orNull .str k.uid), ("text", .str k.text), ("unit", k.toJob.report)]

end JobKey

namespace Candidate

/-- The report on a candidate. -/
def report (c : Candidate) : Json :=
  .obj [("key", .str c.key), ("unit", c.job.toJson), ("attempts", .ofNat c.attempts),
    ("timestamp_ms", .ofNat (millisOf c.since)), ("initial_ms", .ofNat (millisOf c.firstSeen))]

end Candidate

namespace Verdict

/-- The report on an answer. -/
def report (v : Verdict) : Json :=
  .obj [("code", .str v.code.name), ("message", .str v.message), ("success", .bool v.isSuccess),
    ("text", .str v.text)]

end Verdict

namespace Decision

/-- The report on a decision. -/
def report (d : Decision) : Json :=
  .obj [("unit", .str d.key), ("queue", .str d.queue), ("action", .str d.action.name),
    ("message", orNull .str d.message)]

end Decision

namespace Recorder

/-- The report on what a handler was told. -/
def report (r : Recorder) : Json :=
  .obj [("dequeued", ofStrings r.dequeued), ("released", ofStrings r.released)]

end Recorder

namespace QueueDef

/-- The report on a definition. -/
def report (d : QueueDef) : List (String × Json) :=
  [("name", .str d.name), ("priority", .int d.priority.toInt), ("spec", d.toJson)]

end QueueDef

namespace JobQueue

/-- The report on how a queue was made. -/
def settings (q : JobQueue) : Json :=
  .obj (q.definition.report ++
    [("initial_ms", .ofNat (millisOf q.timing.retry.initial)),
      ("max_ms", .ofNat (millisOf q.timing.retry.limit)),
      ("flush_ms", .ofNat (millisOf q.timing.flushEvery))])

/-- The report on what a queue holds. -/
def report (q : JobQueue) : Json :=
  .obj [("active", .ofNat q.readyCount), ("backoff", .ofNat q.delayedCount),
    ("closed", .bool q.closed), ("top", orNull (fun c => .str c.key) q.top?)]

/-- The report on a queue among others. -/
def reportLine (q : JobQueue) : Json :=
  .arr [.str q.name, .int q.definition.priority.toInt, .ofNat q.readyCount, .ofNat q.delayedCount,
    .bool q.closed]

end JobQueue

namespace QueueSet

/-- The report on the queues of a set in the order in which they are visited. -/
def report (s : QueueSet) : Json := .arr (s.visited.map fun e => e.2.reportLine)

end QueueSet

namespace Config

/-- The report on a configuration, given what to show for the limit of confirmations. -/
def report (c : Config) (limit : Json) : Json :=
  let members := match { c with maxInflight := none }.toJson with
    | .obj members => members
    | _ => []
  .obj [("config", .obj (members ++ [("max_inflight_confirmations", limit)])),
    ("backoff_initial_ms", digits (millisOf c.timing.retry.initial)),
    ("backoff_max_ms", digits (millisOf c.timing.retry.limit)),
    ("flush_interval_ms", digits (millisOf c.timing.flushEvery)),
    ("idle_interval_ms", digits (millisOf c.idleEvery))]

end Config

end JobAdmission
