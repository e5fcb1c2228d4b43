/-
Plain orders of jobs and of queues, for plugins that order by something other than priority.
-/
import JobAdmission.Plugin.Basic

namespace JobAdmission

namespace JobOrder

/-- By the names of the jobs. -/
def byName : JobOrder := fun a b => a.job.name < b.job.name

/-- The one seen last goes first. -/
def latestFirst : JobOrder := fun a b => b.firstSeen < a.firstSeen

/-- The one with the fewest failed attempts goes first. -/
def byAttempts : JobOrder := fun a b => a.attempts < b.attempts

/-- No job precedes another. -/
def none : JobOrder := fun _ _ => false

/-- The order of a name; a name that is not known stands for none. -/
def named : String → JobOrder
  | "name" => byName
  | "lifo" => latestFirst
  | "attempts" => byAttempts
  | _ => none

end JobOrder

namespace QueueOrder

/-- Queues of lower priority first. -/
def byPriority : QueueOrder := fun a b => a.priority < b.priority

/-- The greatest name first. -/
def byNameDescending : QueueOrder := fun a b => b.name < a.name

/-- No queue precedes another. -/
def none : QueueOrder := fun _ _ => false

/-- The order of a name; a name that is not known stands for none. -/
def named : String → QueueOrder
  | "priority_asc" => byPriority
  | "name_desc" => byNameDescending
  | _ => none

end QueueOrder

end JobAdmission
