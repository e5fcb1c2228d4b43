/-
Which jobs are registered for permissions, told from the calls alone. A job stands as the last call
that registered it left it, unless a later call forgot it; it counts as admitted if it was
registered so, or was marked since. The registered jobs of a namespace are those that stand.
-/
import JobAdmission.Permission
import JobAdmission.Proofs.Quota.Amounts
import JobAdmission.Proofs.Run
import Mathlib.Data.List.Induction

namespace JobAdmission

/-- A call that changes the registered jobs. -/
inductive PermissionCall where
  | register (ns id : String) (r : Registration)
  | unregister (ns id : String)
  | mark (ns id : String)
deriving DecidableEq

namespace PermissionCall

variable {calls : List PermissionCall} {call : PermissionCall} {ns id : String} {r : Registration}

/-- A call registers a job anew or forgets it, whatever it was registered as. -/
def Renews (ns id : String) : PermissionCall → Prop
  | .register ns' id' _ => ns' = ns ∧ id' = id
  | .unregister ns' id' => ns' = ns ∧ id' = id
  | .mark _ _ => False

/-- The job as it was registered, admitted as well if one of the later calls marked it. -/
def marked (later : List PermissionCall) (ns id : String) (first : Registration) : Registration :=
  if .mark ns id ∈ later then { first with phase := .dequeued } else first

/-- After some calls a job is registered as `r`: one of them registered it, none of those after it
registered it anew or forgot it, and they marked it or did not. -/
def Stands (calls : List PermissionCall) (ns id : String) (r : Registration) : Prop :=
  ∃ before first later, calls = before ++ .register ns id first :: later ∧
    (∀ call ∈ later, ¬ call.Renews ns id) ∧ r = marked later ns id first

theorem marked_concat (later : List PermissionCall) (call : PermissionCall) (ns id : String)
    (first : Registration) :
    marked (later ++ [call]) ns id first = marked [call] ns id (marked later ns id first) := by
  unfold marked
  by_cases now : .mark ns id = call
  · subst now
    by_cases earlier : .mark ns id ∈ later
    · simp [earlier]
    · simp [earlier]
  · simp [now]

theorem not_stands_nil : ¬ Stands [] ns id r := by
  rintro ⟨before, first, later, whole, -⟩
  simp at whole

/-- A job stands after one more call if that registered it, or if it stood before and the call did
not register it anew or forget it. -/
theorem stands_concat : Stands (calls ++ [call]) ns id r ↔
    call = .register ns id r ∨
      ¬ call.Renews ns id ∧ ∃ old, Stands calls ns id old ∧ r = marked [call] ns id old := by
  unfold Stands
  simp only [concat_eq_append_cons]
  constructor
  · rintro ⟨before, first, later, ⟨rfl, rfl, same⟩ | ⟨rest, rfl, rfl⟩, kept, rfl⟩
    · -- the last call is the one that registered the job
      exact .inl same.symm
    · obtain ⟨kept, here⟩ := List.forall_mem_append.1 kept
      exact .inr ⟨here call (List.mem_singleton_self call), _, ⟨before, first, rest, rfl, kept, rfl⟩,
        marked_concat rest call ns id first⟩
  · rintro (rfl | ⟨here, old, ⟨before, first, later, rfl, kept, rfl⟩, rfl⟩)
    · exact ⟨calls, r, [], .inl ⟨rfl, rfl, rfl⟩, by simp, rfl⟩
    · exact ⟨before, first, later ++ [call], .inr ⟨later, rfl, rfl⟩,
        List.forall_mem_append.2 ⟨kept, List.forall_mem_singleton.2 here⟩,
        (marked_concat later call ns id first).symm⟩

end PermissionCall

namespace Permissions

variable {ns id : String} {r : Registration}

theorem jobsOf_register (p : Permissions) (ns' id' : String) (r : Registration) (ns : String) :
    (p.register ns' id' r).jobsOf ns =
      if ns' = ns then (p.jobsOf ns).insert id' r else p.jobsOf ns := by
  unfold jobsOf register
  rw [NameMap.get?_insert]
  split
  · rename_i same
    rw [← same]
    rfl
  · rfl

theorem find?_register (p : Permissions) (ns' id' : String) (r : Registration) (ns id : String) :
    (p.register ns' id' r).find? ns id =
      if ns' = ns ∧ id' = id then some r else p.find? ns id := by
  unfold find?
  rw [jobsOf_register]
  by_cases same : ns' = ns
  · simp [same, NameMap.get?_insert]
  · simp [same]

/-- Dropping a namespace without jobs is no other answer to any question about it. -/
theorem jobsOf_unregister (p : Permissions) (ns' id' ns : String) :
    (p.unregister ns' id').jobsOf ns =
      if ns' = ns then (p.jobsOf ns).erase id' else p.jobsOf ns := by
  unfold jobsOf unregister
  rcases known : p.jobs.get? ns' with _ | jobs
  · dsimp only
    split
    · rename_i same
      rw [← same, known]
      rfl
    · rfl
  · dsimp only
    split
    · rename_i none
      rw [NameMap.get?_erase]
      split
      · rename_i same
        rw [← same, known, Option.getD_some, Option.getD_none]
        exact (NameMap.eq_empty_of_isEmpty none).symm
      · rfl
    · rw [NameMap.get?_insert]
      split
      · rename_i same
        rw [← same, known]
        rfl
      · rfl

theorem find?_unregister (p : Permissions) (ns' id' ns id : String) :
    (p.unregister ns' id').find? ns id =
      if ns' = ns ∧ id' = id then none else p.find? ns id := by
  unfold find?
  rw [jobsOf_unregister]
  by_cases same : ns' = ns
  · simp [same, NameMap.get?_erase]
  · simp [same]

theorem find?_markDequeued (p : Permissions) (ns' id' ns id : String) :
    (p.markDequeued ns' id').2.find? ns id =
      if ns' = ns ∧ id' = id then (p.find? ns id).map ({ · with phase := .dequeued })
      else p.find? ns id := by
  unfold markDequeued
  rcases known : p.find? ns' id' with _ | r
  · dsimp only
    split
    · rename_i same
      rw [← same.1, ← same.2, known]
      rfl
    · rfl
  · dsimp only
    rw [find?_register]
    split
    · rename_i same
      rw [← same.1, ← same.2, known]
      rfl
    · rfl

/-- The registered jobs after a call. -/
def call (p : Permissions) : PermissionCall → Permissions
  | .register ns id r => p.register ns id r
  | .unregister ns id => p.unregister ns id
  | .mark ns id => (p.markDequeued ns id).2

/-- The registered jobs after some calls, of which there were none before. -/
def after (calls : List PermissionCall) : Permissions := calls.foldl call empty

/-- A job is found as it stands. -/
theorem find?_after {calls : List PermissionCall} :
    (after calls).find? ns id = some r ↔ PermissionCall.Stands calls ns id r := by
  induction calls using List.reverseRecOn generalizing r with
  | nil => exact iff_of_false nofun PermissionCall.not_stands_nil
  | append_singleton calls c ih =>
    rw [PermissionCall.stands_concat, after, List.foldl_append]
    show ((after calls).call c).find? ns id = some r ↔ _
    simp only [← ih]
    cases c with
    | register ns' id' r' =>
      show ((after calls).register ns' id' r').find? ns id = some r ↔ _
      rw [find?_register]
      by_cases same : ns' = ns ∧ id' = id
      · simp [same, PermissionCall.Renews]
      · have other : PermissionCall.register ns' id' r' ≠ .register ns id r := fun eq => by
          cases eq
          exact same ⟨rfl, rfl⟩
        simp [same, other, PermissionCall.Renews, PermissionCall.marked]
    | unregister ns' id' =>
      show ((after calls).unregister ns' id').find? ns id = some r ↔ _
      rw [find?_unregister]
      by_cases same : ns' = ns ∧ id' = id
      · simp [same, PermissionCall.Renews]
      · simp [same, PermissionCall.Renews, PermissionCall.marked]
    | mark ns' id' =>
      show ((after calls).markDequeued ns' id').2.find? ns id = some r ↔ _
      rw [find?_markDequeued]
      by_cases same : ns' = ns ∧ id' = id
      · simp [same, PermissionCall.Renews, PermissionCall.marked, Option.map_eq_some_iff,
          eq_comm (a := r)]
      · have other : ¬ (ns = ns' ∧ id = id') := fun eq => same ⟨eq.1.symm, eq.2.symm⟩
        simp [same, other, PermissionCall.Renews, PermissionCall.marked]

end Permissions

end JobAdmission
