/-
Who may start. What a namespace holds is the sum over its admitted jobs, in whichever order they
are added up, and a registered job may start exactly if for each resource that it asks for what is
held and what it asks for come to no more than the limit. The check subtracts, and subtraction
stops at the ends of the range; that never changes the answer.
-/
import JobAdmission.Proofs.Permission.Standing
import JobAdmission.Proofs.Quota.Recorded

namespace JobAdmission

/-- Taking two amounts off a limit leaves nothing negative if the limit is as large as both. Where
the difference stops at an end of the range it is on the same side of zero. -/
theorem Quantity.sign_room {most held wanted : Quantity} (asking : 0 ≤ wanted.milli)
    (representable : Fits wanted.milli) :
    0 ≤ (most - held - wanted).sign ↔ held.milli + wanted.milli ≤ most.milli := by
  have := representable.2
  unfold sign
  rw [Int.sign_nonneg_iff, sub_milli, sub_milli]
  unfold clamp minMilli maxMilli at *
  omega

/-- A resource list whose amounts are representable and not negative. -/
def Resources.Regular (r : Resources) : Prop :=
  ∀ e ∈ r.entries, 0 ≤ e.2.milli ∧ Quantity.Fits e.2.milli

instance (r : Resources) : Decidable r.Regular :=
  inferInstanceAs (Decidable (∀ e ∈ r.entries, _))

theorem Resources.Regular.nonneg {r : Resources} (h : r.Regular) : r.Nonneg :=
  fun e he => (h e he).1

/-- How many thousandths of a resource a job holds: what it asks for once it is admitted, and
nothing before. -/
def Registration.holds (r : Registration) (resource : String) : Int :=
  if r.phase = .dequeued then (r.resources.amount resource).milli else 0

theorem Registration.holds_nonneg {r : Registration} (h : r.resources.Nonneg) (resource : String) :
    0 ≤ r.holds resource := by
  unfold holds
  split
  · exact h.amount resource
  · exact Int.le_refl 0

namespace Permissions

variable {jobs jobs' : List Registration} {total total' : Resources} {r : Registration}

/-! ## What jobs hold together -/

/-- What some jobs hold together, added up in their order. -/
def heldBy (jobs : List Registration) : Resources :=
  jobs.foldl (fun total r => if r.phase = .dequeued then total.add r.resources else total) .empty

/-- A resource list tells what some jobs hold: it names what an admitted one asks for, and of each
resource as much as they hold together. -/
structure Tallied (jobs : List Registration) (total : Resources) : Prop where
  named : ∀ resource, total.contains resource = true ↔
    ∃ r ∈ jobs, r.phase = .dequeued ∧ r.resources.contains resource = true
  amounts : ∀ resource, (total.amount resource).milli = (jobs.map (·.holds resource)).sum

theorem Tallied.perm (h : Tallied jobs total) (p : jobs.Perm jobs') : Tallied jobs' total where
  named resource := (h.named resource).trans (by simp only [p.mem_iff])
  amounts resource := (h.amounts resource).trans (p.map _).sum_eq

/-- One resource list at most tells what given jobs hold. -/
theorem Tallied.unique (h : Tallied jobs total) (h' : Tallied jobs total') : total = total' :=
  NameMap.ext_getD .zero
    (fun resource => (h.named resource).trans (h'.named resource).symm)
    fun resource => Quantity.eq_of_milli
      ((h.amounts resource).trans (h'.amounts resource).symm)

theorem heldBy_concat (jobs : List Registration) (r : Registration) :
    heldBy (jobs ++ [r]) =
      if r.phase = .dequeued then (heldBy jobs).add r.resources else heldBy jobs := by
  unfold heldBy
  rw [List.foldl_append]
  rfl

theorem sum_holds_nonneg (h : ∀ r ∈ jobs, r.resources.Nonneg) (resource : String) :
    0 ≤ (jobs.map (·.holds resource)).sum := by
  refine List.sum_nonneg fun n hn => ?_
  obtain ⟨r, hr, rfl⟩ := List.mem_map.1 hn
  exact r.holds_nonneg (h r hr) resource

/-- No sum on the way is beyond the range, as none is beyond the last. -/
theorem tallied_heldBy (nonneg : ∀ r ∈ jobs, r.resources.Nonneg)
    (fits : ∀ resource, Quantity.Fits (jobs.map (·.holds resource)).sum) :
    Tallied jobs (heldBy jobs) := by
  induction jobs using List.reverseRecOn with
  | nil => exact ⟨fun _ => iff_of_false nofun nofun, fun _ => rfl⟩
  | append_singleton jobs r ih =>
    obtain ⟨nonneg, last⟩ := List.forall_mem_append.1 nonneg
    have last := List.forall_mem_singleton.1 last
    simp only [List.map_append, List.sum_append, List.map_singleton, List.sum_singleton] at fits
    have before : ∀ resource, Quantity.Fits (jobs.map (·.holds resource)).sum := fun resource => by
      have least := sum_holds_nonneg nonneg resource
      have step := r.holds_nonneg last resource
      have bound := (fits resource).2
      unfold Quantity.Fits Quantity.minMilli
      omega
    have ih := ih nonneg before
    rw [heldBy_concat]
    split
    · rename_i admitted
      refine ⟨fun resource => ?_, fun resource => ?_⟩
      · rw [Resources.contains_add, ih.named]
        simp only [List.mem_append, List.mem_singleton, or_and_right, exists_or,
          exists_eq_left, admitted, true_and]
        exact or_comm
      · have held : r.holds resource = (r.resources.amount resource).milli := if_pos admitted
        have whole := fits resource
        have representable := before resource
        rw [← ih.amounts] at whole representable
        rw [Resources.amount_add _ _ representable, ← held, Quantity.clamp_of_fits whole,
          ih.amounts]
        simp
    · rename_i waiting
      refine ⟨fun resource => ?_, fun resource => ?_⟩
      · rw [ih.named]
        simp [waiting]
      · have held : r.holds resource = 0 := if_neg waiting
        rw [ih.amounts]
        simp [held]

theorem heldBy_perm (nonneg : ∀ r ∈ jobs, r.resources.Nonneg)
    (fits : ∀ resource, Quantity.Fits (jobs.map (·.holds resource)).sum) (p : jobs.Perm jobs') :
    heldBy jobs' = heldBy jobs := by
  have nonneg' : ∀ r ∈ jobs', r.resources.Nonneg := fun r hr => nonneg r (p.mem_iff.2 hr)
  have fits' : ∀ resource, Quantity.Fits (jobs'.map (·.holds resource)).sum := fun resource => by
    rw [← (p.map _).sum_eq]
    exact fits resource
  exact (tallied_heldBy nonneg' fits').unique ((tallied_heldBy nonneg fits).perm p)

/-! ## The check -/

theorem get?_limits (hard : Option Resources) (resource : String) :
    (limits hard).get? resource =
      if resource = "cpu" ∨ resource = "memory" then some ((hard.getD .empty).amount resource)
      else none := by
  show (((NameMap.empty.insert "cpu" _).insert "memory" _).get? resource) = _
  rw [NameMap.get?_insert, NameMap.get?_insert, NameMap.get?_empty]
  by_cases memory : "memory" = resource
  · simp [← memory]
  · by_cases processors : "cpu" = resource
    · simp [← processors]
    · simp [memory, processors, eq_comm (a := resource)]

theorem fits_iff {request held limit : Resources} (regular : request.Regular) :
    fits request held limit = true ↔
      ∀ resource wanted, request.get? resource = some wanted →
        ∃ most, limit.get? resource = some most ∧
          (held.amount resource).milli + wanted.milli ≤ most.milli := by
  unfold fits
  rw [List.all_eq_true, Prod.forall]
  refine forall₂_congr fun resource wanted => ?_
  rw [NameMap.get?_eq_some_iff]
  refine forall_congr' fun asked => ?_
  obtain ⟨asking, representable⟩ := regular _ asked
  rcases limit.get? resource with _ | most
  · simp
  · simp [Quantity.sign_room asking representable]

/-- Given a listing, the check never fails. A job that is not registered asks for nothing. -/
theorem granted_ok (p : Permissions) (quotas : List Quota) (ns id : String) :
    p.granted (.ok quotas) ns id = .ok ((quotas.find? (·.name == quotaName)).any fun quota =>
      fits (((p.find? ns id).map (·.resources)).getD .empty) (p.reserved ns)
        (limits quota.hard)) := by
  unfold granted
  simp only [bind, Except.bind]
  split <;> rename_i found <;> rw [found] <;> rfl

theorem granted_eq_true_iff {p : Permissions} {listing : Except AdmissionError (List Quota)}
    {ns id : String} :
    p.granted listing ns id = .ok true ↔ ∃ quotas quota, listing = .ok quotas ∧
      quotas.find? (·.name == quotaName) = some quota ∧
        ∀ r, p.find? ns id = some r →
          fits r.resources (p.reserved ns) (limits quota.hard) = true := by
  rcases listing with err | quotas
  · exact iff_of_false nofun nofun
  · rw [granted_ok]
    rcases p.find? ns id with _ | r
    · simp [fits, NameMap.empty, Option.isSome_iff_exists]
    · simp [Option.any_eq_true]

theorem granted_eq_error_iff {p : Permissions} {listing : Except AdmissionError (List Quota)}
    {ns id : String} {err : AdmissionError} :
    p.granted listing ns id = .error err ↔ listing = .error err := by
  rcases listing with other | quotas
  · show Except.error other = _ ↔ _
    rw [Except.error.injEq, Except.error.injEq]
  · rw [granted_ok]
    exact iff_of_false nofun nofun

/-! ## After any calls -/

/-- The entries of a namespace, in any order, are the jobs that stand, each once. -/
theorem mem_entries_iff_stands {calls : List PermissionCall} {ns id : String} :
    (id, r) ∈ ((after calls).jobsOf ns).entries ↔ PermissionCall.Stands calls ns id r := by
  rw [← NameMap.get?_eq_some_iff]
  exact find?_after

end Permissions

/-- A call does not register anything but representable amounts that are not negative. -/
def PermissionCall.Regular : PermissionCall → Prop
  | .register _ _ r => r.resources.Regular
  | .unregister _ _ => True
  | .mark _ _ => True

/-- A job asks for what it was registered with. -/
theorem PermissionCall.Stands.regular {calls : List PermissionCall} {ns id : String}
    {r : Registration} (stands : Stands calls ns id r) (regular : ∀ call ∈ calls, call.Regular) :
    r.resources.Regular := by
  obtain ⟨before, first, later, rfl, -, rfl⟩ := stands
  have start : first.resources.Regular := regular (.register ns id first) (by simp)
  unfold marked
  split
  · exact start
  · exact start

namespace Permissions

/-- After any calls, with the jobs of a namespace taken in any order: they are those that stand,
each once. What the namespace holds is added up from them in that order, names what an admitted one
asks for, and is of each resource exactly as much as they hold together. A job may start if and
only if the namespace has a quota named `default` and, for each resource that the job asks for as
it stands, that is a processor or memory resource, and what is held and what is asked for come to
no more than the limit, which is zero where the quota names none. -/
theorem granted_iff_room {calls : List PermissionCall} (regular : ∀ call ∈ calls, call.Regular)
    {ns : String} {order : List (String × Registration)}
    (listed : order.Perm ((after calls).jobsOf ns).entries)
    (fits : ∀ resource, Quantity.Fits (order.map (·.2.holds resource)).sum) :
    (order.map (·.1)).Nodup ∧
    (∀ id r, (id, r) ∈ order ↔ PermissionCall.Stands calls ns id r) ∧
    (after calls).reserved ns = heldBy (order.map (·.2)) ∧
    (∀ resource, ((after calls).reserved ns).contains resource = true ↔
      ∃ id r, (id, r) ∈ order ∧ r.phase = .dequeued ∧ r.resources.contains resource = true) ∧
    (∀ resource, (((after calls).reserved ns).amount resource).milli =
      (order.map (·.2.holds resource)).sum) ∧
    ∀ listing id,
      ((after calls).granted listing ns id = .ok true ↔
        ∃ quotas quota, listing = .ok quotas ∧ quotas.find? (·.name == "default") = some quota ∧
          ∀ r, PermissionCall.Stands calls ns id r →
            ∀ resource wanted, r.resources.get? resource = some wanted →
              (resource = "cpu" ∨ resource = "memory") ∧
              (order.map (·.2.holds resource)).sum + wanted.milli ≤
                ((quota.hard.getD .empty).amount resource).milli) ∧
      ∀ err, (after calls).granted listing ns id = .error err ↔ listing = .error err := by
  have stands : ∀ id r, (id, r) ∈ order ↔ PermissionCall.Stands calls ns id r := fun id r =>
    listed.mem_iff.trans mem_entries_iff_stands
  have nonneg : ∀ r ∈ order.map (·.2), r.resources.Nonneg := fun r hr => by
    obtain ⟨⟨id, r⟩, there, rfl⟩ := List.mem_map.1 hr
    exact (((stands id r).1 there).regular regular).nonneg
  have sums : ∀ resource, ((order.map (·.2)).map (·.holds resource)).sum =
      (order.map (·.2.holds resource)).sum := fun resource => by rw [List.map_map]; rfl
  simp only [← sums] at fits ⊢
  have same : (after calls).reserved ns = heldBy (order.map (·.2)) :=
    heldBy_perm nonneg fits (listed.map (·.2))
  have tallied : Tallied (order.map (·.2)) ((after calls).reserved ns) :=
    same ▸ tallied_heldBy nonneg fits
  have names : (order.map (·.1)).Perm ((after calls).jobsOf ns).names := listed.map (·.1)
  have once : (order.map (·.1)).Nodup := names.nodup_iff.2 (NameMap.nodup_names _)
  refine ⟨once, stands, same, fun resource => (tallied.named resource).trans ?_, tallied.amounts,
    fun listing id => ⟨granted_eq_true_iff.trans ?_, fun err => granted_eq_error_iff⟩⟩
  · simp only [List.mem_map, Prod.exists, exists_eq_right, ← exists_and_right]
    exact exists_comm
  · refine exists₂_congr fun quotas quota => and_congr_right fun _ => and_congr_right fun _ =>
      forall_congr' fun r => ?_
    rw [find?_after]
    refine forall_congr' fun standing => ?_
    rw [fits_iff (standing.regular regular)]
    refine forall₃_congr fun resource wanted _ => ?_
    rw [get?_limits, tallied.amounts]
    by_cases counts : resource = "cpu" ∨ resource = "memory"
    · simp [counts]
    · simp [counts]

/-- A job that asks for so many processors. -/
def asking (name : String) (processors : Int) (phase : Phase) : Registration :=
  ⟨name, NameMap.empty.insert "cpu" (.ofUnits processors), phase⟩

theorem holds_asking (name : String) (processors : Int) (phase : Phase) (resource : String) :
    (asking name processors phase).holds resource =
      if phase = .dequeued ∧ "cpu" = resource then processors * 1000 else 0 := by
  unfold asking Registration.holds
  dsimp only
  rw [Resources.amount_insert]
  by_cases admitted : phase = .dequeued
  · by_cases counts : "cpu" = resource
    · rw [if_pos admitted, if_pos counts, if_pos ⟨admitted, counts⟩]
      rfl
    · rw [if_pos admitted, if_neg counts, if_neg fun both => counts both.2]
      rfl
  · rw [if_neg admitted, if_neg fun both => admitted both.1]

/-- Two jobs are registered, and the first anew for less before it is marked. -/
def fourCalls : List PermissionCall :=
  [.register "n" "a" (asking "a" 3 .dequeued), .register "n" "b" (asking "b" 2 .enqueued),
    .register "n" "a" (asking "a" 2 .enqueued), .mark "n" "a"]

theorem entries_fourCalls : ((after fourCalls).jobsOf "n").entries =
    [("a", asking "a" 2 .dequeued), ("b", asking "b" 2 .enqueued)] := by
  decide +kernel

/-- A quota that allows so many processors. -/
def allowing (processors : Int) : Quota :=
  ⟨"default", "n", some (NameMap.empty.insert "cpu" (.ofUnits processors))⟩

/-- The first job holds two processors, so the second, which asks for two, may start within four
and not within three. -/
theorem granted_iff_room_fourCalls :
    (∀ call ∈ fourCalls, call.Regular) ∧
    (after fourCalls).granted (.ok [allowing 4]) "n" "b" = .ok true ∧
    (after fourCalls).granted (.ok [allowing 3]) "n" "b" ≠ .ok true := by
  have regular : ∀ call ∈ fourCalls, call.Regular := by
    have more : Resources.Regular (NameMap.empty.insert "cpu" (.ofUnits 3)) := by decide
    have less : Resources.Regular (NameMap.empty.insert "cpu" (.ofUnits 2)) := by decide
    simp [fourCalls, PermissionCall.Regular, asking, more, less]
  -- the jobs in the other order than they are stored
  let order := [("b", asking "b" 2 .enqueued), ("a", asking "a" 2 .dequeued)]
  have listed : order.Perm ((after fourCalls).jobsOf "n").entries := by
    rw [entries_fourCalls]
    exact .swap _ _ _
  have sum : ∀ resource, (order.map (·.2.holds resource)).sum =
      if "cpu" = resource then 2000 else 0 := fun resource => by
    simp [order, holds_asking]
  have fits : ∀ resource, Quantity.Fits (order.map (·.2.holds resource)).sum := fun resource => by
    rw [sum]
    split <;> decide
  obtain ⟨-, stands, -, -, -, answer⟩ := granted_iff_room regular listed fits
  refine ⟨regular, (answer _ "b").1.2 ⟨_, _, rfl, rfl, fun r standing resource wanted asked => ?_⟩,
    fun granted => ?_⟩
  · have second : r = asking "b" 2 .enqueued := by simpa [order] using (stands "b" r).2 standing
    rw [second, asking, NameMap.get?_insert] at asked
    split at asked
    · rename_i counts
      cases asked
      cases counts
      exact ⟨.inl rfl, by decide +kernel⟩
    · cases asked
  · obtain ⟨_, _, listing, found, room⟩ := (answer _ "b").1.1 granted
    cases listing
    cases found
    have standing := (stands "b" (asking "b" 2 .enqueued)).1 List.mem_cons_self
    exact absurd (room _ standing "cpu" (.ofUnits 2) rfl).2 (by decide +kernel)

end Permissions

end JobAdmission
