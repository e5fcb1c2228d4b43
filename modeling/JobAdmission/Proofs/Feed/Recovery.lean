/-
The ledger after a restart. It starts from nothing and is filled by the job feed, which tells of
each admitted job again, in any order and more than once as it comes. In the end the ledger is the
same each time: it records the admitted jobs, each with what it asks for, and the queues were left
alone.
-/
import JobAdmission.Proofs.Feed.Redelivery
import JobAdmission.Proofs.Quota.Recorded

namespace JobAdmission

namespace Scheduling

variable {E : Type} {w : Wiring E} {slot : LedgerSlot E} {quotas : QuotaListing E}

/-- The scheduler after the job feed told of some jobs, one after the other. -/
def deliver (w : Wiring E) (jobs : List Job) (s : SchedulerState E) : SchedulerState E :=
  jobs.foldl (fun s job => (applyJobEvent w (.added job) s).2) s

/-- An admitted job concerns the reservations alone. -/
theorem applyJobEvent_admitted {job : Job} (admitted : job.phase = .dequeued)
    (s : SchedulerState E) :
    (applyJobEvent w (.added job) s).2 = (reserveAdmitted w job s).2 := by
  show (addJob w job s).2 = _
  unfold addJob
  rw [admitted]
  rfl

section

variable (law : slot.Lawful) (standard : w.pipeline = .standard slot quotas)

include law standard

/-- Admitted jobs are entered in the ledger in the order of their delivery. -/
theorem deliver_spec {deliveries : List Job} (admitted : ∀ job ∈ deliveries, job.phase = .dequeued)
    (s : SchedulerState E) :
    slot.get (deliver w deliveries s).env = deliveries.foldl Ledger.enter (slot.get s.env) ∧
      (deliver w deliveries s).queues = s.queues := by
  induction deliveries generalizing s with
  | nil => exact ⟨rfl, rfl⟩
  | cons job deliveries ih =>
    obtain ⟨here, later⟩ := List.forall_mem_cons.1 admitted
    obtain ⟨ledger, queues⟩ := ih later (reserveAdmitted w job s).2
    unfold deliver at ledger queues ⊢
    rw [List.foldl_cons, List.foldl_cons, applyJobEvent_admitted here]
    rw [ledger_reserveAdmitted law standard] at ledger
    exact ⟨ledger, queues⟩

end

/-- With the standard plugins: however the job feed tells of some admitted jobs of distinct keys,
whose requests are not negative and can be summed up, a ledger that was empty is the same in the
end. It holds the keys of these jobs and, of each resource in each namespace, the sum of what they
ask for. No queue is touched. -/
theorem recovered_ledger (law : slot.Lawful)
    (built : ∃ env, (Pipeline.build (inTreeCatalog (QuotaPlugin.factory slot)) quotas
      standardPlugins env).1 = .ok w.pipeline)
    {jobs : List Job} (admitted : ∀ job ∈ jobs, job.phase = .dequeued)
    (distinct : (jobs.map Job.key).Nodup) (nonneg : ∀ job ∈ jobs, job.resources.Nonneg)
    (fits : ∀ ns resource, Quantity.Fits (jobs.map (·.asks ns resource)).sum) :
    ∃ l : Ledger, (∀ key, l.isReserved key = true ↔ ∃ job ∈ jobs, job.key = key) ∧
      (∀ ns resource, l.total ns resource = (jobs.map (·.asks ns resource)).sum) ∧
      ∀ (s : SchedulerState E) (deliveries : List Job), slot.get s.env = .empty →
        (∀ job, job ∈ deliveries ↔ job ∈ jobs) →
        slot.get (deliver w deliveries s).env = l ∧
          (deliver w deliveries s).queues = s.queues := by
  obtain ⟨env, built⟩ := built
  rw [Pipeline.build_standard] at built
  have standard : w.pipeline = .standard slot quotas := (Except.ok.inj built).symm
  have recorded := Ledger.recorded_enterAll ⟨nonneg, fits⟩ distinct fun job => Iff.rfl
  refine ⟨_, recorded.holders, recorded.totals, fun s deliveries empty same => ?_⟩
  obtain ⟨ledger, queues⟩ :=
    deliver_spec law standard (fun job hj => admitted job ((same job).1 hj)) s
  rw [empty] at ledger
  refine ⟨ledger.trans ?_, queues⟩
  exact (Ledger.recorded_enterAll ⟨nonneg, fits⟩ distinct same).unique recorded

/-- Two admitted jobs told of in different orders, one of them twice. -/
theorem recovered_ledger_of_two :
    let x : Job := { (Candidate.wanting "x" 1).job with phase := .dequeued }
    let y : Job := { (Candidate.wanting "y" 2).job with phase := .dequeued }
    let s := Site.idling (QueueSet.new Site.byPriority) 0 .empty
    let ledgerOf := fun jobs => Site.sharedLedger.get (deliver Site.standard jobs s).env
    ledgerOf [x, y, x] = ledgerOf [y, x] ∧ (ledgerOf [y, x]).total "n" "cpu" = 3000 := by
  intro x y s ledgerOf
  have asks : ∀ ns resource, ([x, y].map (·.asks ns resource)).sum =
      if "n" = ns ∧ "cpu" = resource then 3000 else 0 := by
    intro ns resource
    show (Candidate.wanting "x" 1).asks ns resource +
      ((Candidate.wanting "y" 2).asks ns resource + 0) = _
    rw [Candidate.asks_wanting, Candidate.asks_wanting]
    split <;> rfl
  have fits : ∀ ns resource, Quantity.Fits ([x, y].map (·.asks ns resource)).sum := by
    intro ns resource
    rw [asks]
    split <;> decide
  obtain ⟨l, -, totals, same⟩ := recovered_ledger Site.lawful_sharedLedger
    (show ∃ env, (Pipeline.build (inTreeCatalog (QuotaPlugin.factory Site.sharedLedger))
      Site.listQuotas standardPlugins env).1 = .ok Site.standard.pipeline from ⟨.empty, rfl⟩)
    (show ∀ job ∈ [x, y], job.phase = .dequeued by decide) (by decide) (by decide) fits
  have thrice : ∀ x y job : Job, job ∈ [x, y, x] ↔ job ∈ [x, y] := fun x y job => by
    simp only [List.mem_cons]
    tauto
  have turned : ∀ x y job : Job, job ∈ [y, x] ↔ job ∈ [x, y] := fun x y job => by
    simp only [List.mem_cons]
    tauto
  obtain ⟨first, -⟩ := same s [x, y, x] rfl (thrice x y)
  obtain ⟨second, -⟩ := same s [y, x] rfl (turned x y)
  have sum := (totals "n" "cpu").trans (asks "n" "cpu")
  rw [if_pos ⟨rfl, rfl⟩, ← second] at sum
  exact ⟨first.trans second.symm, sum⟩

end Scheduling

end JobAdmission
