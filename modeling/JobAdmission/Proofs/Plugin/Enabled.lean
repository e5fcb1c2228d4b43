/-
The enabled plugins. They are made one after the other; a pipeline comes of them exactly if every
name is registered, every plugin can be made, and one entry of the list, not more, orders queues.
The pipeline asks the filters in the enabled order up to the first that refuses, and the
reservations likewise; all of the reservations are asked to give back, whatever they answer.
-/
import JobAdmission.Plugin.Pipeline
import JobAdmission.Proofs.NameMap
import JobAdmission.Proofs.Plugin.Kept
import JobAdmission.Proofs.Scheduler.Exits
import Mathlib.Data.List.Count

namespace JobAdmission

variable {E : Type}

/-! ## Consultations one after the other -/

/-- Consultations made one after the other, with what they answer and leave. -/
inductive Consulted (c : Candidate) : List (Consultation E) → E → List Verdict → E → Prop where
  | none (env : E) : Consulted c [] env [] env
  | more (ask : Consultation E) (asks : List (Consultation E)) (env env' : E)
      (verdicts : List Verdict) (rest : Consulted c asks (ask c env).2 verdicts env') :
      Consulted c (ask :: asks) env ((ask c env).1 :: verdicts) env'

/-- Consultations made in turn: all of them if all accept, and else those up to the first that
refuses, whose answer it is. -/
inductive ConsultedInTurn (c : Candidate) (asks : List (Consultation E)) (env : E) :
    Verdict × E → Prop where
  | accepted (verdicts : List Verdict) (env' : E) (asked : Consulted c asks env verdicts env')
      (all : ∀ v ∈ verdicts, v.isSuccess = true) : ConsultedInTurn c asks env (.success, env')
  | refused (before : List (Consultation E)) (ask : Consultation E)
      (after : List (Consultation E)) (split : asks = before ++ ask :: after)
      (verdicts : List Verdict) (v : Verdict) (env' : E)
      (asked : Consulted c (before ++ [ask]) env (verdicts ++ [v]) env')
      (all : ∀ u ∈ verdicts, u.isSuccess = true) (stop : v.isSuccess = false) :
      ConsultedInTurn c asks env (v, env')

namespace Pipeline

theorem consulted_askInTurn (asks : List (Consultation E)) (c : Candidate) (env : E) :
    ConsultedInTurn c asks env (askInTurn asks c env) := by
  induction asks generalizing env with
  | nil => exact .accepted [] env (.none env) (by simp)
  | cons ask rest ih =>
    rw [askInTurn_cons]
    split
    · rename_i accept
      have later := ih (ask c env).2
      generalize askInTurn rest c (ask c env).2 = answer at later
      cases later with
      | accepted verdicts env' asked all =>
        exact .accepted _ env' (.more ask rest env env' verdicts asked)
          (List.forall_mem_cons.2 ⟨accept, all⟩)
      | refused before last after split verdicts v env' asked all stop =>
        exact .refused (ask :: before) last after (by rw [split, List.cons_append])
          ((ask c env).1 :: verdicts) v env' (.more ask _ env env' _ asked)
          (List.forall_mem_cons.2 ⟨accept, all⟩) stop
    · rename_i refuse
      exact .refused [] ask rest rfl [] (ask c env).1 _ (.more ask [] env _ [] (.none _)) (by simp)
        (by simpa using refuse)

theorem consulted_askAll (asks : List (Consultation E)) (c : Candidate) (env : E) :
    ∃ verdicts, Consulted c asks env verdicts (askAll asks c env).2 := by
  induction asks generalizing env with
  | nil => exact ⟨[], .none env⟩
  | cons ask rest ih =>
    obtain ⟨verdicts, asked⟩ := ih (ask c env).2
    exact ⟨_, .more ask rest env _ verdicts asked⟩

end Pipeline

/-! ## Making the plugins -/

/-- The plugins of the enabled names are made one after the other: every name is registered, and
the plugin registered under it can be made. -/
inductive Made (catalog : Catalog E) (quotas : QuotaListing E) :
    List String → E → List (String × Plugin E) → E → Prop where
  | none (env : E) : Made catalog quotas [] env [] env
  | more (name : String) (names : List String) (make : Factory E) (p : Plugin E)
      (made : List (String × Plugin E)) (env env₁ env' : E)
      (registered : catalog.factory? name = some make) (success : make quotas env = (.ok p, env₁))
      (rest : Made catalog quotas names env₁ made env') :
      Made catalog quotas (name :: names) env ((name, p) :: made) env'

theorem Made.unique {catalog : Catalog E} {quotas : QuotaListing E} {names : List String}
    {env env₁ env₂ : E} {made₁ made₂ : List (String × Plugin E)}
    (h₁ : Made catalog quotas names env made₁ env₁)
    (h₂ : Made catalog quotas names env made₂ env₂) : made₁ = made₂ ∧ env₁ = env₂ := by
  induction h₁ generalizing made₂ with
  | none env =>
    cases h₂
    exact ⟨rfl, rfl⟩
  | more name names make p made env next env' registered success rest ih =>
    cases h₂ with
    | more _ _ _ _ _ _ _ _ registered' success' rest' =>
      rw [registered] at registered'
      cases registered'
      rw [success] at success'
      cases success'
      obtain ⟨rfl, rfl⟩ := ih rest'
      exact ⟨rfl, rfl⟩

namespace PipelineParts

variable {catalog : Catalog E} {quotas : QuotaListing E} {parts parts' : PipelineParts E}

/-- The first order of queues among the plugins. -/
def firstOrder (made : List (String × Plugin E)) : Option (String × QueueOrder) :=
  made.findSome? fun m => m.2.queueOrder.map fun o => (m.2.name, o)

/-- Enter the orders of jobs of the plugins by their enabled names; of two under one name the later
counts. -/
def withJobOrders (orders : NameMap JobOrder) (made : List (String × Plugin E)) :
    NameMap JobOrder :=
  made.foldl (fun orders m => m.2.jobOrder.elim orders (orders.insert m.1)) orders

/-- The filters of the plugins, in their order. -/
def filtersOf (made : List (String × Plugin E)) : List (String × Consultation E) :=
  made.filterMap fun m => m.2.filter.map fun f => (m.2.name, f)

/-- The reservations of the plugins, in their order. -/
def reservationsOf (made : List (String × Plugin E)) : List (String × Reservation E) :=
  made.filterMap fun m => m.2.reservation.map fun r => (m.2.name, r)

/-- Everything that plugins offer, filed behind what is filed already. -/
def withAll (parts : PipelineParts E) (made : List (String × Plugin E)) : PipelineParts E where
  queueOrder := parts.queueOrder <|> firstOrder made
  jobOrders := withJobOrders parts.jobOrders made
  filters := parts.filters ++ filtersOf made
  reservations := parts.reservations ++ reservationsOf made

/-- How many of the plugins order queues. -/
def orderCount (made : List (String × Plugin E)) : Nat := made.countP (·.2.queueOrder.isSome)

/-- How many orders of queues are filed. -/
def orders (parts : PipelineParts E) : Nat := parts.queueOrder.toList.length

theorem orderCount_cons (m : String × Plugin E) (made : List (String × Plugin E)) :
    orderCount (m :: made) = orderCount [m] + orderCount made := by
  unfold orderCount
  rw [← List.singleton_append, List.countP_append]

theorem withAll_nil (parts : PipelineParts E) : parts.withAll [] = parts := by
  simp [withAll, firstOrder, withJobOrders, filtersOf, reservationsOf]

/-- Filing some and then others is filing all of them. -/
theorem withAll_append (parts : PipelineParts E) (made later : List (String × Plugin E)) :
    (parts.withAll made).withAll later = parts.withAll (made ++ later) := by
  have queueOrder : ((parts.queueOrder <|> firstOrder made) <|> firstOrder later) =
      (parts.queueOrder <|> firstOrder (made ++ later)) := by
    unfold firstOrder
    rw [List.findSome?_append]
    cases parts.queueOrder <;> simp
  have jobOrders : withJobOrders (withJobOrders parts.jobOrders made) later =
      withJobOrders parts.jobOrders (made ++ later) := List.foldl_append.symm
  unfold withAll
  dsimp only
  rw [queueOrder, jobOrders]
  unfold filtersOf reservationsOf
  rw [List.filterMap_append, List.filterMap_append, List.append_assoc, List.append_assoc]

theorem firstOrder_singleton (name : String) (p : Plugin E) :
    firstOrder [(name, p)] = p.queueOrder.map fun o => (p.name, o) := by
  simp [firstOrder]

theorem filtersOf_singleton (name : String) (p : Plugin E) :
    filtersOf [(name, p)] = (p.filter.map fun f => (p.name, f)).toList := by
  unfold filtersOf
  cases offered : p.filter <;> simp [offered]

theorem reservationsOf_singleton (name : String) (p : Plugin E) :
    reservationsOf [(name, p)] = (p.reservation.map fun r => (p.name, r)).toList := by
  unfold reservationsOf
  cases offered : p.reservation <;> simp [offered]

theorem withJobOrders_singleton (orders : NameMap JobOrder) (name : String) (p : Plugin E) :
    withJobOrders orders [(name, p)] = p.jobOrder.elim orders (orders.insert name) := rfl

theorem file_eq (parts : PipelineParts E) (name : String) (p : Plugin E) :
    parts.file name p =
      if p.queueOrder.isSome && parts.queueOrder.isSome then .error (.secondQueueOrder name)
      else .ok (parts.withAll [(name, p)]) := by
  unfold file withAll
  rw [firstOrder_singleton, filtersOf_singleton, reservationsOf_singleton, withJobOrders_singleton]
  cases p.jobOrder <;> rfl

/-- A plugin is filed unless that makes two orders of queues. -/
theorem file_cases (parts : PipelineParts E) (name : String) (p : Plugin E) :
    (1 < parts.orders + orderCount [(name, p)] ∧
        parts.file name p = .error (.secondQueueOrder name)) ∨
      parts.file name p = .ok (parts.withAll [(name, p)]) ∧
        (parts.withAll [(name, p)]).orders = parts.orders + orderCount [(name, p)] := by
  have count : orderCount [(name, p)] = p.queueOrder.toList.length := by
    unfold orderCount
    cases offered : p.queueOrder <;> simp [offered]
  have filed : (parts.withAll [(name, p)]).orders =
      (parts.queueOrder <|> p.queueOrder.map fun o => (p.name, o)).toList.length := by
    unfold orders withAll
    rw [firstOrder_singleton]
  rw [file_eq, count, filed]
  unfold orders
  rcases p.queueOrder with _ | order
  · exact .inr ⟨rfl, by cases parts.queueOrder <;> rfl⟩
  · rcases parts.queueOrder with _ | known
    · exact .inr ⟨rfl, rfl⟩
    · exact .inl ⟨Nat.lt_succ_self 1, rfl⟩

theorem fileAll_cons (parts : PipelineParts E) (name : String) (rest : List String) (env : E) :
    fileAll catalog quotas parts (name :: rest) env =
      match catalog.factory? name with
      | none => (.error (.unknownPlugin name), env)
      | some make =>
        match make quotas env with
        | (.error cause, env) => (.error (.pluginFailed name cause), env)
        | (.ok p, env) =>
          match parts.file name p with
          | .error fault => (.error fault, env)
          | .ok parts => fileAll catalog quotas parts rest env := by
  rw [fileAll]
  rcases catalog.factory? name with _ | make
  · rfl
  · show (make quotas >>= _) env = _
    rw [Scheduling.bind_run]
    dsimp only
    rcases make quotas env with ⟨cause | p, env₁⟩
    · rfl
    · dsimp only
      rcases parts.file name p with fault | filed <;> rfl

/-- Making and filing succeeds exactly if all can be made and no second order of queues turns up,
and then everything is filed. -/
theorem fileAll_eq_ok_iff (names : List String) (parts parts' : PipelineParts E) (env env' : E) :
    fileAll catalog quotas parts names env = (.ok parts', env') ↔
      ∃ made, Made catalog quotas names env made env' ∧ parts.orders + orderCount made ≤ 1 ∧
        parts' = parts.withAll made := by
  induction names generalizing parts env with
  | nil =>
    have single : parts.orders ≤ 1 := by
      unfold orders
      cases parts.queueOrder <;> simp
    constructor
    · intro h
      cases h
      exact ⟨[], .none env', single, (withAll_nil parts').symm⟩
    · rintro ⟨made, is, -, rfl⟩
      cases is
      rw [withAll_nil]
      rfl
  | cons name rest ih =>
    rw [fileAll_cons]
    constructor
    · intro h
      rcases registered : catalog.factory? name with _ | make
      · rw [registered] at h
        cases h
      · rw [registered] at h
        dsimp only at h
        rcases success : make quotas env with ⟨cause | p, env₁⟩
        · rw [success] at h
          cases h
        · rw [success] at h
          dsimp only at h
          rcases file_cases parts name p with ⟨-, refused⟩ | ⟨filed, more⟩
          · rw [refused] at h
            cases h
          · rw [filed] at h
            obtain ⟨made, is, single, whole⟩ := (ih _ env₁).1 h
            rw [withAll_append] at whole
            refine ⟨(name, p) :: made, .more name rest make p made env env₁ env' registered success
              is, ?_, whole⟩
            rw [orderCount_cons]
            omega
    · rintro ⟨made, is, single, rfl⟩
      cases is with
      | more _ _ make p made _ env₁ _ registered success is =>
        rw [orderCount_cons] at single
        rw [registered]
        dsimp only
        rw [success]
        dsimp only
        rcases file_cases parts name p with ⟨many, -⟩ | ⟨filed, more⟩
        · omega
        · rw [filed]
          exact (ih _ env₁).2 ⟨made, is, by omega, (withAll_append parts [(name, p)] made).symm⟩

theorem isSome_firstOrder (made : List (String × Plugin E)) :
    (firstOrder made).isSome = true ↔ 0 < orderCount made := by
  unfold firstOrder orderCount
  rw [List.findSome?_isSome_iff, List.countP_pos_iff]
  simp only [Option.isSome_map]

theorem finish_eq_ok_iff (parts : PipelineParts E) (p : Pipeline E) :
    parts.finish = .ok p ↔
      ∃ order, parts.queueOrder = some order ∧ p = { parts with queueOrder := order } := by
  unfold finish
  rcases parts.queueOrder with _ | order
  · simp
  · simp [eq_comm]

theorem contains_withJobOrders (orders : NameMap JobOrder) (made : List (String × Plugin E))
    (name : String) :
    (withJobOrders orders made).contains name = true ↔
      orders.contains name = true ∨ ∃ p, (name, p) ∈ made ∧ p.jobOrder.isSome = true := by
  induction made generalizing orders with
  | nil => simp [withJobOrders]
  | cons m rest ih =>
    obtain ⟨other, p⟩ := m
    have entered : (p.jobOrder.elim orders (orders.insert other)).contains name = true ↔
        orders.contains name = true ∨ name = other ∧ p.jobOrder.isSome = true := by
      cases p.jobOrder with
      | none => simp
      | some order => simp [NameMap.contains_insert, or_comm]
    have split : (∃ q, (name, q) ∈ (other, p) :: rest ∧ q.jobOrder.isSome = true) ↔
        (name = other ∧ p.jobOrder.isSome = true) ∨
          ∃ q, (name, q) ∈ rest ∧ q.jobOrder.isSome = true := by
      simp only [List.mem_cons, Prod.mk.injEq, or_and_right, exists_or, and_assoc, exists_and_left,
        exists_eq_left]
    rw [split, ← or_assoc, ← entered]
    exact ih _

end PipelineParts

namespace Pipeline

open PipelineParts

variable {catalog : Catalog E} {quotas : QuotaListing E} {enabled : List String} {env env' : E}
  {p : Pipeline E} {made : List (String × Plugin E)}

/-- A pipeline offers what the plugins offer. -/
structure Offers (p : Pipeline E) (made : List (String × Plugin E)) : Prop where
  queueOrder : firstOrder made = some p.queueOrder
  jobOrders : p.jobOrders = withJobOrders .empty made
  filters : p.filters = filtersOf made
  reservations : p.reservations = reservationsOf made

theorem build_eq_ok_iff : build catalog quotas enabled env = (.ok p, env') ↔
    ∃ made, Made catalog quotas enabled env made env' ∧ orderCount made = 1 ∧ p.Offers made := by
  have unfolded : build catalog quotas enabled env =
      ((fileAll catalog quotas .empty enabled env).1.bind finish,
        (fileAll catalog quotas .empty enabled env).2) := rfl
  have filed (parts : PipelineParts E) :
      fileAll catalog quotas .empty enabled env = (.ok parts, env') ↔ _ :=
    fileAll_eq_ok_iff enabled .empty parts env env'
  rw [unfolded]
  constructor
  · intro h
    rcases run : fileAll catalog quotas .empty enabled env with ⟨fault | parts, env₁⟩
    · rw [run] at h
      cases h
    · rw [run] at h
      obtain ⟨finished, rfl⟩ := Prod.mk.inj h
      obtain ⟨made, is, single, rfl⟩ := (filed parts).1 run
      obtain ⟨order, offered, rfl⟩ := (finish_eq_ok_iff _ _).1 finished
      have first : firstOrder made = some order := offered
      have one : 0 < orderCount made :=
        (isSome_firstOrder made).1 (Option.isSome_iff_exists.2 ⟨order, first⟩)
      have none : (empty : PipelineParts E).orders = 0 := rfl
      exact ⟨made, is, by omega, first, rfl, rfl, rfl⟩
  · rintro ⟨made, is, single, offers⟩
    have run := (filed (empty.withAll made)).2 ⟨made, is, Nat.le_of_eq (by
      rw [single]
      rfl), rfl⟩
    rw [run]
    refine congrArg (·, env') ((finish_eq_ok_iff _ _).2 ⟨_, offers.queueOrder, ?_⟩)
    obtain ⟨order, jobOrders, filters, reservations⟩ := p
    obtain ⟨-, rfl, rfl, rfl⟩ := offers
    rfl

theorem Offers.contains_jobOrders (h : p.Offers made) (name : String) :
    p.jobOrders.contains name = true ↔ ∃ q, (name, q) ∈ made ∧ q.jobOrder.isSome = true := by
  rw [h.jobOrders, contains_withJobOrders]
  exact or_iff_right (by rw [show NameMap.contains .empty name = false from rfl]; exact nofun)

theorem Offers.map_filters (h : p.Offers made) :
    p.filters.map (·.2) = made.filterMap (·.2.filter) := by
  rw [h.filters, filtersOf, List.map_filterMap]
  simp only [Option.map_map, Function.comp_def, Option.map_id']

theorem Offers.map_reservations {α : Type} (h : p.Offers made) (f : Reservation E → α) :
    p.reservations.map (fun r => f r.2) = made.filterMap fun m => m.2.reservation.map f := by
  rw [h.reservations, reservationsOf, List.map_filterMap]
  simp only [Option.map_map, Function.comp_def]

/-- A pipeline comes of the enabled names exactly if every name is registered, every plugin can be
made, and one of them orders queues, counted as often as it is enabled. Its filters are those of
the plugins in the enabled order, asked up to the first that refuses, and so are its reservations;
told to give a job back, it tells every one of them. -/
theorem built_iff_and_asks_in_enabled_order (catalog : Catalog E) (quotas : QuotaListing E)
    (enabled : List String) (env : E) :
    ((∃ p, (build catalog quotas enabled env).1 = .ok p) ↔
      ∃ made env', Made catalog quotas enabled env made env' ∧
        made.countP (·.2.queueOrder.isSome) = 1) ∧
    ∀ p env', build catalog quotas enabled env = (.ok p, env') →
      ∃ made, Made catalog quotas enabled env made env' ∧ ∀ c now,
        ConsultedInTurn c (made.filterMap (·.2.filter)) now (p.filter c now) ∧
        ConsultedInTurn c (made.filterMap fun m => m.2.reservation.map (·.reserve)) now
          (p.reserve c now) ∧
        ∃ verdicts, Consulted c (made.filterMap fun m => m.2.reservation.map (·.unreserve)) now
          verdicts (p.unreserve c now).2 := by
  constructor
  · constructor
    · rintro ⟨p, success⟩
      obtain ⟨made, is, single, -⟩ := build_eq_ok_iff.1 (Prod.ext success rfl :
        build catalog quotas enabled env = (.ok p, (build catalog quotas enabled env).2))
      exact ⟨made, _, is, single⟩
    · rintro ⟨made, env', is, single⟩
      obtain ⟨order, first⟩ := Option.isSome_iff_exists.1
        ((isSome_firstOrder made).2 (Nat.lt_of_lt_of_eq Nat.one_pos single.symm))
      have offers : Offers ⟨order, withJobOrders .empty made, filtersOf made, reservationsOf made⟩
          made := ⟨first, rfl, rfl, rfl⟩
      exact ⟨_, congrArg Prod.fst (build_eq_ok_iff.2 ⟨made, is, single, offers⟩)⟩
  · intro p env' success
    obtain ⟨made, is, -, offers⟩ := build_eq_ok_iff.1 success
    refine ⟨made, is, fun c now => ⟨?_, ?_, ?_⟩⟩
    · rw [← offers.map_filters]
      exact consulted_askInTurn _ c now
    · rw [← offers.map_reservations]
      exact consulted_askInTurn _ c now
    · rw [← offers.map_reservations]
      exact consulted_askAll _ c now

/-- The quota plugin enabled twice is asked to reserve twice, the second time unless the first time
refuses. -/
theorem quota_plugin_enabled_twice :
    let slot : LedgerSlot Ledger := ⟨id, fun l _ => l⟩
    let quotas : QuotaListing Ledger := fun _ _ => .ok []
    let catalog := inTreeCatalog (QuotaPlugin.factory slot)
    let enabled := [QuotaPlugin.name, Priority.name, QuotaPlugin.name]
    ∃ p, build catalog quotas enabled .empty = (.ok p, .empty) ∧ ∀ c now,
      ConsultedInTurn c [QuotaPlugin.reserve slot, QuotaPlugin.reserve slot] now
        (p.reserve c now) := by
  intro slot quotas catalog enabled
  refine ⟨_, rfl, fun c now => ?_⟩
  obtain ⟨made, is, asked⟩ :=
    (built_iff_and_asks_in_enabled_order catalog quotas enabled .empty).2 _ _ rfl
  have known : Made catalog quotas enabled .empty
      [(QuotaPlugin.name, QuotaPlugin.plugin slot quotas), (Priority.name, Priority.plugin),
        (QuotaPlugin.name, QuotaPlugin.plugin slot quotas)] .empty :=
    .more _ _ _ _ _ _ _ _ rfl rfl (.more _ _ _ _ _ _ _ _ rfl rfl
      (.more _ _ _ _ _ _ _ _ rfl rfl (.none _)))
  obtain ⟨rfl, -⟩ := is.unique known
  exact (asked c now).2.1

end Pipeline

end JobAdmission
