/-
Assembling a scheduler. An assembly succeeds exactly if nothing is missing that a run would need,
and then the registry holds the configured queues, each with its own definition, open and empty.
-/
import JobAdmission.Assembly
import JobAdmission.Proofs.Config.Validity
import JobAdmission.Proofs.Plugin.Enabled
import JobAdmission.Proofs.Queue.Registry
import JobAdmission.Site

namespace JobAdmission

variable {E : Type}

/-! ## Registering queues one after the other -/

namespace QueueSet

variable {s t : QueueSet} {d : QueueDef} {defs done : List QueueDef}

/-- The queues of some definitions were made and given their names, each in the place of its
definition, and no other queue was made. -/
structure Registered (defs : List QueueDef) (s : QueueSet) : Prop where
  names : s.names.Perm (defs.map (·.name))
  size : s.queues.size = defs.length
  named : ∀ (i : QueueId) d, defs[i]? = some d → s.idOf? d.name = some i
  made : ∀ (i : QueueId) d, defs[i]? = some d → ∃ q, s.queue? i = some q ∧ Fresh s.rules d q

theorem registered_new (rules : QueueRules) : Registered [] (.new rules) :=
  ⟨.nil, rfl, nofun, nofun⟩

theorem rules_add (e : s.add d = .ok t) : t.rules = s.rules := by
  obtain ⟨q, fresh, rfl⟩ := add_eq_ok e
  exact (((descends_push fresh.under).trans (descends_withIds _ _)).trans
    (descends_closeQueue _ _)).rules

theorem add_succeeds_iff : (∃ t, s.add d = .ok t) ↔ (orderOf? s.rules d).isSome = true := by
  constructor
  · rintro ⟨t, e⟩
    obtain ⟨q, fresh, -⟩ := add_eq_ok e
    rw [← fresh.definition, fresh.under.1]
    rfl
  · intro known
    obtain ⟨order, known⟩ := Option.isSome_iff_exists.1 known
    obtain ⟨q, made, -⟩ := make_of_known known
    unfold add
    rw [made]
    exact ⟨_, rfl⟩

/-- The order asked for does not depend on the queues, so all can be registered if each can. -/
theorem addAll_succeeds_iff :
    (∃ t, defs.foldlM add s = .ok t) ↔ ∀ d ∈ defs, (orderOf? s.rules d).isSome = true := by
  induction defs generalizing s with
  | nil => exact iff_of_true ⟨s, rfl⟩ nofun
  | cons d rest ih =>
    rw [List.forall_mem_cons, ← add_succeeds_iff]
    simp only [List.foldlM_cons, bind_eq_ok_iff]
    constructor
    · rintro ⟨t, u, added, e⟩
      refine ⟨⟨u, added⟩, ?_⟩
      rw [← rules_add added]
      exact ih.1 ⟨t, e⟩
    · rintro ⟨⟨u, added⟩, known⟩
      rw [← rules_add added] at known
      obtain ⟨t, e⟩ := ih.2 known
      exact ⟨t, u, added, e⟩

/-- A queue under a name that is not taken closes none. -/
theorem Registered.add (h : Registered done s) (new : d.name ∉ done.map (·.name))
    (e : s.add d = .ok t) : Registered (done ++ [d]) t := by
  have free : s.ids.contains d.name = false := by
    rw [← Bool.not_eq_true, ← NameMap.mem_names]
    exact fun hm => new (h.names.mem_iff.1 hm)
  have unknown : s.idOf? d.name = none := Option.not_isSome_iff_eq_none.1 (Bool.eq_false_iff.1 free)
  obtain ⟨q, fresh, rfl⟩ := add_eq_ok e
  rw [unknown]
  -- a place is an old one, or the new one at the end
  have places : ∀ (i : QueueId) d', (done ++ [d])[i]? = some d' →
      done[i]? = some d' ∧ i ≠ s.queues.size ∨ d' = d ∧ i = s.queues.size := by
    intro i d' hd
    rw [h.size]
    rcases Nat.lt_trichotomy i done.length with before | rfl | after
    · rw [List.getElem?_append_left before] at hd
      exact .inl ⟨hd, Nat.ne_of_lt before⟩
    · rw [List.getElem?_concat_length] at hd
      exact .inr ⟨(Option.some.inj hd).symm, rfl⟩
    · rw [List.getElem?_eq_none (by simp; omega)] at hd
      cases hd
  refine ⟨?_, ?_, fun i d' hd => ?_, fun i d' hd => ?_⟩
  · rw [List.map_append]
    exact (NameMap.names_insert_perm free _).trans
      ((h.names.cons d.name).trans (List.perm_append_singleton _ _).symm)
  · show (s.queues.push q).size = _
    rw [Array.size_push, h.size, List.length_append]
    rfl
  · show (s.ids.insert d.name s.queues.size).get? d'.name = some i
    rw [NameMap.get?_insert]
    rcases places i d' hd with ⟨old, -⟩ | ⟨rfl, rfl⟩
    · rw [if_neg fun same => new (by
        rw [same]
        exact List.mem_map_of_mem (List.mem_of_getElem? old))]
      exact h.named i d' old
    · rw [if_pos rfl]
  · show ∃ q', ({ s with queues := s.queues.push q } : QueueSet).queue? i = some q' ∧ _
    rw [queue?_push]
    rcases places i d' hd with ⟨old, other⟩ | ⟨rfl, rfl⟩
    · rw [if_neg other]
      exact h.made i d' old
    · rw [if_pos rfl]
      exact ⟨q, rfl, fresh⟩

theorem Registered.addAll (h : Registered done s)
    (distinct : ((done ++ defs).map (·.name)).Nodup) (e : defs.foldlM QueueSet.add s = .ok t) :
    Registered (done ++ defs) t ∧ t.rules = s.rules := by
  induction defs generalizing s done with
  | nil =>
    cases e
    rw [List.append_nil]
    exact ⟨h, rfl⟩
  | cons d rest ih =>
    rw [List.foldlM_cons, bind_eq_ok_iff] at e
    obtain ⟨u, added, e⟩ := e
    have new : d.name ∉ done.map (·.name) := by
      rw [List.map_append, List.nodup_append] at distinct
      exact fun hm => distinct.2.2 _ hm d.name (List.mem_cons_self ..) rfl
    rw [List.append_cons] at distinct ⊢
    obtain ⟨whole, rules⟩ := ih (h.add new added) distinct e
    exact ⟨whole, rules.trans (rules_add added)⟩

end QueueSet

/-! ## Connecting the handlers -/

/-- Handlers are connected one after the other, and every connection succeeds. -/
inductive Connected (connect : Connector E) : List (String × String) → E → E → Prop where
  | none (env : E) : Connected connect [] env env
  | more (kind address : String) (rest : List (String × String)) (env env₁ env' : E)
      (h : ReleaseHandler E) (success : connect kind address env = (.ok h, env₁))
      (later : Connected connect rest env₁ env') :
      Connected connect ((kind, address) :: rest) env env'

namespace ReleaseRoutes

theorem connectAll_succeeds_iff {connect : Connector E} {r : ReleaseRoutes E}
    {pairs : List (String × String)} {env env' : E} :
    (∃ r', connectAll connect r pairs env = (.ok r', env')) ↔ Connected connect pairs env env' := by
  induction pairs generalizing r env with
  | nil =>
    constructor
    · rintro ⟨r', e⟩
      cases e
      exact .none env'
    · intro h
      cases h
      exact ⟨r, rfl⟩
  | cons pair rest ih =>
    obtain ⟨kind, address⟩ := pair
    rw [connectAll, Scheduling.bind_run]
    constructor
    · intro h
      rcases success : connect kind address env with ⟨cause | handler, env₁⟩
      · rw [success] at h
        obtain ⟨r', e⟩ := h
        cases e
      · rw [success] at h
        exact .more kind address rest env env₁ env' handler success (ih.1 h)
    · intro h
      cases h with
      | more _ _ _ _ env₁ _ handler success later =>
        rw [success]
        exact ih.2 later

theorem ofListing_succeeds_iff {connect : Connector E} {listing : List (String × String)}
    {env : E} :
    (∃ routes env', ofListing connect listing env = (.ok routes, env')) ↔
      ∃ env', Connected connect listing env env' := by
  rw [exists_comm]
  exact exists_congr fun env' => connectAll_succeeds_iff

theorem connected_of_isEmpty {connect : Connector E} {extensions : NameMap String}
    {listing : List (String × String)} (all : listing.Perm extensions.entries)
    (unconfigured : extensions.isEmpty = true) (env : E) : Connected connect listing env env := by
  rw [List.isEmpty_iff.1 unconfigured] at all
  rw [all.eq_nil]
  exact .none env

end ReleaseRoutes

namespace Blueprint

/-- An order of jobs goes by a name among the enabled plugins. -/
def Sorts (made : List (String × Plugin E)) (policy : String) : Prop :=
  ∃ p, (policy, p) ∈ made ∧ p.jobOrder.isSome = true

/-- The handlers of admitted jobs can be had: they are given, or the configured ones can all be
connected, in the order of `listing`, or none is configured. -/
def Reaches (b : Blueprint E) (listing : List (String × String)) (env : E) : Prop :=
  b.routes.isSome = true ∨
    (∃ connect env', b.connect = some connect ∧ Connected connect listing env env') ∨
    b.config.extensions.isEmpty = true

/-- Nothing is missing that an assembly needs. The enabled plugins make a pipeline, and `made` are
the plugins by the names under which they are enabled. -/
structure Complete (b : Blueprint E) (listing : List (String × String)) (env env₁ : E)
    (made : List (String × Plugin E)) : Prop where
  config : b.config.validate = .ok ()
  client : b.client.isSome = true
  plugins : ∃ quotas p, b.quotas = some quotas ∧
    Pipeline.build b.catalog quotas b.config.plugins env = (.ok p, env₁) ∧
    Made b.catalog quotas b.config.plugins env made env₁
  defaultPolicy : Sorts made b.config.defaultPolicy
  policies : ∀ d ∈ b.config.queues,
    Sorts made (if d.policy.isEmpty then b.config.defaultPolicy else d.policy)
  handlers : b.Reaches listing env₁

variable {b : Blueprint E} {listing : List (String × String)} {env : E} {w : Wiring E}
  {s : SchedulerState E}

theorem assembleListed_eq_ok_iff : b.assembleListed listing env = .ok (w, s) ↔
    b.config.validate = .ok () ∧ ∃ client, b.client = some client ∧
    ∃ quotas, b.quotas = some quotas ∧ ∃ p env₁,
      Pipeline.build b.catalog quotas b.config.plugins env = (.ok p, env₁) ∧
    p.jobOrders.contains b.config.defaultPolicy = true ∧ ∃ routes env₂,
      b.routing listing env₁ = (.ok routes, env₂) ∧ ∃ queues, b.queues p = .ok queues ∧
      w = { pipeline := p, client, routes, idleEvery := b.config.idleEvery } ∧
      s = { now := 0, queues, dispatcher := .new (b.config.inflightLimit b.processors),
            suspended := none, turn := none, stopped := false, trail := b.trail, env := env₂ } := by
  unfold assembleListed
  constructor
  · intro h
    rcases config : b.config.validate with fault | ⟨⟨⟩⟩
    · rw [config] at h
      cases h
    rcases given : b.client with _ | client
    · rw [config, given] at h
      cases h
    rcases listed : b.quotas with _ | quotas
    · rw [config, given, listed] at h
      cases h
    rw [config, given, listed] at h
    dsimp only [require, bind, Except.bind] at h
    rcases built : Pipeline.build b.catalog quotas b.config.plugins env with ⟨fault | p, env₁⟩
    · rw [built] at h
      cases h
    rw [built] at h
    dsimp only [Except.mapError] at h
    split at h
    · rename_i sorted
      rcases routed : b.routing listing env₁ with ⟨fault | routes, env₂⟩
      · rw [routed] at h
        cases h
      rw [routed] at h
      dsimp only at h
      rcases registered : b.queues p with fault | queues
      · rw [registered] at h
        cases h
      · rw [registered] at h
        cases h
        exact ⟨rfl, client, rfl, quotas, rfl, p, env₁, built, sorted, routes, env₂, routed, queues,
          registered, rfl, rfl⟩
    · cases h
  · rintro ⟨config, client, given, quotas, listed, p, env₁, built, sorted, routes, env₂, routed,
      queues, registered, rfl, rfl⟩
    rw [config, given, listed]
    dsimp only [require, bind, Except.bind]
    rw [built]
    dsimp only [Except.mapError]
    rw [if_pos sorted, routed]
    dsimp only
    rw [registered]
    rfl

theorem queues_succeeds_iff {p : Pipeline E} {made : List (String × Plugin E)}
    (offers : p.Offers made) :
    (∃ queues, b.queues p = .ok queues) ↔ ∀ d ∈ b.config.queues,
      Sorts made (if d.policy.isEmpty then b.config.defaultPolicy else d.policy) := by
  unfold queues
  rw [QueueSet.addAll_succeeds_iff]
  exact forall₂_congr fun d _ => offers.contains_jobOrders _

theorem reaches_of_connector {connect : Connector E}
    (all : listing.Perm b.config.extensions.entries) (none_given : b.routes = none)
    (connector : b.connect = some connect) :
    b.Reaches listing env ↔ ∃ env', Connected connect listing env env' := by
  unfold Reaches
  rw [none_given, connector]
  constructor
  · rintro (h | ⟨_, env', same, h⟩ | unconfigured)
    · cases h
    · cases same
      exact ⟨env', h⟩
    · exact ⟨env, ReleaseRoutes.connected_of_isEmpty all unconfigured env⟩
  · rintro ⟨env', h⟩
    exact .inr (.inl ⟨connect, env', rfl, h⟩)

theorem reaches_of_no_connector (none_given : b.routes = none) (no_connector : b.connect = none) :
    b.Reaches listing env ↔ b.config.extensions.isEmpty = true := by
  unfold Reaches
  rw [none_given, no_connector]
  constructor
  · rintro (h | ⟨_, _, h, -⟩ | unconfigured)
    · cases h
    · cases h
    · exact unconfigured
  · exact fun unconfigured => .inr (.inr unconfigured)

theorem routing_succeeds_iff (all : listing.Perm b.config.extensions.entries) :
    (∃ routes env', b.routing listing env = (.ok routes, env')) ↔ b.Reaches listing env := by
  unfold routing
  rcases given : b.routes with _ | routes
  · rcases connector : b.connect with _ | connect
    · rw [reaches_of_no_connector given connector]
      dsimp only
      split
      · rename_i unconfigured
        exact iff_of_true ⟨none, env, rfl⟩ unconfigured
      · rename_i configured
        refine iff_of_false ?_ configured
        rintro ⟨routes, env', h⟩
        cases h
    · rw [reaches_of_connector all given connector, ← ReleaseRoutes.ofListing_succeeds_iff]
      dsimp only
      rw [Scheduling.bind_run]
      rcases ReleaseRoutes.ofListing connect listing env with ⟨fault | routes, env₁⟩
      · refine iff_of_false ?_ ?_ <;>
        · rintro ⟨routes, env', h⟩
          cases h
      · exact iff_of_true ⟨some routes, env₁, rfl⟩ ⟨routes, env₁, rfl⟩
  · exact iff_of_true ⟨some routes, env, rfl⟩ (.inl (by rw [given]; rfl))

/-- An assembly succeeds exactly if nothing is missing: the configuration is valid, the
collaborators are there, the enabled plugins make a pipeline, the orders of jobs that the queues
ask for are enabled, and the handlers can be had. Then the queues are the configured ones, each
under its own name and with its own definition, open and empty. This holds in whatever order the
configured handlers are connected. -/
theorem assembled_iff_complete (b : Blueprint E) {listing : List (String × String)}
    (all : listing.Perm b.config.extensions.entries) (env : E) :
    ((∃ w s, b.assembleListed listing env = .ok (w, s)) ↔
        ∃ env₁ made, b.Complete listing env env₁ made) ∧
      ∀ w s, b.assembleListed listing env = .ok (w, s) →
        QueueSet.Registered b.config.queues s.queues := by
  constructor
  · constructor
    · rintro ⟨w, s, e⟩
      obtain ⟨config, client, given, quotas, listed, p, env₁, built, sorted, routes, env₂, routed,
        queues, registered, -, -⟩ := assembleListed_eq_ok_iff.1 e
      obtain ⟨made, is, -, offers⟩ := Pipeline.build_eq_ok_iff.1 built
      exact ⟨env₁, made, config, Option.isSome_iff_exists.2 ⟨client, given⟩,
        ⟨quotas, p, listed, built, is⟩, (offers.contains_jobOrders _).1 sorted,
        (queues_succeeds_iff offers).1 ⟨queues, registered⟩,
        (routing_succeeds_iff all).1 ⟨routes, env₂, routed⟩⟩
    · rintro ⟨env₁, made, complete⟩
      obtain ⟨client, given⟩ := Option.isSome_iff_exists.1 complete.client
      obtain ⟨quotas, p, listed, built, is⟩ := complete.plugins
      obtain ⟨made', is', -, offers⟩ := Pipeline.build_eq_ok_iff.1 built
      obtain ⟨rfl, -⟩ := is.unique is'
      obtain ⟨routes, env₂, routed⟩ := (routing_succeeds_iff all).2 complete.handlers
      obtain ⟨queues, registered⟩ := (queues_succeeds_iff offers).2 complete.policies
      exact ⟨_, _, assembleListed_eq_ok_iff.2 ⟨complete.config, client, given, quotas, listed, p,
        env₁, built, (offers.contains_jobOrders _).2 complete.defaultPolicy, routes, env₂, routed,
        queues, registered, rfl, rfl⟩⟩
  · intro w s e
    obtain ⟨config, -, -, -, -, p, -, -, -, -, -, -, queues, registered, -, rfl⟩ :=
      assembleListed_eq_ok_iff.1 e
    exact (((QueueSet.registered_new _).addAll (Config.validate_eq_ok_iff.1 config).distinct
      registered)).1

/-- Two queues, one of which asks for no order of its own, and two handlers that can be reached,
connected against the order of the kinds of jobs. -/
theorem assembled_with_two_queues :
    let b : Blueprint Site := {
      config := { Config.standard with
        queues := [.new "fast" 10, { name := "slow", priority := 0, policy := "" }]
        extensions := (NameMap.empty.insert "Job" "localhost").insert "TFJob" "remote" }
      catalog := inTreeCatalog (QuotaPlugin.factory Site.sharedLedger)
      client := some Site.client
      quotas := some Site.listQuotas
      routes := none
      connect := some (Site.connect [])
      trail := none
      processors := 4 }
    let listing := [("TFJob", "remote"), ("Job", "localhost")]
    listing.Perm b.config.extensions.entries ∧
      ∃ w s, b.assembleListed listing .empty = .ok (w, s) ∧
        QueueSet.Registered b.config.queues s.queues := by
  intro b listing
  have all : listing.Perm b.config.extensions.entries := .swap ..
  have assembled : b.assembleListed listing .empty = .ok (_, _) := rfl
  exact ⟨all, _, _, assembled, (assembled_iff_complete b all .empty).2 _ _ assembled⟩

end Blueprint

end JobAdmission
