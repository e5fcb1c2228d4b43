/-
What is written as JSON is read back as it was: jobs, definitions of queues, quotas, the events of
both feeds, answers, snapshots and configurations. A quantity is written as a text in decimals, so
this is asked of values each of whose quantities is read back from its own text.
-/
import JobAdmission.Config.Basic
import JobAdmission.Feed.Event
import JobAdmission.Proofs.Json.Records

namespace JobAdmission

open Json

/-! ## Quantities and resource lists -/

/-- A quantity whose written form is read as the quantity itself. -/
def Quantity.Legible (q : Quantity) : Prop := Quantity.parse? q.render = some q

instance (q : Quantity) : Decidable q.Legible :=
  inferInstanceAs (Decidable (Quantity.parse? q.render = some q))

/-- A resource list of such quantities. -/
def Resources.Legible (r : Resources) : Prop := ∀ e ∈ r.entries, e.2.Legible

instance (r : Resources) : Decidable r.Legible :=
  inferInstanceAs (Decidable (∀ e ∈ r.entries, e.2.Legible))

theorem Resources.ofJson?_toJson {r : Resources} (h : r.Legible) : ofJson? r.toJson = some r :=
  map?_ofMap h

theorem Resources.held_toJson (r : Resources) : Held 1 r.toJson := by
  apply held_obj
  simp only [List.mem_map]
  rintro m ⟨e, -, rfl⟩
  exact held_str 0 _

/-! ## Jobs -/

theorem Phase.ofJson?_toJson (p : Phase) : ofJson? p.toJson = some p := by
  cases p <;> rfl

theorem Phase.ofHeldJson?_toJson (p : Phase) : ofHeldJson? p.toJson = some p := by
  cases p <;> rfl

namespace Job

/-- The members of a job as it is written. -/
def members (j : Job) : List (String × Json) :=
  [("namespace", .str j.ns), ("name", .str j.name)]
    ++ optional "uid" .str j.uid
    ++ [("job_type", .str j.kind)]
    ++ optional "priority" (fun p => .int p.toInt) j.priority
    ++ [("queue", .str j.queue), ("resource", j.resources.toJson), ("phase", j.phase.toJson)]
    ++ optional "message" .str j.note

theorem sublist_members (j : Job) : (j.members.map (·.1)).Sublist fieldNames := by
  simp only [members, List.map_append]
  exact ((((List.Sublist.refl ["namespace", "name"]).append (sublist_optional _ _ _)).append
    (.refl ["job_type"])).append (sublist_optional _ _ _)).append
    (.refl ["queue", "resource", "phase"]) |>.append (sublist_optional _ _ _)

theorem readWith_toJson {phase : Json → Option Phase} (hp : ∀ p : Phase, phase p.toJson = some p)
    {j : Job} (h : j.resources.Legible) : readWith phase j.toJson = some j := by
  obtain ⟨r, record, found⟩ : ∃ r, j.toJson.record? fieldNames = some r ∧
      ∀ name, r.get? name = (j.members.find? (·.1 == name)).map (·.2) :=
    record?_obj (by decide) j.sublist_members
  have uid : maybe? r "uid" str? = some j.uid := by
    apply maybe?_of_text
    simp [found, members, find?_optional, Function.comp_def]
  have priority : maybe? r "priority" int32? = some j.priority := by
    apply maybe?_of_optional (w := fun p => int p.toInt)
    · simp [found, members, find?_optional, Function.comp_def]
    · exact int32?_toInt
    · simp
  have note : maybe? r "message" str? = some j.note := by
    apply maybe?_of_text
    simp [found, members, find?_optional, Function.comp_def]
  simp [readWith, record, uid, priority, note, need?, orElse?, found, members, find?_optional, str?,
    hp, Resources.ofJson?_toJson h]

theorem ofJson?_toJson {j : Job} (h : j.resources.Legible) : ofJson? j.toJson = some j :=
  readWith_toJson Phase.ofJson?_toJson h

theorem ofHeldJson?_toJson {j : Job} (h : j.resources.Legible) : ofHeldJson? j.toJson = some j :=
  readWith_toJson Phase.ofHeldJson?_toJson h

theorem held_toJson (j : Job) : Held 126 j.toJson := by
  apply held_obj
  have amounts : Held 125 j.resources.toJson := (Resources.held_toJson _).mono (by decide)
  have phase : Held 125 j.phase.toJson := held_str 125 _
  simp only [List.forall_mem_append]
  refine ⟨⟨⟨⟨⟨?_, held_optional (held_str 125) _⟩, ?_⟩, held_optional (fun _ => held_int 125 _) _⟩,
    ?_⟩, held_optional (held_str 125) _⟩
  all_goals simp [held_str, amounts, phase]

end Job

/-! ## Queues and quotas -/

theorem QueueDef.ofJson?_toJson (d : QueueDef) : ofJson? d.toJson = some d := by
  obtain ⟨r, record, found⟩ : ∃ r, d.toJson.record? ["name", "priority", "queue_policy"] = some r ∧
      _ := record?_obj (by decide) (.refl _)
  simp [ofJson?, record, need?, orElse?, found, str?, int32?_toInt]

theorem QueueDef.held_toJson (d : QueueDef) : Held 126 d.toJson := by
  apply held_obj
  simp [held_str, held_int]

/-- A quota without limits, or with such quantities as limits. -/
def Quota.Legible (q : Quota) : Prop := ∀ hard ∈ q.hard, hard.Legible

theorem Quota.ofJson?_toJson {q : Quota} (h : q.Legible) : ofJson? q.toJson = some q := by
  obtain ⟨r, record, found⟩ : ∃ r, q.toJson.record? ["name", "namespace", "hard"] = some r ∧ _ :=
    record?_obj (by decide) (.refl _)
  have hard : maybe? r "hard" Resources.ofJson? = some q.hard := by
    apply maybe?_of_orNull (w := Resources.toJson)
    · simp [found]
    · exact fun hard stated => Resources.ofJson?_toJson (h hard stated)
    · simp [Resources.toJson, ofMap]
  simp [ofJson?, record, need?, hard, found, str?]

/-! ## Events and answers -/

namespace JobEvent

/-- The jobs of an event. -/
def jobs : JobEvent → List Job
  | added job => [job]
  | updated old new => [old, new]
  | deleted job => [job]

theorem ofJson?_toJson {e : JobEvent} (h : ∀ job ∈ e.jobs, job.resources.Legible) :
    ofJson? e.toJson = some e := by
  have read : ∀ job ∈ e.jobs, Job.ofHeldJson? job.toJson = some job := fun job hj =>
    Job.ofHeldJson?_toJson (h job hj)
  cases e with
  | added job =>
    obtain ⟨tagged, r, record, found⟩ : (toJson (added job)).tagged? "type" = some ("added", _) ∧
        ∃ r, record? ["unit"] _ = some r ∧ _ :=
      tagged_record?_obj (by decide) rfl (by simp [job.held_toJson])
    simp [ofJson?, tagged, record, need?, found, read job (by simp [jobs])]
  | updated old new =>
    obtain ⟨tagged, r, record, found⟩ :
        (toJson (updated old new)).tagged? "type" = some ("updated", _) ∧
          ∃ r, record? ["old", "new"] _ = some r ∧ _ :=
      tagged_record?_obj (by decide) rfl (by simp [old.held_toJson, new.held_toJson])
    simp [ofJson?, tagged, record, need?, found, read old (by simp [jobs]),
      read new (by simp [jobs])]
  | deleted job =>
    obtain ⟨tagged, r, record, found⟩ :
        (toJson (deleted job)).tagged? "type" = some ("deleted", _) ∧
          ∃ r, record? ["unit"] _ = some r ∧ _ :=
      tagged_record?_obj (by decide) rfl (by simp [job.held_toJson])
    simp [ofJson?, tagged, record, need?, found, read job (by simp [jobs])]

end JobEvent

theorem QueueEvent.ofJson?_toJson (e : QueueEvent) : ofJson? e.toJson = some e := by
  cases e with
  | added queue =>
    obtain ⟨tagged, r, record, found⟩ :
        (toJson (added queue)).tagged? "type" = some ("added", _) ∧
          ∃ r, record? ["queue"] _ = some r ∧ _ :=
      tagged_record?_obj (by decide) rfl (by simp [queue.held_toJson])
    simp [ofJson?, tagged, record, need?, found, queue.ofJson?_toJson]
  | updated old new =>
    obtain ⟨tagged, r, record, found⟩ :
        (toJson (updated old new)).tagged? "type" = some ("updated", _) ∧
          ∃ r, record? ["old", "new"] _ = some r ∧ _ :=
      tagged_record?_obj (by decide) rfl (by simp [old.held_toJson, new.held_toJson])
    simp [ofJson?, tagged, record, need?, found, old.ofJson?_toJson, new.ofJson?_toJson]
  | deleted name =>
    obtain ⟨tagged, r, record, found⟩ :
        (toJson (deleted name)).tagged? "type" = some ("deleted", _) ∧
          ∃ r, record? ["name"] _ = some r ∧ _ :=
      tagged_record?_obj (by decide) rfl (by simp [held_str])
    simp [ofJson?, tagged, record, need?, found, str?]

theorem Ack.ofJson?_toJson (a : Ack) : ofJson? a.toJson = some a := by
  obtain ⟨r, record, found⟩ : ∃ r, a.toJson.record? ["ok", "reason"] = some r ∧ _ :=
    record?_obj (by decide) ((List.Sublist.refl ["ok"]).append (sublist_optional _ _ _))
  have reason : maybe? r "reason" str? = some a.reason := by
    apply maybe?_of_text
    simp [found, find?_optional, Function.comp_def]
  simp [ofJson?, record, need?, reason, found, bool?]

theorem QueueSnapshot.ofJson?_toJson (s : QueueSnapshot) : ofJson? s.toJson = some s := by
  obtain ⟨r, record, found⟩ : ∃ r, s.toJson.record?
      ["name", "priority", "queue_policy", "ready", "backing_off"] = some r ∧ _ :=
    record?_obj (by decide) (.refl _)
  simp [ofJson?, record, need?, found, str?, int32?_toInt, uint64?_toNat]

/-! ## Configurations -/

namespace Config

/-- The members of a configuration as it is written. -/
def members (c : Config) : List (String × Json) :=
  [("initial_backoff_ms", .int c.initialBackoff.toNat),
      ("max_backoff_ms", .int c.maxBackoff.toNat),
      ("flush_interval_ms", .int c.flushInterval.toNat),
      ("idle_interval_ms", .int c.idleInterval.toNat)]
    ++ Json.optional "max_inflight_confirmations" (fun n => .int n.toNat) c.maxInflight
    ++ [("plugins", .arr (c.plugins.map .str)), ("default_queue_policy", .str c.defaultPolicy),
      ("queues", .arr (c.queues.map QueueDef.toJson)), ("extensions", ofMap .str c.extensions)]

theorem sublist_members (c : Config) : (c.members.map (·.1)).Sublist fieldNames := by
  simp only [members, List.map_append]
  exact ((List.Sublist.refl ["initial_backoff_ms", "max_backoff_ms", "flush_interval_ms",
    "idle_interval_ms"]).append (sublist_optional _ _ _)).append
    (.refl ["plugins", "default_queue_policy", "queues", "extensions"])

theorem ofJson?_toJson (c : Config) : ofJson? c.toJson = some c := by
  obtain ⟨r, record, found⟩ : ∃ r, c.toJson.record? fieldNames = some r ∧
      ∀ name, r.get? name = (c.members.find? (·.1 == name)).map (·.2) :=
    record?_obj (by decide) c.sublist_members
  have inflight : orElse? r "max_inflight_confirmations" none (fun n => n.uint64?.map some) =
      some c.maxInflight := by
    unfold orElse?
    cases h : c.maxInflight <;> simp [found, members, find?_optional, h, uint64?_toNat]
  have plugins : (arr (c.plugins.map str)).list? str? = some c.plugins :=
    list?_arr fun _ _ => rfl
  have queues : (arr (c.queues.map QueueDef.toJson)).list? QueueDef.ofJson? = some c.queues :=
    list?_arr fun d _ => d.ofJson?_toJson
  have extensions : (ofMap str c.extensions).map? str? = some c.extensions :=
    map?_ofMap fun _ _ => rfl
  simp only [ofJson?, record, Option.bind_eq_bind, Option.bind_some, inflight]
  simp [plugins, queues, extensions, orElse?, found, members, find?_optional, str?, uint64?_toNat]

end Config

/-! ## All of them -/

/-- Whatever is written as JSON is read back equal to what it was, if each of its quantities is read
back from its own text. -/
theorem reads_what_was_written :
    (∀ j : Job, j.resources.Legible → Job.ofJson? j.toJson = some j) ∧
    (∀ d : QueueDef, QueueDef.ofJson? d.toJson = some d) ∧
    (∀ q : Quota, q.Legible → Quota.ofJson? q.toJson = some q) ∧
    (∀ e : JobEvent, (∀ j ∈ e.jobs, j.resources.Legible) →
      JobEvent.ofJson? e.toJson = some e) ∧
    (∀ e : QueueEvent, QueueEvent.ofJson? e.toJson = some e) ∧
    (∀ a : Ack, Ack.ofJson? a.toJson = some a) ∧
    (∀ s : QueueSnapshot, QueueSnapshot.ofJson? s.toJson = some s) ∧
    (∀ c : Config, Config.ofJson? c.toJson = some c) :=
  ⟨fun _ => Job.ofJson?_toJson, QueueDef.ofJson?_toJson, fun _ => Quota.ofJson?_toJson,
    fun _ => JobEvent.ofJson?_toJson, QueueEvent.ofJson?_toJson, Ack.ofJson?_toJson,
    QueueSnapshot.ofJson?_toJson, Config.ofJson?_toJson⟩

/-- A job with an empty identity, a negative priority, no note, one and a half processors and a
negative amount of memory. -/
def partJob : Job :=
  { Job.new "ml" "train" "" with
    uid := some "", priority := some (-3),
    resources := NameMap.empty.insert "cpu" ⟨1500⟩ |>.insert "memory" ⟨-2000⟩ }

theorem reads_parts_written :
    partJob.resources.Legible ∧ Job.ofJson? partJob.toJson = some partJob ∧
    JobEvent.ofJson? (JobEvent.updated partJob (.new "" "" "")).toJson =
      some (.updated partJob (.new "" "" "")) ∧
    Quota.ofJson? (Quota.toJson ⟨"q", "ml", none⟩) = some ⟨"q", "ml", none⟩ ∧
    Quota.ofJson? (Quota.toJson ⟨"q", "ml", some .empty⟩) = some ⟨"q", "ml", some .empty⟩ ∧
    QueueEvent.ofJson? (QueueEvent.deleted "").toJson = some (.deleted "") ∧
    Config.ofJson? Config.standard.toJson = some Config.standard := by
  have legible : partJob.resources.Legible := by decide
  obtain ⟨job, -, quota, jobEvent, queueEvent, -, -, config⟩ := reads_what_was_written
  refine ⟨legible, job _ legible, jobEvent _ ?_, quota _ ?_, quota _ ?_, queueEvent _, config _⟩
  · simpa [JobEvent.jobs, legible] using by decide
  · simp [Quota.Legible]
  · simpa [Quota.Legible] using by decide

end JobAdmission
