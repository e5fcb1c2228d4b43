/-
Configurations made up from variables. There is one exactly if every variable of a number states
one of the range, white space around it aside, and the base with just the overridden fields
replaced is valid; whether the base is valid by itself does not matter. Over a file without
overrides that is the configuration its text holds.
-/
import JobAdmission.Config.Source
import JobAdmission.Proofs.Config.Validity
import JobAdmission.Proofs.Quantity.Range

namespace JobAdmission

namespace Text

/-- A text is a number: digits with at most one plus in front. -/
def WritesNat (cs : List Char) (n : Nat) : Prop :=
  ∃ digits, (cs = digits ∨ cs = '+' :: digits) ∧ digits ≠ [] ∧
    (∀ c ∈ digits, c.isDigit = true) ∧ Nat.ofDigitChars 10 digits 0 = n

/-- The numbers below the limit are read from the texts that write them. -/
theorem readNat_eq_ok_iff {limit : Nat} (pos : 0 < limit) (cs : List Char) (n : Nat) :
    readNat limit cs = .ok n ↔ n < limit ∧ WritesNat cs n := by
  have read : ∀ digits, readDigits limit 0 digits = .ok n ↔
      (∀ c ∈ digits, c.isDigit = true) ∧ n < limit ∧ Nat.ofDigitChars 10 digits 0 = n :=
    fun digits => Quantity.readDigits_eq_ok_iff digits pos n
  unfold readNat WritesNat
  split
  · refine iff_of_false (fun h => nomatch h) ?_
    rintro ⟨-, digits, rfl | h, nonempty, -⟩
    · exact nonempty rfl
    · cases h
  · refine iff_of_false (fun h => nomatch h) ?_
    rintro ⟨-, digits, rfl | h, nonempty, all, -⟩
    · exact absurd (all '+' List.mem_cons_self) (by decide)
    · cases h
      exact nonempty rfl
  · rename_i rest other
    rw [read]
    constructor
    · rintro ⟨all, below, value⟩
      refine ⟨below, rest, .inr rfl, ?_, all, value⟩
      rintro rfl
      exact other rfl
    · rintro ⟨below, digits, rfl | h, -, all, value⟩
      · exact absurd (all '+' List.mem_cons_self) (by decide)
      · cases h
        exact ⟨all, below, value⟩
  · rename_i nonempty _ unsigned
    rw [read]
    constructor
    · rintro ⟨all, below, value⟩
      exact ⟨below, cs, .inl rfl, nonempty, all, value⟩
    · rintro ⟨below, digits, rfl | rfl, -, all, value⟩
      · exact ⟨all, below, value⟩
      · exact absurd rfl (unsigned digits)

/-- A text lists names: they are what is left of the pieces between the commas once white space is
trimmed off and those without anything else are dropped. -/
def ListsNames (text : String) (names : List String) : Prop :=
  ∃ pieces, pieces ≠ [] ∧ (∀ p ∈ pieces, ',' ∉ p.toList) ∧
    (String.singleton ',').intercalate pieces = text ∧
    names = (pieces.map trimmed).filter (· ≠ "")

end Text

namespace Config

open Text

variable {readFile : String → Option String} {vars : Variables} {c c' : Config}

theorem listedNames_eq_iff {text : String} {names : List String} :
    listedNames text = names ↔ ListsNames text names := by
  have kept : ∀ pieces : List String, pieces.filter (!·.isEmpty) = pieces.filter (· ≠ "") := by
    intro pieces
    refine List.filter_congr fun p _ => ?_
    rw [Bool.eq_iff_iff]
    simp
  unfold listedNames
  rw [kept]
  constructor
  · rintro rfl
    obtain ⟨plain, whole⟩ := (fieldsOf_eq_iff (fieldsOf_ne_nil ',' text)).1 rfl
    exact ⟨fieldsOf ',' text, fieldsOf_ne_nil ',' text, plain, whole, rfl⟩
  · rintro ⟨pieces, nonempty, plain, whole, rfl⟩
    rw [(fieldsOf_eq_iff nonempty).2 ⟨plain, whole⟩]

/-! ## Overridden fields -/

/-- The settings that are numbers. -/
def numericSettings : List String :=
  ["INITIAL_BACKOFF_MS", "MAX_BACKOFF_MS", "FLUSH_INTERVAL_MS", "IDLE_INTERVAL_MS",
    "MAX_INFLIGHT_CONFIRMATIONS"]

/-- The settings that override a field. -/
def overridingSettings : List String := numericSettings ++ ["PLUGINS", "DEFAULT_QUEUE_POLICY"]

/-- The value of a variable, white space around it aside, is a number of the range. -/
def IsNumber (value : String) : Prop := ∃ n < 2 ^ 64, WritesNat (trim value.toList) n

/-- A field is as a variable states it, or as in the base if there is no such variable. -/
def Stated {α : Type} (wrap : UInt64 → α) (vars : Variables) (setting : String) (base new : α) :
    Prop :=
  match vars (variableName setting) with
  | none => new = base
  | some value => ∃ n < 2 ^ 64, WritesNat (trim value.toList) n ∧ new = wrap (.ofNat n)

/-- A base with just the fields replaced for which there is a variable. -/
structure Replaced (vars : Variables) (c c' : Config) : Prop where
  initialBackoff : Stated id vars "INITIAL_BACKOFF_MS" c.initialBackoff c'.initialBackoff
  maxBackoff : Stated id vars "MAX_BACKOFF_MS" c.maxBackoff c'.maxBackoff
  flushInterval : Stated id vars "FLUSH_INTERVAL_MS" c.flushInterval c'.flushInterval
  idleInterval : Stated id vars "IDLE_INTERVAL_MS" c.idleInterval c'.idleInterval
  maxInflight : Stated some vars "MAX_INFLIGHT_CONFIRMATIONS" c.maxInflight c'.maxInflight
  plugins : match vars (variableName "PLUGINS") with
    | none => c'.plugins = c.plugins
    | some text => ListsNames text c'.plugins
  defaultPolicy : c'.defaultPolicy =
    (vars (variableName "DEFAULT_QUEUE_POLICY")).getD c.defaultPolicy
  queues : c'.queues = c.queues
  extensions : c'.extensions = c.extensions

theorem numberOr_eq_ok_iff {setting : String} {base new : UInt64} :
    numberOr vars setting base = .ok new ↔ Stated id vars setting base new := by
  unfold numberOr Stated
  rcases vars (variableName setting) with _ | value
  · simp [eq_comm]
  · dsimp only
    have read := readNat_eq_ok_iff (show 0 < Nat.pow 2 64 by decide) (trim value.toList)
    rcases e : readNat (.pow 2 64) (trim value.toList) with cause | m
    · refine iff_of_false (fun h => nomatch h) ?_
      rintro ⟨n, below, writes, -⟩
      rw [(read n).2 ⟨below, writes⟩] at e
      cases e
    · obtain ⟨below, writes⟩ := (read m).1 e
      constructor
      · rintro h
        cases h
        exact ⟨m, below, writes, rfl⟩
      · rintro ⟨n, below', writes', rfl⟩
        rw [(read n).2 ⟨below', writes'⟩] at e
        cases e
        rfl

theorem maybeNumberOr_eq_ok_iff {setting : String} {base new : Option UInt64} :
    maybeNumberOr vars setting base = .ok new ↔ Stated some vars setting base new := by
  unfold maybeNumberOr
  rcases value : vars (variableName setting) with _ | text
  · unfold Stated
    rw [value]
    simp [eq_comm]
  · have number : ∀ n, numberOr vars setting 0 = .ok n ↔ Stated id vars setting 0 n := fun n =>
      numberOr_eq_ok_iff
    unfold Stated at number ⊢
    rw [value] at number ⊢
    dsimp only at number ⊢
    rcases e : numberOr vars setting 0 with fault | n
    · refine iff_of_false (fun h => nomatch h) ?_
      rintro ⟨n, below, writes, -⟩
      rw [(number _).2 ⟨n, below, writes, rfl⟩] at e
      cases e
    · constructor
      · intro h
        cases h
        obtain ⟨m, below, writes, is⟩ := (number n).1 e
        exact ⟨m, below, writes, congrArg some is⟩
      · rintro ⟨m, below, writes, rfl⟩
        rw [(number _).2 ⟨m, below, writes, rfl⟩] at e
        cases e
        rfl

/-- Overriding succeeds with the base in which just the overridden fields are replaced. -/
theorem overridden_eq_ok_iff : overridden vars c = .ok c' ↔ Replaced vars c c' := by
  have plugins : (match vars (variableName "PLUGINS") with
      | none => c'.plugins = c.plugins
      | some text => ListsNames text c'.plugins) ↔
      (vars (variableName "PLUGINS")).elim c.plugins listedNames = c'.plugins := by
    rcases vars (variableName "PLUGINS") with _ | text
    · exact eq_comm
    · exact listedNames_eq_iff.symm
  unfold overridden
  simp only [bind_eq_ok_iff, numberOr_eq_ok_iff, maybeNumberOr_eq_ok_iff]
  constructor
  · rintro ⟨initial, h₁, limit, h₂, flush, h₃, idle, h₄, inflight, h₅, whole⟩
    cases whole
    exact ⟨h₁, h₂, h₃, h₄, h₅, plugins.2 rfl, rfl, rfl, rfl⟩
  · intro h
    refine ⟨_, h.initialBackoff, _, h.maxBackoff, _, h.flushInterval, _, h.idleInterval, _,
      h.maxInflight, ?_⟩
    rw [plugins.1 h.plugins, ← h.defaultPolicy, ← h.queues, ← h.extensions]
    rfl

theorem stated_iff_isNumber {α : Type} (wrap : UInt64 → α) (setting : String) (base : α) :
    (∃ new, Stated wrap vars setting base new) ↔
      ∀ value, vars (variableName setting) = some value → IsNumber value := by
  unfold Stated IsNumber
  rcases vars (variableName setting) with _ | value
  · simp
  · simp only [Option.some.injEq, forall_eq']
    exact ⟨fun ⟨_, n, below, writes, _⟩ => ⟨n, below, writes⟩,
      fun ⟨n, below, writes⟩ => ⟨_, n, below, writes, rfl⟩⟩

/-- A base can be overridden exactly if every variable of a number states one. -/
theorem replaced_iff_numbers (c : Config) : (∃ c', Replaced vars c c') ↔
    ∀ setting ∈ numericSettings, ∀ value, vars (variableName setting) = some value →
      IsNumber value := by
  unfold numericSettings
  simp only [List.forall_mem_cons, List.not_mem_nil, false_implies, implies_true, and_true]
  rw [← stated_iff_isNumber id "INITIAL_BACKOFF_MS" c.initialBackoff,
    ← stated_iff_isNumber id "MAX_BACKOFF_MS" c.maxBackoff,
    ← stated_iff_isNumber id "FLUSH_INTERVAL_MS" c.flushInterval,
    ← stated_iff_isNumber id "IDLE_INTERVAL_MS" c.idleInterval,
    ← stated_iff_isNumber some "MAX_INFLIGHT_CONFIRMATIONS" c.maxInflight]
  constructor
  · rintro ⟨c', h⟩
    exact ⟨⟨_, h.initialBackoff⟩, ⟨_, h.maxBackoff⟩, ⟨_, h.flushInterval⟩, ⟨_, h.idleInterval⟩,
      ⟨_, h.maxInflight⟩⟩
  · rintro ⟨⟨initialBackoff, h₁⟩, ⟨maxBackoff, h₂⟩, ⟨flushInterval, h₃⟩, ⟨idleInterval, h₄⟩,
      ⟨maxInflight, h₅⟩⟩
    refine ⟨{ c with
      initialBackoff, maxBackoff, flushInterval, idleInterval, maxInflight
      plugins := (vars (variableName "PLUGINS")).elim c.plugins listedNames
      defaultPolicy := (vars (variableName "DEFAULT_QUEUE_POLICY")).getD c.defaultPolicy },
      h₁, h₂, h₃, h₄, h₅, ?_, rfl, rfl, rfl⟩
    rcases vars (variableName "PLUGINS") with _ | text
    · rfl
    · exact listedNames_eq_iff.1 rfl

/-- Without overrides the base stays as it is. -/
theorem replaced_iff_eq
    (unset : ∀ setting ∈ overridingSettings, vars (variableName setting) = none) :
    Replaced vars c c' ↔ c' = c := by
  unfold overridingSettings numericSettings at unset
  simp only [List.cons_append, List.nil_append, List.forall_mem_cons, List.not_mem_nil,
    false_implies, implies_true, and_true] at unset
  obtain ⟨u₁, u₂, u₃, u₄, u₅, u₆, u₇⟩ := unset
  constructor
  · rintro ⟨h₁, h₂, h₃, h₄, h₅, h₆, h₇, h₈, h₉⟩
    unfold Stated at h₁ h₂ h₃ h₄ h₅
    rw [u₁] at h₁
    rw [u₂] at h₂
    rw [u₃] at h₃
    rw [u₄] at h₄
    rw [u₅] at h₅
    rw [u₆] at h₆
    rw [u₇] at h₇
    obtain ⟨⟩ := c
    obtain ⟨⟩ := c'
    cases h₁
    cases h₂
    cases h₃
    cases h₄
    cases h₅
    cases h₆
    cases h₇
    cases h₈
    cases h₉
    rfl
  · rintro rfl
    have same : ∀ {α : Type} (wrap : UInt64 → α) (setting : String) (base : α),
        vars (variableName setting) = none → Stated wrap vars setting base base := by
      intro α wrap setting base unset
      unfold Stated
      rw [unset]
    refine ⟨same _ _ _ u₁, same _ _ _ u₂, same _ _ _ u₃, same _ _ _ u₄, same _ _ _ u₅, ?_, ?_,
      rfl, rfl⟩
    · rw [u₆]
    · rw [u₇]
      rfl

/-! ## The base -/

/-- The base of the overrides, valid or not: the standard configuration, or what the text of the
named file holds. -/
inductive IsBase (readFile : String → Option String) (vars : Variables) : Config → Prop where
  | standard (unnamed : vars (variableName "CONFIG") = none) : IsBase readFile vars standard
  | file (path text : String) (c : Config) (named : vars (variableName "CONFIG") = some path)
      (there : readFile path = some text) (holds : ofText text = .ok c) : IsBase readFile vars c

theorem base_eq_ok_iff : base readFile vars = .ok c ↔ IsBase readFile vars c := by
  constructor
  · intro h
    unfold base at h
    split at h
    · rename_i unnamed
      cases h
      exact .standard unnamed
    · rename_i path named
      split at h
      · cases h
      · rename_i text there
        exact .file path text c named there h
  · intro h
    unfold base
    cases h with
    | standard unnamed => rw [unnamed]
    | file path text c named there holds => rw [named, ← holds]; dsimp only; rw [there]

theorem usable_eq_ok_iff : usable c = .ok c' ↔ c' = c ∧ c.validate = .ok () := by
  unfold usable
  rcases c.validate with cause | ⟨⟩
  · exact iff_of_false (fun h => nomatch h) fun h => nomatch h.2
  · exact ⟨fun h => by cases h; exact ⟨rfl, rfl⟩, fun h => by rw [h.1]⟩

theorem fromVariables_eq_ok_iff : fromVariables readFile vars = .ok c' ↔
    ∃ c, IsBase readFile vars c ∧ Replaced vars c c' ∧ c'.validate = .ok () := by
  unfold fromVariables
  simp only [bind_eq_ok_iff, base_eq_ok_iff, overridden_eq_ok_iff, usable_eq_ok_iff]
  constructor
  · rintro ⟨c, is, d, replaced, rfl, valid⟩
    exact ⟨c, is, replaced, valid⟩
  · rintro ⟨c, is, replaced, valid⟩
    exact ⟨c, is, c', replaced, rfl, valid⟩

theorem IsBase.unique (h : IsBase readFile vars c) (h' : IsBase readFile vars c') : c' = c := by
  rw [← base_eq_ok_iff] at h h'
  rw [h] at h'
  exact (Except.ok.inj h').symm

/-- Variables and the base they override make up a configuration exactly if every variable of a
number states one of the range and the base with just the overridden fields replaced is valid, and
then it is that one. Without overrides a named file counts as its text. -/
theorem made_up_iff (readFile : String → Option String) (vars : Variables) :
    (∀ c, IsBase readFile vars c →
      ((∃ c', fromVariables readFile vars = .ok c') ↔
        (∀ setting ∈ numericSettings, ∀ value, vars (variableName setting) = some value →
          IsNumber value) ∧
        ∀ c', Replaced vars c c' → c'.validate = .ok ()) ∧
      ∀ c', fromVariables readFile vars = .ok c' ↔
        Replaced vars c c' ∧ c'.validate = .ok ()) ∧
    ((∀ setting ∈ overridingSettings, vars (variableName setting) = none) →
      ∀ path text, vars (variableName "CONFIG") = some path → readFile path = some text →
        fromVariables readFile vars = fromText text) := by
  constructor
  · intro c is
    have whole : ∀ c', fromVariables readFile vars = .ok c' ↔
        Replaced vars c c' ∧ c'.validate = .ok () := by
      intro c'
      rw [fromVariables_eq_ok_iff]
      constructor
      · rintro ⟨d, is', replaced, valid⟩
        rw [is.unique is'] at replaced
        exact ⟨replaced, valid⟩
      · rintro ⟨replaced, valid⟩
        exact ⟨c, is, replaced, valid⟩
    refine ⟨?_, whole⟩
    rw [← replaced_iff_numbers c]
    constructor
    · rintro ⟨c', made⟩
      obtain ⟨replaced, valid⟩ := (whole c').1 made
      refine ⟨⟨c', replaced⟩, fun d replaced' => ?_⟩
      rw [← overridden_eq_ok_iff] at replaced replaced'
      rw [replaced] at replaced'
      rw [← Except.ok.inj replaced']
      exact valid
    · rintro ⟨⟨c', replaced⟩, valid⟩
      exact ⟨c', (whole c').2 ⟨replaced, valid c' replaced⟩⟩
  · intro unset path text named there
    have same : ∀ c, overridden vars c = .ok c := fun c =>
      overridden_eq_ok_iff.2 ((replaced_iff_eq unset).2 rfl)
    have from_file : base readFile vars = ofText text := by
      unfold base
      rw [named]
      dsimp only
      rw [there]
    unfold fromVariables fromText
    rw [from_file]
    rcases ofText text with fault | c
    · rfl
    · show (overridden vars c >>= fun d => usable d) = usable c
      rw [same]
      rfl

/-- A file whose configuration starts with a window of zero is mended by variables, which also name
the plugins. -/
theorem made_up_of_zero_window :
    let readFile : String → Option String := fun _ => some "[0]"
    let vars : Variables := fun name =>
      if name = "KUBE_QUEUE_CONFIG" then some "q.json"
      else if name = "KUBE_QUEUE_INITIAL_BACKOFF_MS" then some " +250 "
      else if name = "KUBE_QUEUE_PLUGINS" then some "Priority, ,ResourceQuota,"
      else none
    let c := { standard with initialBackoff := 0 }
    let c' := { standard with initialBackoff := 250, plugins := ["Priority", "ResourceQuota"] }
    IsBase readFile vars c ∧ c.validate = .error .zeroInitialBackoff ∧ Replaced vars c c' ∧
      fromVariables readFile vars = .ok c' := by
  intro readFile vars c c'
  have is : IsBase readFile vars c := .file "q.json" "[0]" c rfl rfl (by decide +kernel)
  have replaced : Replaced vars c c' := overridden_eq_ok_iff.1 (by decide +kernel)
  exact ⟨is, by decide, replaced, (((made_up_iff readFile vars).1 c is).2 c').2
    ⟨replaced, by decide⟩⟩

end Config

end JobAdmission
