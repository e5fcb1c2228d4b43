/-
Which quantities are read back from their own text. A whole number of units is written as such and
can always be read; any other quantity is written in thousandths, and its text is read only as far
as the thousandths of its thousandths would fit. What is not read back is refused.
-/
import JobAdmission.Proofs.Json.RoundTrip
import JobAdmission.Proofs.Quantity.Numeral

namespace JobAdmission

namespace Quantity

open Text

/-! ## The numeral that is shown -/

theorem natText_digits (n : ℕ) : ∀ c ∈ natText n, c.isDigit = true := fun _ =>
  Nat.isDigit_of_mem_toDigits (by decide) (by decide)

theorem natText_ne_nil (n : ℕ) : natText n ≠ [] := Nat.toDigits_ne_nil

def Sign.ofInt : Int → Sign
  | .ofNat _ => .absent
  | .negSucc _ => .minus

theorem Sign.factor_ofInt (z : Int) : (Sign.ofInt z).factor * (z.natAbs : Int) = z := by
  cases z with
  | ofNat n => exact Int.one_mul _
  | negSucc n => exact Int.neg_one_mul _

/-- A whole number as it is written, under a suffix. -/
def Numeral.ofInt (z : Int) (suffix : Suffix) : Numeral where
  sign := .ofInt z
  whole := natText z.natAbs
  point := none
  suffix
  whole_digits := natText_digits z.natAbs
  fraction_digits := fun _ h => by cases h
  some_digit := .inl (natText_ne_nil z.natAbs)
  few_places := Nat.zero_le 18

namespace Numeral

theorem text_ofInt (z : Int) (suffix : Suffix) :
    (ofInt z suffix).text = intText z ++ suffix.text := by
  unfold text digits ofInt
  cases z <;> simp [Sign.ofInt, Sign.text, intText]

theorem finest_ofInt (z : Int) (suffix : Suffix) :
    (ofInt z suffix).finest = z.natAbs * suffix.numerator * 1000 := by
  unfold finest ofInt fraction
  simp [natText, Nat.ofDigitChars_ten_toDigits]

theorem amount_ofInt (z : Int) (suffix : Suffix) :
    (ofInt z suffix).amount = z.natAbs * (suffix.numerator / suffix.denominator) := by
  unfold amount ofInt fraction
  simp [natText, Nat.ofDigitChars_ten_toDigits]

/-- A whole number of some part of a unit is not rounded. -/
theorem quantity_ofInt (z : Int) {suffix : Suffix} (thousandths : ℕ)
    (h : thousandths * suffix.denominator = suffix.numerator * 1000) :
    (ofInt z suffix).quantity = ⟨z * thousandths⟩ := by
  have hd : (suffix.denominator : ℚ) ≠ 0 := by exact_mod_cast suffix.denominator_pos.ne'
  have exact : (ofInt z suffix).amount * 1000 = ((z.natAbs * thousandths : ℤ) : ℚ) := by
    have factor : (suffix.numerator / suffix.denominator : ℚ) * 1000 = thousandths := by
      rw [div_mul_eq_mul_div, div_eq_iff hd]
      exact_mod_cast h.symm
    rw [amount_ofInt, mul_assoc, factor]
    generalize z.natAbs = n
    push_cast
    rfl
  unfold quantity
  rw [exact, Int.ceil_intCast, ← mul_assoc]
  exact congrArg (fun w : Int => (⟨w * thousandths⟩ : Quantity)) (Sign.factor_ofInt z)

end Numeral

/-- The numeral that a quantity is written as. -/
def shown (q : Quantity) : Numeral :=
  if q.milli % 1000 = 0 then .ofInt (q.milli / 1000) .one else .ofInt q.milli .milli

theorem writes_render (q : Quantity) : q.shown.Writes q.render := by
  refine ⟨[], [], by simp, by simp, ?_⟩
  unfold shown render
  split <;> simp [Numeral.text_ofInt, Suffix.text]

theorem quantity_shown (q : Quantity) : q.shown.quantity = q := by
  unfold shown
  split
  · rename_i whole
    have back : q.milli / 1000 * 1000 = q.milli :=
      Int.ediv_mul_cancel (Int.dvd_of_emod_eq_zero whole)
    rw [Numeral.quantity_ofInt _ 1000 rfl]
    exact congrArg Quantity.mk back
  · rw [Numeral.quantity_ofInt _ 1 rfl]
    exact congrArg Quantity.mk (Int.mul_one _)

/-- Reading multiplies by a thousand before it divides by the suffix's thousand. -/
theorem finest_shown (q : Quantity) : (q.shown.finest : Int) =
    if q.milli % 1000 = 0 then |q.milli| else |q.milli| * 1000 := by
  unfold shown
  split <;> rw [Numeral.finest_ofInt, Int.abs_eq_natAbs]
  · show (((q.milli / 1000).natAbs * 1 * 1000 : ℕ) : Int) = _
    omega
  · show ((q.milli.natAbs * 1 * 1000 : ℕ) : Int) = _
    omega

/-- The text of a quantity is read as the quantity itself, or not at all. -/
theorem parse?_render (q : Quantity) :
    parse? q.render = if (q.shown.finest : Int) ≤ maxMilli then some q else none := by
  rw [q.shown.parse?_of_writes q.writes_render, quantity_shown]

theorem legible_iff_finest (q : Quantity) : q.Legible ↔ (q.shown.finest : Int) ≤ maxMilli := by
  unfold Legible
  rw [parse?_render]
  split
  · rename_i fits
    exact iff_of_true rfl fits
  · rename_i large
    exact iff_of_false (fun h => nomatch h) large

theorem parse?_render_eq (q : Quantity) : parse? q.render = if q.Legible then some q else none := by
  rw [parse?_render]
  exact if_congr q.legible_iff_finest.symm rfl rfl

/-- A quantity that was read is read back if it is of whole units, or small enough for its
thousandths to be counted in thousandths. -/
theorem legible_iff {text : String} {q : Quantity} (h : parse? text = some q) :
    q.Legible ↔ 1000 ∣ q.milli ∨ |q.milli| * 1000 ≤ maxMilli := by
  have bound := abs_le_of_parse? h
  rw [legible_iff_finest, finest_shown, Int.dvd_iff_emod_eq_zero]
  split
  · rename_i whole
    exact iff_of_true bound (.inl whole)
  · rename_i part
    exact (or_iff_right part).symm

end Quantity

/-! ## Resource lists -/

namespace NameMap

variable {α : Type}

/-- What a map is made of are bindings of the list. -/
theorem mem_ofList {l : List (String × α)} {e : String × α} (h : e ∈ (ofList l).entries) :
    e ∈ l := by
  have onto : ∀ (l : List (String × α)) (m : NameMap α),
      e ∈ (l.foldl (fun m x => m.insert x.1 x.2) m).entries → e ∈ l ∨ e ∈ m.entries := by
    intro l
    induction l with
    | nil => exact fun m h => .inr h
    | cons x rest ih =>
      intro m h
      rcases ih _ h with h | h
      · exact .inl (List.mem_cons_of_mem x h)
      · rw [← get?_eq_some_iff, get?_insert] at h
        split at h
        · rename_i name
          have whole : x = e := Prod.ext name (Option.some.inj h)
          exact .inl (whole ▸ List.mem_cons_self)
        · exact .inr (get?_eq_some_iff.1 h)
  exact (onto l empty h).resolve_right fun h => nomatch h

end NameMap

/-- A list that is read is read item by item. -/
theorem Json.read_of_mapM {α β : Type} {f : α → Option β} :
    ∀ {l : List α} {r : List β}, l.mapM f = some r →
      (∀ a ∈ l, ∃ b, f a = some b) ∧ ∀ b ∈ r, ∃ a ∈ l, f a = some b
  | [], r, h => by
    cases h
    simp
  | a :: l, r, h => by
    rw [List.mapM_cons] at h
    obtain ⟨b, first, h⟩ := Option.bind_eq_some_iff.1 h
    obtain ⟨rest, read, h⟩ := Option.bind_eq_some_iff.1 h
    cases h
    obtain ⟨forth, back⟩ := read_of_mapM read
    constructor
    · exact List.forall_mem_cons.2 ⟨⟨b, first⟩, forth⟩
    · refine List.forall_mem_cons.2 ⟨⟨a, List.mem_cons_self, first⟩, fun c hc => ?_⟩
      obtain ⟨x, hx, e⟩ := back c hc
      exact ⟨x, List.mem_cons_of_mem a hx, e⟩

namespace Resources

/-- A resource list of quantities that can be read. -/
def Written (r : Resources) : Prop := ∀ e ∈ r.entries, ∃ text, Quantity.parse? text = some e.2

theorem written_of_ofJson? {j : Json} {r : Resources} (h : ofJson? j = some r) : r.Written := by
  unfold ofJson? Json.map? at h
  split at h
  · rename_i members
    obtain ⟨pairs, read, rfl⟩ := Option.map_eq_some_iff.1 h
    intro e he
    obtain ⟨m, -, hm⟩ := (Json.read_of_mapM read).2 e (NameMap.mem_ofList he)
    obtain ⟨q, hq, rfl⟩ := Option.map_eq_some_iff.1 hm
    obtain ⟨text, -, parsed⟩ := Option.bind_eq_some_iff.1 hq
    exact ⟨text, parsed⟩
  · cases h

/-- A resource list of which one quantity is refused is refused. -/
theorem ofJson?_toJson_eq (r : Resources) :
    ofJson? r.toJson = if r.Legible then some r else none := by
  split
  · rename_i legible
    exact ofJson?_toJson legible
  · rename_i illegible
    rcases read : ofJson? r.toJson with _ | r'
    · rfl
    · refine absurd (fun e he => ?_) illegible
      obtain ⟨pairs, read, -⟩ := Option.map_eq_some_iff.1 read
      obtain ⟨pair, hp⟩ := (Json.read_of_mapM read).1 _ (List.mem_map_of_mem he)
      obtain ⟨q, parsed, -⟩ := Option.map_eq_some_iff.1 hp
      change Quantity.parse? e.2.render = some q at parsed
      rw [Quantity.parse?_render_eq] at parsed
      split at parsed
      · assumption
      · cases parsed

end Resources

namespace Quantity

/-- A quantity that was read from a text or from JSON is read back from what it is written as if it
is whole or small; otherwise what is written is refused. The same holds of resource lists, all of
whose quantities must be so. -/
theorem read_back_iff_whole_or_small (text : String) (q : Quantity) (j : Json) (r : Resources) :
    (parse? text = some q →
      parse? q.render =
        (if 1000 ∣ q.milli ∨ |q.milli| * 1000 ≤ maxMilli then some q else none) ∧
      ofJson? q.toJson =
        if 1000 ∣ q.milli ∨ |q.milli| * 1000 ≤ maxMilli then some q else none) ∧
    (Resources.ofJson? j = some r →
      Resources.ofJson? r.toJson =
        if ∀ e ∈ r.entries, 1000 ∣ e.2.milli ∨ |e.2.milli| * 1000 ≤ maxMilli then some r
        else none) := by
  constructor
  · intro h
    have back := q.parse?_render_eq.trans (if_congr (legible_iff h) rfl rfl)
    exact ⟨back, back⟩
  · intro h
    rw [Resources.ofJson?_toJson_eq]
    refine if_congr ?_ rfl rfl
    refine forall₂_congr fun e he => ?_
    obtain ⟨text, parsed⟩ := Resources.written_of_ofJson? h e he
    exact legible_iff parsed

/-- One and a half of a unit, alone and in a resource list. -/
theorem read_back_one_and_a_half :
    parse? "1.5" = some ⟨1500⟩ ∧ parse? (render ⟨1500⟩) = some ⟨1500⟩ ∧
      Resources.ofJson? (.obj [("cpu", .str "1.5")]) = some (.insert .empty "cpu" ⟨1500⟩) ∧
      Resources.ofJson? (Resources.toJson (.insert .empty "cpu" ⟨1500⟩)) =
        some (.insert .empty "cpu" ⟨1500⟩) := by
  have text : parse? "1.5" = some ⟨1500⟩ := by decide +kernel
  have json : Resources.ofJson? (.obj [("cpu", .str "1.5")]) =
      some (.insert .empty "cpu" ⟨1500⟩) := by decide +kernel
  obtain ⟨alone, listed⟩ := read_back_iff_whole_or_small _ _ _ _
  exact ⟨text, (alone text).1.trans (if_pos (by decide)), json,
    (listed json).trans (if_pos (by decide))⟩

/-- Half a unit beside very many whole ones is accepted, but not from the text it is shown as. -/
theorem large_part_not_read_back :
    parse? "10000000000000000000000000000000000.5" =
      some ⟨10000000000000000000000000000000000500⟩ ∧
    parse? (render ⟨10000000000000000000000000000000000500⟩) ≠
      some ⟨10000000000000000000000000000000000500⟩ := by
  constructor
  · decide +kernel
  · intro h
    have fits := (legible_iff_finest _).1 h
    rw [finest_shown] at fits
    exact absurd fits (by decide)

end Quantity

end JobAdmission
