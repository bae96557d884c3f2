import TreeExtraction.Proofs.Format.Layout

/-! # The layouts of a magnitude

Every notation of a magnitude has a layout: the positional one has no power, the scientific one has
one digit before its point, and the texts with a fixed count of places or of significant digits are
of one of these kinds.
-/

namespace TreeExtraction

open Conversion (isDigits isDigits_iff)

theorem Format.withPlaces_eq_ok {count : Nat} {text : Nat → Text} {r : Text} :
    withPlaces count text = .ok r ↔ count ≤ placesLimit ∧ text count = r := by
  rw [withPlaces]
  split
  · next hlimit => simp [Nat.not_le_of_lt hlimit]
  · next hlimit => simp [Nat.le_of_not_lt hlimit]

/-- Whether there are digits, each below ten. -/
def Decimal.IsProper (d : Decimal) : Prop :=
  d.digits ≠ [] ∧ ∀ n ∈ d.digits, n < 10

theorem Decimal.IsProper.isDigits_text {d : Decimal} (h : d.IsProper) : isDigits d.text = true := by
  refine isDigits_iff.2 ⟨text_ne_nil h.1, ?_⟩
  rw [text, List.all_map, List.all_eq_true]
  exact fun n hn => Text.isDigit_digitUnit n (h.2 n hn)

namespace Magnitude

variable {x : Magnitude}

theorem digits_decimalOf_lt (s : Nat) (place : Int) : ∀ n ∈ (decimalOf s place).digits, n < 10 := by
  intro n hn
  have hmem := (List.dropWhile_sublist _).subset (List.mem_reverse.1 hn)
  exact Text.digits_lt (by decide) (List.mem_reverse.1 hmem)

theorem digits_shortestFrom_lt (x : Magnitude) (tries count : Nat) :
    ∀ n ∈ (x.shortestFrom tries count).digits, n < 10 := by
  induction tries generalizing count with
  | zero => exact digits_decimalOf_lt _ _
  | succ tries ih =>
    rw [shortestFrom_succ rfl]
    split
    · exact digits_decimalOf_lt _ _
    · exact ih (count + 1)

theorem isProper_shortest (hx : x.isZero = false) : x.shortest.IsProper := by
  refine ⟨digits_shortest_ne_nil hx, ?_⟩
  rw [shortest, hx, if_neg Bool.false_ne_true]
  exact x.digits_shortestFrom_lt 17 1

theorem isProper_significant (x : Magnitude) {count : Nat} (hcount : count ≠ 0) :
    (x.significant count).IsProper := by
  rw [significant]
  split
  · refine ⟨by simpa using hcount, fun n hn => ?_⟩
    rw [List.eq_of_mem_replicate hn]
    decide
  · refine ⟨?_, fun n hn => Text.digits_lt (by decide) (List.mem_of_mem_take hn)⟩
    rw [ne_eq, List.take_eq_nil_iff, not_or]
    exact ⟨hcount, Text.digits_ne_nil (by decide) _⟩

end Magnitude

theorem Text.all_isDigit_zeros (k : Nat) :
    (List.replicate k (unit '0')).all Text.isDigit = true :=
  List.all_eq_true.2 fun _ hu => List.eq_of_mem_replicate hu ▸ by decide

namespace Format.Layout

theorem isPlain_of_power {l : Layout} (h : l.power = none) : l.IsPlain := by
  rintro p hp
  rw [h] at hp
  cases hp

/-! ## Digits with and without a point -/

theorem exists_whole {t : Text} (ht : isDigits t = true) :
    ∃ l : Layout, l.IsPlain ∧ l.text = t := by
  refine ⟨⟨t, [], none, ht, rfl⟩, isPlain_of_power rfl, ?_⟩
  simp [text, behind, Conversion.powerText]

theorem exists_pointed {t places : Text} (ht : isDigits t = true) (hne : places ≠ [])
    (hplaces : places.all Text.isDigit = true) :
    ∃ l : Layout, l.IsPlain ∧ l.text = t ++ unit '.' :: places := by
  refine ⟨⟨t, places, none, ht, hplaces⟩, isPlain_of_power rfl, ?_⟩
  simp [text, behind, Conversion.powerText, hne]

/-- A point may stand anywhere between two digits. -/
theorem exists_cut {t : Text} (ht : t.all Text.isDigit = true) {k : Nat} (hpos : 0 < k)
    (hk : k < t.length) : ∃ l : Layout, l.IsPlain ∧ l.text = t.take k ++ unit '.' :: t.drop k := by
  rw [← t.take_append_drop k, List.all_append, Bool.and_eq_true] at ht
  have htake : t.take k ≠ [] := List.ne_nil_of_length_pos (by rw [List.length_take]; omega)
  have hdrop : t.drop k ≠ [] := List.ne_nil_of_length_pos (by rw [List.length_drop]; omega)
  exact exists_pointed (isDigits_iff.2 ⟨htake, ht.1⟩) hdrop ht.2

/-! ## Notations -/

theorem exists_positional {d : Decimal} (h : d.IsProper) :
    ∃ l : Layout, l.IsPlain ∧ l.text = d.positional := by
  obtain ⟨hne, hall⟩ := isDigits_iff.1 h.isDigits_text
  rw [Decimal.positional]
  split
  · have hzero (t : Text) : units "0." ++ t = [unit '0'] ++ unit '.' :: t := rfl
    rw [List.append_assoc, hzero]
    apply exists_pointed (by decide)
    · exact List.append_ne_nil_of_right_ne_nil _ hne
    · rw [List.all_append, Text.all_isDigit_zeros, hall, Bool.and_self]
  · next hpoint =>
    split
    · apply exists_whole
      refine isDigits_iff.2 ⟨List.append_ne_nil_of_left_ne_nil hne _, ?_⟩
      rw [List.all_append, Text.all_isDigit_zeros, hall, Bool.and_self]
    · next hlength => exact exists_cut hall (by omega) (Nat.lt_of_not_le hlength)

theorem exists_scientific {d : Decimal} (h : d.IsProper) :
    ∃ l : Layout, l.IsPlain ∧ l.text = d.scientific := by
  obtain ⟨hne, hall⟩ := isDigits_iff.1 h.isDigits_text
  rw [Decimal.scientific.eq_def]
  split
  · next hnil => exact absurd hnil hne
  · next u rest htext =>
    rw [htext, List.all_cons, Bool.and_eq_true] at hall
    have hwhole : isDigits [u] = true :=
      isDigits_iff.2 ⟨List.cons_ne_nil u [], by simpa using hall.1⟩
    refine ⟨⟨[u], rest, some (exponentPower (d.point - 1)), hwhole, hall.2⟩, ?_, ?_⟩
    · rintro p ⟨⟩
      exact ⟨_, rfl⟩
    · rw [← powerText_exponentPower]
      rfl

theorem exists_toText (x : Magnitude) : ∃ l : Layout, l.IsPlain ∧ l.text = x.toText := by
  rw [Magnitude.toText]
  split
  · exact exists_whole (by decide)
  · next hzero =>
    have hproper := Magnitude.isProper_shortest (Bool.eq_false_iff.2 hzero)
    simp only
    split
    · exact exists_positional hproper
    · exact exists_scientific hproper

theorem exists_scientificText (x : Magnitude) (count : Nat) :
    ∃ l : Layout, l.IsPlain ∧ l.text = x.scientificText count :=
  exists_scientific (x.isProper_significant (Nat.succ_ne_zero count))

theorem exists_precisionText (x : Magnitude) {count : Nat} (hcount : count ≠ 0) :
    ∃ l : Layout, l.IsPlain ∧ l.text = x.precisionText count := by
  have hproper := x.isProper_significant hcount
  rw [Magnitude.precisionText]
  split
  · exact exists_scientific hproper
  · exact exists_positional hproper

theorem exists_fixedText (x : Magnitude) (count : Nat) :
    ∃ l : Layout, l.IsPlain ∧ l.text = x.fixedText count := by
  rw [Magnitude.fixedText]
  split
  · exact exists_toText x
  · -- The zeros in front leave a digit before the point.
    generalize ht : Text.padZeros (count + 1) (Text.ofNat (x.places count)) = t
    have hlength : count < t.length := by
      rw [← ht, Text.padZeros, List.length_append, List.length_replicate]
      omega
    have hall : t.all Text.isDigit = true := by
      rw [← ht, Text.padZeros, List.all_append, Text.all_isDigit_zeros, Text.all_isDigit_ofNat,
        Bool.and_self]
    simp only
    split
    · exact exists_whole (isDigits_iff.2 ⟨List.ne_nil_of_length_pos (by omega), hall⟩)
    · exact exists_cut hall (by omega) (by omega)

/-! ## Texts with padded exponents -/

/-- With an exponent of two digits, scientific notation still has a layout. -/
theorem exists_padded {t : Text} (h : ∃ l : Layout, l.IsPlain ∧ l.text = t) :
    ∃ l : Layout, l.text = padExponent t := by
  obtain ⟨l, hl, rfl⟩ := h
  exact ⟨l.padded, (padExponent_text hl).symm⟩

/-- In capital letters a notation still has a layout. -/
theorem exists_toUpper {t : Text} (h : ∃ l : Layout, l.text = t) :
    ∃ l : Layout, l.text = Text.toUpper t := by
  obtain ⟨l, rfl⟩ := h
  exact ⟨l.upper, l.toUpper_text.symm⟩

/-- The layout of a general text is that of the rounded magnitude, with the zeros at its end
dropped and its exponent padded. -/
theorem exists_generalText (x : Magnitude) {count : Nat} (hcount : count ≠ 0) :
    ∃ l : Layout, l.text = x.precisionText count ∧
      l.stripped.padded.text = padExponent (stripZeros (x.precisionText count)) := by
  obtain ⟨l, hl, htext⟩ := exists_precisionText x hcount
  have hstripped : l.stripped.IsPlain := hl
  refine ⟨l, htext, ?_⟩
  rw [← htext, stripZeros_text hl, padExponent_text hstripped]

end Format.Layout
end TreeExtraction
