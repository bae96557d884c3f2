import TreeExtraction.Proofs.Format.Grouping

/-! # General formats

A general format rounds to a count of significant digits, drops the zeros at the end of the fraction
and pads the exponent. The result has a layout, and it denotes the rounded number. The zeros are
dropped only where there is no exponent: with one, they stay as the rounding has written them.
-/

namespace TreeExtraction.Format

open Outcome

variable {s : Specifier} {x : Magnitude} {r : Text}

/-! ## Shortening -/

namespace Layout

/-- Whether a layout denotes the number of another one with the same digits before the point, with
a padded exponent, and with zeros at the end of its fraction only where an exponent keeps them. -/
structure Shortens (l u : Layout) : Prop where
  whole : l.whole = u.whole
  value : l.value = u.value
  exponent : ∀ p ∈ l.power, 2 ≤ p.digits.length
  zeros : EndsInZero l.places ↔ u.power.isSome = true ∧ EndsInZero u.places

theorem shortens_stripped_padded (u : Layout) : u.stripped.padded.Shortens u where
  whole := rfl
  value := u.stripped.value_padded.trans u.value_stripped
  exponent := u.stripped.two_le_of_mem_padded
  zeros := u.endsInZero_stripped

theorem Shortens.upper {l u : Layout} (h : l.Shortens u) : l.upper.Shortens u where
  whole := h.whole
  value := l.value_upper.trans h.value
  exponent := by
    intro p hp
    obtain ⟨q, hq, rfl⟩ := Option.map_eq_some_iff.1 hp
    exact h.exponent q hq
  zeros := h.zeros

/-! ## Points -/

theorem point_notMem_powerText (p : Option Conversion.Power) :
    unit '.' ∉ Conversion.powerText p := by
  cases p with
  | none => exact List.not_mem_nil
  | some p =>
    have hmark : unit '.' ≠ p.mark := by
      rcases Conversion.isMark_cases p.isMark with h | h <;> rw [h] <;> decide
    have hsign : unit '.' ∉ p.sign.text := by cases p.sign <;> decide
    have hdigits := point_notMem_digits (Conversion.isDigits_iff.1 p.isRun).2
    simp [Conversion.powerText, Conversion.Power.text, hmark, hsign, hdigits]

/-- A digit follows the point of a layout, and there is no second one. -/
theorem exists_digit_of_behind {l : Layout} {mark before after : Text} (hmark : unit '.' ∉ mark)
    (h : mark ++ l.behind = before ++ unit '.' :: after) :
    ∃ d rest, after = d :: rest ∧ Text.isDigit d = true := by
  have hpower := point_notMem_powerText l.power
  rw [behind] at h
  split at h
  · have hpoint : unit '.' ∈ mark ++ ([] ++ Conversion.powerText l.power) := h ▸ by simp
    rw [List.mem_append] at hpoint
    exact absurd hpoint (not_or.2 ⟨hmark, hpower⟩)
  · next hplaces =>
    obtain ⟨d, rest, hcons⟩ := List.exists_cons_of_ne_nil (mt List.isEmpty_iff.2 hplaces)
    have hd := l.decimal
    rw [hcons, List.all_cons, Bool.and_eq_true] at hd
    have hlater : unit '.' ∉ l.places ++ Conversion.powerText l.power := by
      rw [List.mem_append, not_or]
      exact ⟨point_notMem_digits l.decimal, hpower⟩
    rw [List.cons_append, List.append_cons_inj_of_notMem hmark hlater] at h
    rw [← h.2.2, hcons]
    exact ⟨d, _, rfl, hd.1⟩

end Layout

/-- Whether a specifier asks for a general format: by its code, or by a precision without one. -/
def Specifier.IsGeneral (s : Specifier) : Prop :=
  s.code = some .general ∨ s.code = some .generalUpper ∨ s.code = none ∧ s.precision ≠ none

/-- How many significant digits a general format writes. -/
def Specifier.significantDigits (s : Specifier) : Nat :=
  max (s.precision.getD 6) 1

theorem exists_generalText {precision : Nat} (hp : precision ≤ placesLimit) :
    ∃ l u : Layout, u.text = x.precisionText (max precision 1) ∧ l.Shortens u ∧
      generalText x precision = .ok l.text := by
  have hcount : max precision 1 ≠ 0 := Nat.ne_of_gt (Nat.le_max_right precision 1)
  obtain ⟨u, hu, hl⟩ := Layout.exists_generalText x hcount
  refine ⟨u.stripped.padded, u, hu, u.shortens_stripped_padded, ?_⟩
  exact withPlaces_eq_ok.2 ⟨Nat.max_le.2 ⟨hp, by decide⟩, hl.symm⟩

theorem exists_of_isGeneral (h : s.IsGeneral) (hp : ∀ p ∈ s.precision, p ≤ placesLimit) :
    ∃ l u : Layout, u.text = x.precisionText s.significantDigits ∧ l.Shortens u ∧
      magnitudeText s x = .ok l.text := by
  have hprecision : s.precision.getD 6 ≤ placesLimit := by
    cases hs : s.precision with
    | none => decide
    | some p => exact hp p hs
  obtain ⟨l, u, hu, hl, htext⟩ := exists_generalText (x := x) hprecision
  rcases h with hcode | hcode | ⟨hcode, hsome⟩
  · refine ⟨l, u, hu, hl, ?_⟩
    rw [magnitudeText.eq_def, hcode]
    exact htext
  · refine ⟨l.upper, u, hu, hl.upper, ?_⟩
    rw [magnitudeText.eq_def, hcode, ← l.toUpper_text]
    exact map_eq_ok.2 ⟨_, htext, rfl⟩
  · refine ⟨l, u, hu, hl, ?_⟩
    obtain ⟨p, hs⟩ := Option.ne_none_iff_exists'.1 hsome
    rw [hs] at htext
    rw [magnitudeText.eq_def, hcode, hs]
    exact htext

/-! ## Results -/

/-- General formats are for all numbers. -/
theorem suits_of_isGeneral (h : s.IsGeneral) (n : Number) : Suits s (.number n) := by
  rcases h with hcode | hcode | ⟨hcode, -⟩ <;> rw [Suits, hcode] <;> simp [Code.needsInteger]

theorem point_notMem_numberMark (h : s.IsGeneral) (n : Number) : unit '.' ∉ numberMark s n := by
  have hradix : radixMark s = [] := by
    rcases h with hcode | hcode | ⟨hcode, -⟩ <;> rw [radixMark, hcode] <;> simp
  rw [numberMark, hradix, List.append_nil, Specifier.positiveSign]
  split
  · decide
  · split <;> decide

/-- Digits before a point, grouped if this is asked for. -/
structure IsGroupedBy (grouping : Option Grouping) (digits whole : Text) : Prop where
  plain : grouping = none → whole = digits
  grouped : ∀ g ∈ grouping, InThrees g.unit digits whole

theorem IsGroupedBy.point_notMem {grouping : Option Grouping} {digits whole : Text}
    (h : IsGroupedBy grouping digits whole) (hdigits : digits.all Text.isDigit = true) :
    unit '.' ∉ whole := by
  cases grouping with
  | none =>
    rw [h.plain rfl]
    exact Layout.point_notMem_digits hdigits
  | some g =>
    intro hmem
    have hseparator : g.unit ∉ digits := by
      intro hmem
      have hg : Text.isDigit g.unit = false := by cases g <;> decide
      rw [List.all_eq_true.1 hdigits _ hmem] at hg
      cases hg
    have hkept : unit '.' ∈ whole.filter (· != g.unit) :=
      List.mem_filter.2 ⟨hmem, by cases g <;> decide⟩
    rw [(h.grouped g rfl).filter_eq hseparator] at hkept
    exact Layout.point_notMem_digits hdigits hkept

theorem exists_numberBody {l : Layout} (h : magnitudeText s x = .ok l.text) (negative : Bool) :
    ∃ whole, IsGroupedBy s.grouping l.whole whole ∧
      numberBody s (.finite negative x) = .ok (whole ++ l.behind) := by
  cases hgrouping : s.grouping with
  | none =>
    have hplain : IsGroupedBy none l.whole l.whole :=
      ⟨fun _ => rfl, fun _ hg => absurd hg (Option.not_mem_none _)⟩
    refine ⟨l.whole, hplain, bind_eq_ok.2 ⟨l.text, h, ?_⟩⟩
    rw [hgrouping]
    rfl
  | some g =>
    have hdigits := (Conversion.isDigits_iff.1 l.isRun).2
    have hgroup : groupLeading g.unit l.text = groupDigits g.unit l.whole ++ l.behind := by
      rw [groupLeading, Layout.text, Text.takeWhile_append hdigits l.stops_behind,
        Text.dropWhile_append hdigits l.stops_behind]
    have hgrouped : IsGroupedBy (some g) l.whole (groupDigits g.unit l.whole) := by
      refine ⟨fun hnone => absurd hnone (Option.some_ne_none g), ?_⟩
      intro g' hg
      obtain rfl := Option.mem_some_iff.1 hg
      exact inThrees_groupDigits g.unit l.whole
    refine ⟨groupDigits g.unit l.whole, hgrouped, bind_eq_ok.2 ⟨l.text, h, ?_⟩⟩
    rw [hgrouping, ← hgroup]
    rfl

/-- A general format always gives a result. It has a layout, grouped before the point if this is
asked for, with a digit behind the point if there is one and with at least two digits in its
exponent; and it denotes the number that the rendering with as many significant digits denotes,
with the same digits before the point. Its fraction ends in a zero only where that rendering has an
exponent and the zero stands before it. -/
theorem formatWith_general [PureHost] {t : Text} (hread : Specifier.read t = some s)
    (hgeneral : s.IsGeneral) (hwidth : s.leastLength = 0)
    (hp : ∀ p ∈ s.precision, p ≤ placesLimit) (negative : Bool) (x : Magnitude) :
    ∃ (l u : Layout) (whole r : Text),
      formatWith (.number (.finite negative x)) t = .ok (some r) ∧
      r = numberMark s (.finite negative x) ++ (whole ++ l.behind) ∧
      IsGroupedBy s.grouping l.whole whole ∧
      (∀ before after, r = before ++ unit '.' :: after →
        ∃ d rest, after = d :: rest ∧ Text.isDigit d = true) ∧
      u.text = x.precisionText s.significantDigits ∧
      l.whole = u.whole ∧
      (∃ q, Conversion.Denotes u.text q ∧ Conversion.Denotes l.text q) ∧
      (∀ p ∈ l.power, 2 ≤ p.digits.length) ∧
      (Layout.EndsInZero l.places ↔ u.power.isSome = true ∧ Layout.EndsInZero u.places) := by
  have hne : t ≠ [] := by
    rintro rfl
    obtain rfl := Option.some.inj hread
    rcases hgeneral with hcode | hcode | ⟨-, hprecision⟩
    · cases hcode
    · cases hcode
    · exact hprecision rfl
  obtain ⟨l, u, hu, hl, htext⟩ := exists_of_isGeneral (x := x) hgeneral hp
  obtain ⟨whole, hwhole, hbody⟩ := exists_numberBody htext negative
  have hformat : formatBy s (.number (.finite negative x)) =
      .ok (numberMark s (.finite negative x) ++ (whole ++ l.behind)) :=
    (formatBy_number_eq_ok hwidth).2 ⟨suits_of_isGeneral hgeneral _, _, hbody, rfl⟩
  refine ⟨l, u, whole, _, ?_, rfl, hwhole, ?_, hu, hl.whole, ⟨u.value, u.denotes, ?_⟩, hl.exponent,
    hl.zeros⟩
  · rw [formatWith_of_read hread hne, hformat]
    rfl
  · intro before after h
    have hdigits := (Conversion.isDigits_iff.1 l.isRun).2
    rw [← List.append_assoc] at h
    refine Layout.exists_digit_of_behind ?_ h
    rw [List.mem_append, not_or]
    exact ⟨point_notMem_numberMark hgeneral _, hwhole.point_notMem hdigits⟩
  · rw [← hl.value]
    exact l.denotes

theorem read_general : Specifier.read (units "g") =
    some ⟨none, none, false, false, none, none, none, some .general⟩ := by
  decide

open scoped SampleHost

/-- Six digits are one too few for a million, so it is written with an exponent. -/
theorem formatWith_million : ∃ x, Number.ofNat 1000000 = .finite false x ∧
    formatWith (.number (.finite false x)) (units "g") = .ok (some (units "1.00000e+06")) := by
  obtain ⟨x, hx, -⟩ := Number.exists_ofRatio_whole false (k := 1000000) (by norm_num)
  refine ⟨x, hx, ?_⟩
  rw [← hx]
  apply toOption_eq_some.1
  decide +kernel

theorem formatWith_general_million : ∃ x, Number.ofNat 1000000 = .finite false x ∧
    ∃ l u : Layout, units "1.00000e+06" = l.text ∧ u.text = x.precisionText 6 ∧
      (∃ q, Conversion.Denotes u.text q ∧ Conversion.Denotes l.text q) ∧
      (Layout.EndsInZero l.places ↔ u.power.isSome = true ∧ Layout.EndsInZero u.places) := by
  obtain ⟨x, hx, hmillion⟩ := formatWith_million
  obtain ⟨l, u, whole, r, hformat, hr, hwhole, -, hu, -, hvalue, -, hzeros⟩ :=
    formatWith_general read_general (.inl rfl) rfl nofun false x
  rw [hmillion] at hformat
  obtain rfl := Option.some.inj (Except.ok.inj hformat)
  rw [hwhole.plain rfl] at hr
  exact ⟨x, hx, l, u, hr, hu, hvalue, hzeros⟩

/-- With an exponent the zeros of a fraction stay. -/
theorem not_forall_not_endsInZero : ¬∀ (s : Specifier) (t : Text) (negative : Bool)
    (x : Magnitude), Specifier.read t = some s → s.IsGeneral → s.leastLength = 0 →
    (∀ p ∈ s.precision, p ≤ placesLimit) →
    ∃ (l : Layout) (whole : Text),
      formatWith (.number (.finite negative x)) t =
        .ok (some (numberMark s (.finite negative x) ++ (whole ++ l.behind))) ∧
      IsGroupedBy s.grouping l.whole whole ∧ ¬Layout.EndsInZero l.places := by
  intro hall
  obtain ⟨x, -, hmillion⟩ := formatWith_million
  obtain ⟨l, whole, hformat, hwhole, hzeros⟩ := hall _ _ false x read_general (.inl rfl) rfl nofun
  rw [hmillion, hwhole.plain rfl] at hformat
  have htext : l.text = units "1" ++ units ".00000e+06" :=
    (Option.some.inj (Except.ok.inj hformat)).symm
  obtain ⟨-, hbehind⟩ := Layout.eq_of_text_eq (by decide) (by decide) htext
  have hpoint : units ".00000e+06" = unit '.' :: (units "00000" ++ units "e+06") := by decide
  rw [hpoint] at hbehind
  have hplaces := Layout.places_eq_of_behind_eq (by decide) (by decide) hbehind
  apply hzeros
  rw [hplaces]
  rfl

end TreeExtraction.Format
