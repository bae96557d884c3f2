import Mathlib.Algebra.Order.Field.Rat
import Mathlib.Data.List.DropRight
import Mathlib.Tactic.FieldSimp
import Mathlib.Tactic.NormNum
import Mathlib.Tactic.Ring
import TreeExtraction.Format.Rendering
import TreeExtraction.Proofs.Number.Notation
import TreeExtraction.Proofs.Text.LetterCase
import TreeExtraction.Proofs.Transform.Numerals

/-! # Layouts of number texts

Digits before a point, digits behind it and a power of ten, each as it is written. Every notation
of a magnitude is such a layout; dropping the zeros that end a fraction, padding an exponent and
writing it with a capital letter change a part of the layout and leave the number that it denotes.
A point in a layout has a digit behind it.
-/

namespace TreeExtraction

/-- The number that a numeral denotes. -/
def Conversion.Numeral.value (n : Conversion.Numeral) : ℚ :=
  (if n.negative then -1 else 1) * n.significand * 10 ^ n.exponent

/-- A power of ten moves from the significand to the exponent. -/
theorem Conversion.Numeral.value_mul_pow (negative : Bool) (s k : Nat) (e : Int) :
    value ⟨negative, s * 10 ^ k, e - k⟩ = value ⟨negative, s, e⟩ := by
  have hten : (10 : ℚ) ≠ 0 := by norm_num
  simp only [value, Nat.cast_mul, Nat.cast_pow, zpow_sub₀ hten, zpow_natCast, Nat.cast_ofNat]
  field_simp

/-- Whether a text is a number text that denotes a number. -/
def Conversion.Denotes (t : Text) (q : ℚ) : Prop :=
  ∃ n, Conversion.readDecimal t = some n ∧ n.value = q

theorem Text.toNat_append_singleton (t : Text) (u : UInt16) :
    toNat (t ++ [u]) = 10 * toNat t + digitValue u := by
  simp [toNat, ofDigits]

theorem Text.toNat_append_zeros (t : Text) (k : Nat) :
    toNat (t ++ List.replicate k (unit '0')) = toNat t * 10 ^ k := by
  induction k with
  | zero => simp
  | succ k ih =>
    have hzero : digitValue (unit '0') = 0 := by decide
    rw [List.replicate_succ', ← List.append_assoc, toNat_append_singleton, ih, hzero, pow_succ]
    ring

theorem Text.toNat_padZeros (k : Nat) (t : Text) : toNat (padZeros k t) = toNat t := by
  rw [padZeros]
  induction k - t.length with
  | zero => rfl
  | succ n ih =>
    rw [List.replicate_succ, List.cons_append]
    exact ih

namespace Format

open Conversion (Power isDigits powerText exponentOf)

/-- Digits before a point, digits behind it, and a power of ten if there is one. -/
structure Layout where
  whole : Text
  places : Text
  power : Option Power
  isRun : isDigits whole = true
  decimal : places.all Text.isDigit = true

namespace Layout

/-- What stands behind the digits before the point. -/
def behind (l : Layout) : Text :=
  (if l.places.isEmpty then [] else unit '.' :: l.places) ++ powerText l.power

/-- The text of a layout. -/
def text (l : Layout) : Text :=
  l.whole ++ l.behind

/-- The numeral that a layout denotes. -/
def numeral (l : Layout) : Conversion.Numeral :=
  ⟨false, Text.toNat (l.whole ++ l.places), exponentOf l.power - l.places.length⟩

/-- A layout is a number text. -/
theorem readDecimal_text (l : Layout) : Conversion.readDecimal l.text = some l.numeral := by
  by_cases hplaces : l.places = []
  · have h := Conversion.readDecimal_text ⟨.missing, .whole l.whole l.isRun, l.power⟩
    simpa [Conversion.DecimalText.text, Conversion.DecimalText.numeral, Conversion.Sign.text,
      Conversion.Sign.isMinus, Conversion.Mantissa.text, Conversion.Mantissa.before,
      Conversion.Mantissa.behind, text, behind, numeral, hplaces] using h
  · have h := Conversion.readDecimal_text
      ⟨.missing, .pointed l.whole l.places l.isRun l.decimal, l.power⟩
    simpa [Conversion.DecimalText.text, Conversion.DecimalText.numeral, Conversion.Sign.text,
      Conversion.Sign.isMinus, Conversion.Mantissa.text, Conversion.Mantissa.before,
      Conversion.Mantissa.behind, text, behind, numeral, hplaces] using h

/-- The number that a layout denotes. -/
def value (l : Layout) : ℚ :=
  l.numeral.value

theorem denotes (l : Layout) : Conversion.Denotes l.text l.value :=
  ⟨l.numeral, l.readDecimal_text, rfl⟩

/-- Behind the digits before the point stands the point or the mark of a power. -/
theorem head?_behind (l : Layout) :
    ∀ u ∈ l.behind.head?, u = unit '.' ∨ u = unit 'e' ∨ u = unit 'E' := by
  intro u hu
  rw [behind] at hu
  split at hu
  · cases hpower : l.power with
    | none =>
      rw [hpower] at hu
      cases hu
    | some p =>
      rw [hpower] at hu
      obtain rfl : p.mark = u := Option.some.inj hu
      exact .inr (Conversion.isMark_cases p.isMark)
  · exact .inl (Option.some.inj hu).symm

theorem stops_behind (l : Layout) : Text.stops Text.isDigit l.behind = true := by
  cases hbehind : l.behind with
  | nil => rfl
  | cons u t =>
    rcases l.head?_behind u (by rw [hbehind]; rfl) with rfl | rfl | rfl <;> rfl

/-- The text determines the digits before the point. -/
theorem eq_of_text_eq {l : Layout} {digits rest : Text} (hdigits : digits.all Text.isDigit = true)
    (hrest : Text.stops Text.isDigit rest = true) (h : l.text = digits ++ rest) :
    l.whole = digits ∧ l.behind = rest :=
  Text.append_inj_of_stops (Conversion.isDigits_iff.1 l.isRun).2 hdigits l.stops_behind hrest h

/-- The text determines the digits behind the point. -/
theorem places_eq_of_behind_eq {l : Layout} {digits rest : Text}
    (hdigits : digits.all Text.isDigit = true) (hrest : Text.stops Text.isDigit rest = true)
    (h : l.behind = unit '.' :: (digits ++ rest)) : l.places = digits := by
  have hstops := Conversion.stops_powerText (p := Text.isDigit) rfl rfl l.power
  rw [behind] at h
  split at h
  · -- A power does not begin with a point.
    have hpoint := Conversion.stops_powerText (p := (· == unit '.')) rfl rfl l.power
    rw [List.nil_append] at h
    rw [h] at hpoint
    cases hpoint
  · exact (Text.append_inj_of_stops l.decimal hdigits hstops hrest (List.cons.inj h).2).1

/-! ## Dropping zeros -/

/-- The zeros that end a fraction are dropped where there is no power. -/
def stripped (l : Layout) : Layout where
  __ := l
  places := if l.power.isNone then l.places.rdropWhile (· == unit '0') else l.places
  decimal := by
    split
    · exact List.all_eq_true.2 fun u hu =>
        List.all_eq_true.1 l.decimal u ((List.rdropWhile_prefix _ _).subset hu)
    · exact l.decimal

/-- A power in small letters with a sign. -/
def exponentPower (e : Int) : Power where
  mark := unit 'e'
  sign := if e < 0 then .minus else .plus
  digits := Text.ofNat e.natAbs
  isMark := by decide
  isRun := Conversion.isDigits_iff.2 ⟨Text.ofNat_ne_nil _, Text.all_isDigit_ofNat _⟩

theorem sign_exponentPower (e : Int) :
    (exponentPower e).sign.text = [if e < 0 then unit '-' else unit '+'] := by
  rw [exponentPower]
  split <;> rfl

theorem powerText_exponentPower (e : Int) :
    powerText (some (exponentPower e)) = Decimal.exponentText e := by
  change unit 'e' :: ((exponentPower e).sign.text ++ Text.ofNat e.natAbs) = _
  rw [sign_exponentPower]
  rfl

/-- Whether the power of a layout, if there is one, is written in this way. -/
def IsPlain (l : Layout) : Prop :=
  ∀ p ∈ l.power, ∃ e, p = exponentPower e

/-- Whether a fraction ends in a zero. -/
def EndsInZero (t : Text) : Prop :=
  t.getLast? = some (unit '0')

theorem not_endsInZero_rdropWhile (t : Text) : ¬EndsInZero (t.rdropWhile (· == unit '0')) := by
  intro h
  have hne : t.rdropWhile (· == unit '0') ≠ [] := by
    intro hnil
    rw [EndsInZero, hnil] at h
    cases h
  have hlast := List.rdropWhile_last_not _ _ hne
  rw [EndsInZero, List.getLast?_eq_some_getLast hne] at h
  rw [Option.some.inj h] at hlast
  exact hlast BEq.rfl

/-- A fraction still ends in a zero only where a power follows it. -/
theorem endsInZero_stripped (l : Layout) :
    EndsInZero l.stripped.places ↔ l.power.isSome = true ∧ EndsInZero l.places := by
  cases hpower : l.power with
  | none => simp [stripped, hpower, not_endsInZero_rdropWhile]
  | some p => simp [stripped, hpower]

theorem value_stripped (l : Layout) : l.stripped.value = l.value := by
  cases hpower : l.power with
  | some p => simp [value, numeral, stripped, hpower]
  | none =>
    -- The zeros that are dropped are a factor of the significand.
    obtain ⟨k, hk⟩ : ∃ k, l.places = l.stripped.places ++ List.replicate k (unit '0') := by
      have hzeros : ∀ u ∈ l.places.rtakeWhile (· == unit '0'), u = unit '0' := fun u hu => by
        simpa using List.mem_rtakeWhile_imp hu
      refine ⟨(l.places.rtakeWhile (· == unit '0')).length, ?_⟩
      rw [← List.eq_replicate_iff.2 ⟨rfl, hzeros⟩]
      simp [stripped, hpower, List.rdropWhile_append_rtakeWhile]
    have hnumeral : l.numeral = ⟨false,
        Text.toNat (l.whole ++ l.stripped.places) * 10 ^ k,
        exponentOf l.power - l.stripped.places.length - k⟩ := by
      rw [numeral, hk, ← List.append_assoc, Text.toNat_append_zeros, List.length_append,
        List.length_replicate, Nat.cast_add, ← Int.sub_sub]
    rw [value, value, hnumeral, Conversion.Numeral.value_mul_pow]
    rfl

theorem isDigit_ne {u : UInt16} (h : Text.isDigit u = true) : u ≠ unit '.' ∧ u ≠ unit 'e' := by
  constructor <;> rintro rfl <;> exact absurd h (by decide)

theorem point_notMem_digits {t : Text} (h : t.all Text.isDigit = true) : unit '.' ∉ t :=
  fun hmem => (isDigit_ne (List.all_eq_true.1 h _ hmem)).1 rfl

theorem mark_notMem_digits {t : Text} (h : t.all Text.isDigit = true) : unit 'e' ∉ t :=
  fun hmem => (isDigit_ne (List.all_eq_true.1 h _ hmem)).2 rfl

/-- Without a power there is no mark of one. -/
theorem mark_notMem_text {l : Layout} (h : l.power = none) : unit 'e' ∉ l.text := by
  have hwhole := mark_notMem_digits (Conversion.isDigits_iff.1 l.isRun).2
  have hplaces := mark_notMem_digits l.decimal
  have hpoint : unit 'e' ≠ unit '.' := by decide
  rw [text, behind, h, List.mem_append, not_or]
  refine ⟨hwhole, ?_⟩
  split
  · exact List.not_mem_nil
  · simp [powerText, hpoint, hplaces]

theorem stripZeros_of_mark {t : Text} (h : unit 'e' ∈ t) : stripZeros t = t := by
  have hmark : t.all (· != unit 'e') = false := List.all_eq_false.2 ⟨unit 'e', h, by decide⟩
  rw [stripZeros, hmark, Bool.and_false, if_neg Bool.false_ne_true]

theorem stripZeros_of_point_notMem {t : Text} (h : unit '.' ∉ t) : stripZeros t = t := by
  have hpoint : t.any (· == unit '.') = false := by
    rw [List.any_eq_false]
    exact fun u hu heq => h (beq_iff_eq.1 heq ▸ hu)
  rw [stripZeros, hpoint, Bool.false_and, if_neg Bool.false_ne_true]

/-- The point is dropped with the zeros if no digit is left behind it. -/
theorem stripZeros_pointed {t places : Text} (ht : unit 'e' ∉ t)
    (hplaces : places.all Text.isDigit = true) :
    stripZeros (t ++ unit '.' :: places) =
      t ++ if (places.rdropWhile (· == unit '0')).isEmpty then []
        else unit '.' :: places.rdropWhile (· == unit '0') := by
  have hpoint : (t ++ unit '.' :: places).any (· == unit '.') = true := by simp
  have hmark : (t ++ unit '.' :: places).all (· != unit 'e') = true := by
    rw [List.all_append, List.all_cons, Bool.and_eq_true, Bool.and_eq_true, List.all_eq_true,
      List.all_eq_true]
    exact ⟨fun u hu => bne_iff_ne.2 (ne_of_mem_of_not_mem hu ht), by decide,
      fun u hu => bne_iff_ne.2 (ne_of_mem_of_not_mem hu (mark_notMem_digits hplaces))⟩
  rw [stripZeros, hpoint, hmark, Bool.and_self, if_pos rfl, List.rdropWhile, List.reverse_append,
    List.reverse_cons, List.append_assoc, List.dropWhile_append]
  cases hrest : places.reverse.dropWhile (· == unit '0') with
  | nil =>
    have hzero : (unit '.' == unit '0') = false := by decide
    simp [hzero]
  | cons u rest =>
    have hmem : u ∈ places.reverse.dropWhile (· == unit '0') := hrest ▸ List.mem_cons_self
    have hu := (List.dropWhile_sublist _).subset hmem
    simp [(isDigit_ne (List.all_eq_true.1 hplaces u (List.mem_reverse.1 hu))).1]

/-- Dropping the zeros of a text drops those of its layout. -/
theorem stripZeros_text {l : Layout} (hl : l.IsPlain) : stripZeros l.text = l.stripped.text := by
  have hwhole := (Conversion.isDigits_iff.1 l.isRun).2
  cases hpower : l.power with
  | some p =>
    obtain ⟨e, rfl⟩ := hl p hpower
    have hmark : unit 'e' ∈ l.text := by
      rw [text, behind, hpower, powerText_exponentPower, Decimal.exponentText]
      simp
    have hsame : l.stripped.text = l.text := by simp [text, behind, stripped, hpower]
    rw [stripZeros_of_mark hmark, hsame]
  | none =>
    by_cases hnil : l.places = []
    · have htext : l.text = l.whole := by simp [text, behind, hpower, hnil, powerText]
      have hsame : l.stripped.text = l.text := by simp [text, behind, stripped, hpower, hnil]
      have hpoint : unit '.' ∉ l.text := htext ▸ point_notMem_digits hwhole
      rw [stripZeros_of_point_notMem hpoint, hsame]
    · have htext : l.text = l.whole ++ unit '.' :: l.places := by
        simp [text, behind, hpower, hnil, powerText]
      have hstripped : l.stripped.places = l.places.rdropWhile (· == unit '0') := by
        simp [stripped, hpower]
      rw [htext, stripZeros_pointed (mark_notMem_digits hwhole) l.decimal, ← hstripped]
      change _ = l.whole ++ ((if _ then _ else _) ++ powerText l.power)
      rw [hpower]
      exact (congrArg _ (List.append_nil _)).symm

/-! ## Padding exponents -/

/-- A power with at least two digits. -/
def paddedPower (p : Power) : Power where
  __ := p
  digits := Text.padZeros 2 p.digits
  isRun := by
    obtain ⟨hne, hall⟩ := Conversion.isDigits_iff.1 p.isRun
    refine Conversion.isDigits_iff.2 ⟨List.append_ne_nil_of_right_ne_nil _ hne, ?_⟩
    have hzero : Text.isDigit (unit '0') = true := by decide
    simp [Text.padZeros, hall, hzero]

theorem padExponent_of_notMem {t : Text} (h : unit 'e' ∉ t) : padExponent t = t := by
  rw [padExponent]
  split
  · next d s e rest hreverse =>
    have he : (e == unit 'e') = false := by
      rw [beq_eq_false_iff_ne]
      rintro rfl
      exact h (List.mem_reverse.1 (hreverse ▸ by simp))
    rw [he, Bool.false_and, Bool.false_and, if_neg Bool.false_ne_true]
  · rfl

/-- A run of digits that ends a text behind a mark and a sign is padded to two. -/
theorem padExponent_append {w ds : Text} {sign : UInt16} (hds : isDigits ds = true)
    (hsign : (sign == unit '+' || sign == unit '-') = true) :
    padExponent (w ++ unit 'e' :: sign :: ds) = w ++ unit 'e' :: sign :: Text.padZeros 2 ds := by
  obtain ⟨hne, hall⟩ := Conversion.isDigits_iff.1 hds
  obtain ⟨ds, d, rfl⟩ := (List.eq_nil_or_concat' ds).resolve_left hne
  rw [List.all_append, List.all_cons, List.all_nil, Bool.and_true, Bool.and_eq_true] at hall
  obtain ⟨hall, hd⟩ := hall
  rcases List.eq_nil_or_concat' ds with rfl | ⟨ds, c, rfl⟩
  · simp [padExponent, hsign, hd, Text.padZeros]
  · rw [List.all_append, List.all_cons, List.all_nil, Bool.and_true, Bool.and_eq_true] at hall
    have hc : (c == unit '+' || c == unit '-') = false :=
      (Bool.or_comm _ _).trans (Conversion.isSign_of_isDigit hall.2)
    have hfull : Text.padZeros 2 (ds ++ [c] ++ [d]) = ds ++ [c] ++ [d] := by
      simp [Text.padZeros]
    have hreverse : (w ++ unit 'e' :: sign :: (ds ++ [c] ++ [d])).reverse =
        d :: c :: (ds.reverse ++ sign :: unit 'e' :: w.reverse) := by
      simp
    rw [hfull, padExponent, hreverse]
    split
    · next hsplit =>
      obtain ⟨rfl, rfl, -⟩ : _ ∧ _ ∧ _ := by simpa using hsplit
      rw [hc, Bool.and_false, Bool.false_and, if_neg Bool.false_ne_true]
    · rfl

/-- The layout with an exponent of at least two digits. -/
def padded (l : Layout) : Layout where
  __ := l
  power := l.power.map paddedPower

theorem two_le_of_mem_padded (l : Layout) : ∀ p ∈ l.padded.power, 2 ≤ p.digits.length := by
  intro p hp
  obtain ⟨q, -, rfl⟩ := Option.map_eq_some_iff.1 hp
  simp [paddedPower, Text.padZeros]
  omega

theorem value_padded (l : Layout) : l.padded.value = l.value := by
  have hexponent : exponentOf l.padded.power = exponentOf l.power := by
    cases hpower : l.power with
    | none => simp [padded, hpower]
    | some p =>
      simp [padded, hpower, exponentOf, Power.exponent, paddedPower, Text.toNat_padZeros]
  rw [value, value, numeral, hexponent]
  rfl

/-- Padding the exponent of a text pads that of its layout. -/
theorem padExponent_text {l : Layout} (hl : l.IsPlain) : padExponent l.text = l.padded.text := by
  cases hpower : l.power with
  | none =>
    have hsame : l.padded.text = l.text := by simp [text, behind, padded, hpower]
    rw [hsame, padExponent_of_notMem (mark_notMem_text hpower)]
  | some p =>
    obtain ⟨e, rfl⟩ := hl p hpower
    let w := l.whole ++ if l.places.isEmpty then [] else unit '.' :: l.places
    have htext : l.text = w ++ unit 'e' ::
        ((exponentPower e).sign.text ++ (exponentPower e).digits) := by
      rw [text, behind, hpower, ← List.append_assoc]
      rfl
    have hpadded : l.padded.text = w ++ unit 'e' ::
        ((exponentPower e).sign.text ++ Text.padZeros 2 (exponentPower e).digits) := by
      change l.whole ++ (_ ++ powerText (l.power.map paddedPower)) = _
      rw [hpower, ← List.append_assoc]
      rfl
    rw [htext, hpadded, sign_exponentPower]
    exact padExponent_append (exponentPower e).isRun (by split <;> decide)

/-! ## Capital letters -/

/-- The layout with a capital letter before its exponent. -/
def upper (l : Layout) : Layout where
  __ := l
  power := l.power.map fun p => { p with mark := unit 'E', isMark := by decide }

theorem value_upper (l : Layout) : l.upper.value = l.value := by
  have hexponent : exponentOf l.upper.power = exponentOf l.power := by
    cases hpower : l.power with
    | none => simp [upper, hpower]
    | some p => simp [upper, hpower, exponentOf, Power.exponent]
  rw [value, value, numeral, hexponent]
  rfl

theorem isNumeric_of_mem (l : Layout) : ∀ u ∈ l.text, Conversion.isNumeric u = true := by
  obtain ⟨d, hd, -⟩ := Conversion.exists_of_readDecimal l.readDecimal_text
  rw [← hd]
  exact d.isNumeric_of_mem

theorem lt_of_isNumeric {u : UInt16} (h : Conversion.isNumeric u = true) : u.toNat < 128 := by
  simp only [Conversion.isNumeric, Text.isDigit, Conversion.isSign, Conversion.isPoint,
    Conversion.isExponentMark, unit, Bool.or_eq_true, Bool.and_eq_true, decide_eq_true_eq,
    beq_iff_eq, UInt16.le_iff_toNat_le, ← UInt16.toNat_inj] at h
  simp at h
  omega

theorem map_upperUnit_of_isDigit {t : Text} (h : t.all Text.isDigit = true) :
    t.map Text.upperUnit = t := by
  refine (List.map_congr_left fun u hu => ?_).trans (List.map_id t)
  have hdigit := List.all_eq_true.1 h u hu
  simp only [Text.isDigit, unit, Bool.and_eq_true, decide_eq_true_eq,
    UInt16.le_iff_toNat_le] at hdigit
  simp only [Text.upperUnit, unit, Bool.and_eq_true, decide_eq_true_eq, UInt16.le_iff_toNat_le]
  simp at hdigit ⊢
  omega

/-- Writing a text in capital letters raises the mark of its layout. -/
theorem toUpper_text (l : Layout) : Text.toUpper l.text = l.upper.text := by
  rw [Text.toUpper_of_lt fun u hu => lt_of_isNumeric (l.isNumeric_of_mem u hu)]
  have hwhole := map_upperUnit_of_isDigit (Conversion.isDigits_iff.1 l.isRun).2
  have hplaces := map_upperUnit_of_isDigit l.decimal
  have hpower : (powerText l.power).map Text.upperUnit = powerText l.upper.power := by
    cases hp : l.power with
    | none => simp [upper, hp, powerText]
    | some p =>
      have hmark : Text.upperUnit p.mark = unit 'E' := by
        rcases Conversion.isMark_cases p.isMark with h | h <;> rw [h] <;> decide
      have hsign : p.sign.text.map Text.upperUnit = p.sign.text := by
        cases p.sign <;> decide
      have hdigits := map_upperUnit_of_isDigit (Conversion.isDigits_iff.1 p.isRun).2
      simp [upper, hp, powerText, Power.text, hmark, hsign, hdigits]
  have hpoint : Text.upperUnit (unit '.') = unit '.' := by decide
  rw [text, behind, List.map_append, List.map_append, hwhole, hpower]
  change _ = l.whole ++ ((if l.places.isEmpty then [] else unit '.' :: l.places) ++ _)
  split
  · rfl
  · rw [List.map_cons, hpoint, hplaces]

end Layout
end Format
end TreeExtraction
