import TreeExtraction.Proofs.Number.WholeText

/-! # Texts of numbers are not empty

Every notation writes a digit. The search for the shortest digits finds some for each magnitude but
zero, since the significand that it ends with is not zero: a point of a grid that reads back as the
magnitude is not, and neither is the quotient that it falls back on.
-/

namespace TreeExtraction

namespace Magnitude

variable {x : Magnitude} {s : Nat} {place : Int}

theorem nearest_zero (d : Nat) : nearest 0 d = some zero := by
  simp [nearest, roundEven, ofParts?, zero]

theorem ofDecimal_zero (place : Int) : ofDecimal 0 place = some zero := by
  rw [ofDecimal]
  split <;> simp only [ofRatio, Nat.zero_mul, nearest_zero]

/-- Only zero reads back from a significand of zero. -/
theorem ne_zero_of_readsBack (hx : x.isZero = false) (h : x.readsBack s place = true) : s ≠ 0 := by
  rintro rfl
  rw [readsBack, beq_iff_eq, ofDecimal_zero] at h
  obtain rfl : zero = x := Option.some.inj h
  cases hx

theorem ne_zero_of_onGrid? (hx : x.isZero = false) (h : x.onGrid? place = some s) : s ≠ 0 := by
  rw [onGrid?] at h
  simp only at h
  split at h
  · next hread _ =>
    cases h
    have hquot := ne_zero_of_readsBack hx hread
    exact Nat.ne_of_gt (Nat.lt_of_lt_of_le (Nat.pos_of_ne_zero hquot) (div_le_roundEven _ _))
  · next hread _ =>
    cases h
    exact ne_zero_of_readsBack hx hread
  · next hread =>
    cases h
    exact ne_zero_of_readsBack hx hread
  · cases h

theorem scaled_ne_zero (hx : x.isZero = false) : x.scaled ≠ 0 := by
  rw [scaled_eq]
  exact Nat.mul_ne_zero (by simpa [isZero] using hx) (by positivity)

theorem overPower_ne_zero (hx : x.isZero = false) (place : Int) : (x.overPower place).1 ≠ 0 := by
  rw [overPower]
  split
  · exact scaled_ne_zero hx
  · exact Nat.mul_ne_zero (scaled_ne_zero hx) (Nat.pow_pos (by decide)).ne'

/-- Cutting off the zeros at the end leaves a digit of every significand but zero. -/
theorem digits_decimalOf_ne_nil (hs : s ≠ 0) (place : Int) : (decimalOf s place).digits ≠ [] := by
  rw [decimalOf, ne_eq, List.reverse_eq_nil_iff, Text.digits_eq_reverse (by decide) hs,
    List.reverse_reverse, List.dropWhile_eq_nil_iff]
  intro hzeros
  have hdigits : Nat.digits 10 s ≠ [] := Nat.digits_ne_nil_iff_ne_zero.2 hs
  exact Nat.getLast_digit_ne_zero 10 hs (beq_iff_eq.1 (hzeros _ (List.getLast_mem hdigits)))

theorem digits_shortestFrom_ne_nil (hx : x.isZero = false) (tries count : Nat) :
    (x.shortestFrom tries count).digits ≠ [] := by
  induction tries generalizing count with
  | zero => exact digits_decimalOf_ne_nil (overPower_ne_zero hx _) _
  | succ tries ih =>
    rw [shortestFrom_succ rfl]
    split
    · next hgrid => exact digits_decimalOf_ne_nil (ne_zero_of_onGrid? hx hgrid) _
    · exact ih (count + 1)

theorem digits_shortest_ne_nil (hx : x.isZero = false) : x.shortest.digits ≠ [] := by
  rw [shortest, hx, if_neg Bool.false_ne_true]
  exact digits_shortestFrom_ne_nil hx 17 1

end Magnitude

namespace Decimal

variable {d : Decimal}

theorem text_ne_nil (h : d.digits ≠ []) : d.text ≠ [] :=
  mt List.map_eq_nil_iff.1 h

theorem scientific_ne_nil (h : d.digits ≠ []) : d.scientific ≠ [] := by
  rw [scientific.eq_def]
  split
  · next hnil => exact absurd hnil (text_ne_nil h)
  · exact List.cons_ne_nil _ _

theorem positional_ne_nil (h : d.digits ≠ []) : d.positional ≠ [] := by
  rw [positional]
  split
  · exact List.append_ne_nil_of_right_ne_nil _ (text_ne_nil h)
  · split
    · exact List.append_ne_nil_of_left_ne_nil (text_ne_nil h) _
    · exact List.append_ne_nil_of_right_ne_nil _ (List.cons_ne_nil _ _)

end Decimal

theorem Magnitude.toText_ne_nil (x : Magnitude) : x.toText ≠ [] := by
  rw [toText]
  split
  · exact List.cons_ne_nil _ _
  · next hzero =>
    have hdigits := digits_shortest_ne_nil (Bool.eq_false_iff.2 hzero)
    simp only
    split
    · exact Decimal.positional_ne_nil hdigits
    · exact Decimal.scientific_ne_nil hdigits

theorem Number.toText_ne_nil (n : Number) : n.toText ≠ [] := by
  cases n with
  | nan => decide
  | infinite s => cases s <;> decide
  | finite s x =>
    rw [toText]
    split
    · exact List.cons_ne_nil _ _
    · exact x.toText_ne_nil

theorem Text.ofInt_ne_nil (n : Int) : ofInt n ≠ [] := by
  rw [ofInt]
  split
  · exact List.cons_ne_nil _ _
  · exact ofNat_ne_nil _

end TreeExtraction
