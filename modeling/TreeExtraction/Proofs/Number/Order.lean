import Mathlib.Order.Compare
import TreeExtraction.Filter.Evaluation
import TreeExtraction.Proofs.Number.Notation

/-! # The order of numbers

Two numbers are ordered by the sign of their difference, which is rounded. Rounding leaves the sign
of a difference as it is, for a difference that is not zero is at least the least magnitude, so the
order that is found is the numeric one. Only an infinity has no difference from itself.
-/

namespace TreeExtraction

namespace Magnitude

theorem isZero_iff_scaled {x : Magnitude} : x.isZero = true ↔ x.scaled = 0 := by
  cases hx : x.isZero with
  | true =>
    rw [isZero, beq_iff_eq] at hx
    simp [scaled_eq, hx]
  | false => simpa using scaled_ne_zero hx

/-- A magnitude that is nearest to a positive number of units is not zero. -/
theorem isZero_of_nearest {a : Nat} {x : Magnitude} (ha : a ≠ 0) (h : nearest a 1 = some x) :
    x.isZero = false := by
  have hpow : 2 ^ (a.log2 - 52) ≤ a :=
    (Nat.pow_le_pow_right (by decide) (Nat.sub_le _ _)).trans (Nat.log2_self_le ha)
  have hround : 0 < roundEven a (1 * 2 ^ (a.log2 - 52)) := by
    refine Nat.lt_of_lt_of_le ?_ (div_le_roundEven _ _)
    rw [Nat.one_mul]
    exact Nat.div_pos hpow (Nat.pow_pos (by decide))
  have hunits : x.scaled ≠ 0 := by
    rw [nearest, Nat.div_one] at h
    split at h
    · rw [ofParts?_scaled h]
      exact Nat.mul_ne_zero (by decide) (Nat.pow_pos (by decide)).ne'
    · rw [ofParts?_scaled h]
      exact Nat.mul_ne_zero hround.ne' (Nat.pow_pos (by decide)).ne'
  rw [← Bool.not_eq_true, isZero_iff_scaled]
  exact hunits

/-- A magnitude with a sign, in units. -/
def signed (negative : Bool) (x : Magnitude) : Int :=
  if negative then -(x.scaled : Int) else x.scaled

theorem signed_not (negative : Bool) (x : Magnitude) :
    x.signed (!negative) = -x.signed negative := by
  cases negative <;> simp [signed]

end Magnitude

namespace Number

open Magnitude

variable {a b c : Number} {s t : Bool} {x y : Magnitude}

/-! ## The numeric order -/

theorem less_finite : less (.finite s x) (.finite t y) = true ↔ x.signed s < y.signed t :=
  decide_eq_true_iff

/-- Finite numbers are equal where they are as many units: zeros of both signs are none. -/
theorem equal_finite : equal (.finite s x) (.finite t y) = true ↔ x.signed s = y.signed t := by
  have hscaled : x = y ↔ x.scaled = y.scaled := scaled_injective.eq_iff.symm
  rw [equal, Bool.or_eq_true, Bool.and_eq_true, Bool.and_eq_true, beq_iff_eq, beq_iff_eq,
    isZero_iff_scaled, isZero_iff_scaled, hscaled]
  cases s <;> cases t <;> simp only [signed] <;> grind

theorem less_trans (hab : a.less b = true) (hbc : b.less c = true) : a.less c = true := by
  cases a with
  | nan => cases hab
  | infinite s =>
    cases b with
    | nan => cases hab
    | infinite t => cases c <;> grind [less]
    | finite t y => cases c <;> grind [less]
  | finite s x =>
    cases b with
    | nan => cases hab
    | infinite t => cases c <;> grind [less]
    | finite t y =>
      cases c with
      | nan => cases hbc
      | infinite r => exact hbc
      | finite r z => exact less_finite.2 (lt_trans (less_finite.1 hab) (less_finite.1 hbc))

/-! ## The sign of a difference -/

theorem sub_finite (s t : Bool) (x y : Magnitude) : sub (.finite s x) (.finite t y) =
    if x.signed s - y.signed t = 0 then .finite (s && !t) .zero
    else ofMagnitude (decide (x.signed s - y.signed t < 0))
      (nearest (x.signed s - y.signed t).natAbs 1) := by
  have hsum : x.signed s + y.signed (!t) = x.signed s - y.signed t := by
    rw [signed_not, Int.sub_eq_add_neg]
  rw [← hsum]
  rfl

/-- The difference of finite numbers has the sign that it has before it is rounded. -/
theorem order_finite (s t : Bool) (x y : Magnitude) :
    order (.finite s x) (.finite t y) = some (compare (x.signed s) (y.signed t)) := by
  rw [order, sub_finite]
  split
  · next heq =>
    rw [compare_eq_iff_eq.2 (Int.sub_eq_zero.1 heq)]
    rfl
  · next hne =>
    have hcompare : compare (x.signed s) (y.signed t) =
        if x.signed s - y.signed t < 0 then .lt else .gt := by
      split
      · next hlt => exact compare_lt_iff_lt.2 (by omega)
      · next hge => exact compare_gt_iff_gt.2 (by omega)
    rw [hcompare]
    cases hx : nearest (x.signed s - y.signed t).natAbs 1 with
    | none => simp [ofMagnitude, sign?]
    | some z => simp [ofMagnitude, sign?, isZero_of_nearest (Int.natAbs_ne_zero.2 hne) hx]

theorem order_nan_left (b : Number) : order .nan b = none := rfl

theorem order_nan_right (a : Number) : order a .nan = none := by
  cases a <;> rfl

theorem order_infinite_finite (s t : Bool) (y : Magnitude) :
    order (.infinite s) (.finite t y) = some (if s then .lt else .gt) := rfl

theorem order_finite_infinite (s t : Bool) (x : Magnitude) :
    order (.finite s x) (.infinite t) = some (if t then .gt else .lt) := by
  cases t <;> rfl

theorem order_infinite (s t : Bool) :
    order (.infinite s) (.infinite t) = if s = t then none else some (if s then .lt else .gt) := by
  cases s <;> cases t <;> rfl

/-- The order that is found is the numeric one. -/
theorem order_eq_lt_iff : a.order b = some .lt ↔ a.less b = true := by
  cases a with
  | nan => simp [order_nan_left, less]
  | infinite s =>
    cases b with
    | nan => simp [order_nan_right, less]
    | infinite t => cases s <;> cases t <;> simp [order_infinite, less]
    | finite t y => cases s <;> simp [order_infinite_finite, less]
  | finite s x =>
    cases b with
    | nan => simp [order_nan_right, less]
    | infinite t => cases t <;> simp [order_finite_infinite, less]
    | finite t y => rw [order_finite, Option.some.injEq, compare_lt_iff_lt, less_finite]

theorem order_swap (a b : Number) : b.order a = (a.order b).map Ordering.swap := by
  cases a with
  | nan => rw [order_nan_left, order_nan_right, Option.map_none]
  | infinite s =>
    cases b with
    | nan => rw [order_nan_left, order_nan_right, Option.map_none]
    | infinite t => cases s <;> cases t <;> rfl
    | finite t y => cases s <;> rfl
  | finite s x =>
    cases b with
    | nan => rw [order_nan_left, order_nan_right, Option.map_none]
    | infinite t => cases t <;> rfl
    | finite t y => rw [order_finite, order_finite, Option.map_some, ← Std.OrientedCmp.eq_swap]

/-- Numbers that have an order are equal where neither comes first. -/
theorem same_of_order {r : Ordering} (h : a.order b = some r) : a.same b = (r == .eq) := by
  cases a with
  | nan => cases h
  | infinite s =>
    cases b with
    | nan => cases h
    | infinite t => cases s <;> cases t <;> cases h <;> rfl
    | finite t y => cases s <;> cases h <;> rfl
  | finite s x =>
    cases b with
    | nan => cases h
    | infinite t => cases t <;> cases h <;> rfl
    | finite t y =>
      have hsame : same (.finite s x) (.finite t y) = equal (.finite s x) (.finite t y) := rfl
      rw [order_finite] at h
      cases h
      rw [hsame, Bool.eq_iff_iff, equal_finite, beq_iff_eq, compare_eq_iff_eq]

/-- Numbers without an order are one infinity, unless one of them is not-a-number. -/
theorem exists_of_order_eq_none (ha : a ≠ .nan) (hb : b ≠ .nan) (h : a.order b = none) :
    ∃ s, a = .infinite s ∧ b = .infinite s := by
  cases a with
  | nan => exact absurd rfl ha
  | infinite s =>
    cases b with
    | nan => exact absurd rfl hb
    | infinite t =>
      rw [order_infinite] at h
      split at h
      · next heq => exact ⟨s, rfl, heq ▸ rfl⟩
      · cases h
    | finite t y => cases h
  | finite s x =>
    cases b with
    | nan => exact absurd rfl hb
    | infinite t => cases t <;> cases h
    | finite t y =>
      rw [order_finite] at h
      cases h

end Number

end TreeExtraction
