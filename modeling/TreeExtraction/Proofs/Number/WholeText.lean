import Mathlib.Data.List.TakeWhile
import TreeExtraction.Number.Notation
import TreeExtraction.Proofs.Number.Whole
import TreeExtraction.Proofs.Text.Numeral

/-! # Texts of whole numbers

The shortest text of a whole number below `2 ^ 53` is its decimal numeral: no other whole number
reads back as it, and every grid of the search for the shortest digits consists of whole numbers.
-/

namespace TreeExtraction

namespace Magnitude

private theorem natPow_eq (b k : Nat) : Nat.pow b k = b ^ k := rfl

variable {x : Magnitude} {n : Nat}

theorem readsBack_whole_iff (hn : n < 2 ^ 53) (hx : x.scaled = n * unitsPerOne) (s place : Nat) :
    x.readsBack s place = true ↔ s * 10 ^ place = n := by
  have hdecimal : ofDecimal s place = nearest (s * 10 ^ place * unitsPerOne) 1 := by
    rw [ofDecimal, if_pos (Int.natCast_nonneg place), ofRatio, Int.toNat_natCast, natPow_eq]
  rw [readsBack, beq_iff_eq, hdecimal]
  exact nearest_whole_iff hn hx

private theorem onGrid?_eq {place : Int} {a d s : Nat} (h : x.overPower place = (a, d))
    (hs : a / d = s) (hnext : x.readsBack (s + 1) place = false) :
    x.onGrid? place = if x.readsBack s place then some s else none := by
  subst hs
  rw [onGrid?, h]
  simp only [hnext]
  cases x.readsBack (a / d) place <;> rfl

/-- A grid of whole numbers has a point that reads back only if the number lies on it. -/
theorem onGrid?_whole (hn : n < 2 ^ 53) (hx : x.scaled = n * unitsPerOne) (place : Nat) :
    x.onGrid? place = if 10 ^ place ∣ n then some (n / 10 ^ place) else none := by
  have hpos : 0 < 10 ^ place := by positivity
  have hover : x.overPower place = (x.scaled, unitsPerOne * 10 ^ place) := by
    rw [overPower, if_pos (Int.natCast_nonneg place), Int.toNat_natCast, natPow_eq]
  have hquot : x.scaled / (unitsPerOne * 10 ^ place) = n / 10 ^ place := by
    rw [hx, Nat.mul_comm n, Nat.mul_div_mul_left _ _ unitsPerOne_pos]
  have hnext : x.readsBack (n / 10 ^ place + 1) place = false := by
    rw [Bool.eq_false_iff, ne_eq, readsBack_whole_iff hn hx]
    exact Nat.ne_of_gt (Nat.lt_mul_of_div_lt (Nat.lt_succ_self _) hpos)
  have hself : x.readsBack (n / 10 ^ place) place = true ↔ 10 ^ place ∣ n := by
    rw [readsBack_whole_iff hn hx]
    exact ⟨Dvd.intro_left _, Nat.div_mul_cancel⟩
  rw [onGrid?_eq hover hquot hnext]
  simp only [hself]

-- A grid is not looked at here; without the attribute it is evaluated in units.
attribute [local irreducible] onGrid? in
theorem shortestFrom_succ {tries count : Nat} {place : Int}
    (h : x.point - count = place) : x.shortestFrom (tries + 1) count =
      match x.onGrid? place with
      | some s => decimalOf s place
      | none => x.shortestFrom tries (count + 1) := by
  subst h
  rfl

/-- The search for the shortest digits ends on a grid that holds the number. -/
theorem shortestFrom_whole (hn : n < 2 ^ 53) (hx : x.scaled = n * unitsPerOne) {p : Nat}
    (hp : x.point = p) (tries : Nat) {count : Nat} (hc : count ≤ p) (ht : p < count + tries) :
    ∃ s place : Nat, s * 10 ^ place = n ∧ x.shortestFrom tries count = decimalOf s place := by
  induction tries generalizing count with
  | zero => omega
  | succ tries ih =>
    have hplace : x.point - (count : Int) = ((p - count : Nat) : Int) := by omega
    rw [shortestFrom_succ hplace, onGrid?_whole hn hx]
    by_cases hdvd : 10 ^ (p - count) ∣ n
    · rw [if_pos hdvd]
      exact ⟨_, _, Nat.div_mul_cancel hdvd, rfl⟩
    · rw [if_neg hdvd]
      have hne : count ≠ p := by
        rintro rfl
        simp at hdvd
      exact ih (by omega) (by omega)

private theorem append_zeros (ds : List Nat) :
    ds = (ds.reverse.dropWhile (· == 0)).reverse ++
      List.replicate (ds.length - (ds.reverse.dropWhile (· == 0)).length) 0 := by
  have hsplit := List.takeWhile_append_dropWhile (p := (· == 0)) (l := ds.reverse)
  have hlen := congrArg List.length hsplit
  simp only [List.length_append, List.length_reverse] at hlen
  have hzeros : ds.reverse.takeWhile (· == 0) =
      List.replicate (ds.length - (ds.reverse.dropWhile (· == 0)).length) 0 := by
    rw [List.eq_replicate_iff]
    refine ⟨by omega, fun d hd => ?_⟩
    simpa using List.mem_takeWhile_imp hd
  conv_lhs => rw [← List.reverse_reverse ds, ← hsplit, List.reverse_append, hzeros,
    List.reverse_replicate]

/-- Positional notation fills the zeros in that were cut off. -/
theorem positional_decimalOf {s : Nat} (hs : s ≠ 0) (place : Nat) :
    (decimalOf s place).positional = Text.ofNat (s * 10 ^ place) := by
  have hdigits : Text.ofNat (s * 10 ^ place) =
      (Text.digits 10 s ++ List.replicate place 0).map Text.digitUnit := by
    rw [Text.ofNat, Text.ofNatBase, Text.digits_mul_pow (by decide) hs]
  have hne : (Text.digits 10 s).length ≠ 0 := by
    simpa using Text.digits_ne_nil (by decide) s
  have hcut := append_zeros (Text.digits 10 s)
  have hlen := List.dropWhile_sublist (· == 0) (l := (Text.digits 10 s).reverse) |>.length_le
  rw [List.length_reverse] at hlen
  simp only [decimalOf, Decimal.positional, Decimal.text, List.length_map, List.length_reverse]
  rw [if_neg (by omega), if_pos (by omega), hdigits]
  conv_rhs => rw [hcut]
  rw [List.append_assoc, List.replicate_append_replicate, List.map_append, List.map_replicate]
  congr 2
  omega

/-- The shortest text of a whole number is its numeral. -/
theorem toText_whole (hn : n < 2 ^ 53) (hx : x.scaled = n * unitsPerOne) :
    x.toText = Text.ofNat n := by
  by_cases h0 : n = 0
  · subst h0
    have hzero : x = zero := scaled_injective (by rw [hx, scaled_eq, zero]; simp)
    rw [hzero]
    rfl
  · have hmantissa : x.mantissa ≠ 0 := by
      intro hm
      rw [scaled_eq, hm, Nat.zero_mul] at hx
      exact Nat.mul_ne_zero h0 unitsPerOne_pos.ne' hx.symm
    have hzero : x.isZero = false := by simpa [isZero] using hmantissa
    have hwhole : x.whole = n := by rw [whole, hx, Nat.mul_div_cancel _ unitsPerOne_pos]
    have hpoint : x.point = ((Text.digits 10 n).length : Int) := by
      rw [point, if_pos, hwhole, digitCount]
      rw [hx]
      exact Nat.le_mul_of_pos_left _ (Nat.pos_of_ne_zero h0)
    have hsize : (Text.digits 10 n).length ≤ 16 :=
      Text.length_digits_le (by decide) (Nat.lt_trans hn (by decide))
    have hsome : (Text.digits 10 n).length ≠ 0 := by
      simpa using Text.digits_ne_nil (by decide) n
    obtain ⟨s, place, hs, hshort⟩ :=
      shortestFrom_whole hn hx hpoint 17 (Nat.one_le_iff_ne_zero.2 hsome) (by omega)
    have hs0 : s ≠ 0 := by
      rintro rfl
      exact h0 (by simpa using hs.symm)
    have hlast : x.shortest = decimalOf s place := by
      rw [shortest, hzero, if_neg (by decide), ← hshort]
    have hend : (decimalOf s place).point = ((Text.digits 10 n).length : Int) := by
      rw [← hs, Text.digits_mul_pow (by decide) hs0]
      simp [decimalOf]
      omega
    simp only [toText, hzero, hlast, hend]
    rw [if_neg (by decide), if_pos (by simp; omega), positional_decimalOf hs0, hs]

end Magnitude

namespace Number

/-- The text of an integer is its numeral. -/
theorem toText_of_toInt? {n : Number} {i : Int} (h : n.toInt? = some i)
    (hi : i.natAbs < 2 ^ 53) : n.toText = Text.ofInt i := by
  rcases exists_of_toInt? h with ⟨s, x, rfl, hscaled, hsign⟩
  have hzero : x.isZero = true ↔ i.natAbs = 0 := isZero_iff hscaled
  have hneg : (s && !x.isZero) = true ↔ i < 0 := by
    rw [Bool.and_eq_true, Bool.not_eq_true', ← Bool.not_eq_true, hzero]
    cases s <;> simp only [Bool.false_eq_true, if_false, if_true] at hsign <;> simp <;> omega
  rw [toText, Text.ofInt, Magnitude.toText_whole hi hscaled]
  simp only [hneg]

end Number

end TreeExtraction
