import Mathlib.Data.Nat.Digits.Lemmas
import TreeExtraction.Text.Digits

/-! # Decimal numerals

The numeral of a number is a non-empty run of decimal digits that denotes the number. Its digits
are the ones of the positional system, so a factor `10 ^ k` shows as `k` zeros at the end.
-/

namespace TreeExtraction.Text

theorem pushDigits_eq {base limit n : Nat} (hb : 2 ≤ base) (hn : n ≠ 0) (hl : n < 2 ^ limit)
    (acc : List Nat) : pushDigits base limit n acc = (Nat.digits base n).reverse ++ acc := by
  induction limit generalizing n acc with
  | zero => omega
  | succ limit ih =>
    unfold pushDigits
    split
    · next h => simp [Nat.digits_of_lt base n hn h]
    · next h =>
      have hq : n / base ≠ 0 := by
        have := Nat.div_pos (Nat.le_of_not_lt h) (by omega)
        omega
      have hlt : n / base < 2 ^ limit := by
        have h2 : n / base ≤ n / 2 := Nat.div_le_div_left hb (by decide)
        rw [Nat.pow_succ] at hl
        omega
      rw [ih hq hlt, Nat.digits_def' hb (Nat.pos_of_ne_zero hn)]
      simp

theorem digits_eq_reverse {base n : Nat} (hb : 2 ≤ base) (hn : n ≠ 0) :
    digits base n = (Nat.digits base n).reverse := by
  simpa [digits] using pushDigits_eq hb hn Nat.lt_log2_self []

theorem ofDigits_eq_reverse (base : Nat) (ds : List Nat) :
    ofDigits base ds = Nat.ofDigits base ds.reverse := by
  rw [Nat.ofDigits_eq_foldr, List.foldr_reverse, ofDigits]
  congr 1
  funext n d
  simp [Nat.add_comm]

theorem ofDigits_digits {base : Nat} (hb : 2 ≤ base) (n : Nat) :
    ofDigits base (digits base n) = n := by
  by_cases hn : n = 0
  · subst hn
    simp [digits, pushDigits, ofDigits, Nat.lt_of_lt_of_le Nat.zero_lt_two hb]
  · rw [digits_eq_reverse hb hn, ofDigits_eq_reverse, List.reverse_reverse, Nat.ofDigits_digits]

theorem digits_lt {base n d : Nat} (hb : 2 ≤ base) (hd : d ∈ digits base n) : d < base := by
  by_cases hn : n = 0
  · subst hn
    have h0 : digits base 0 = [0] := by
      simp [digits, pushDigits, Nat.lt_of_lt_of_le Nat.zero_lt_two hb]
    rw [h0, List.mem_singleton] at hd
    omega
  · rw [digits_eq_reverse hb hn, List.mem_reverse] at hd
    exact Nat.digits_lt_base hb hd

theorem digits_ne_nil {base : Nat} (hb : 2 ≤ base) (n : Nat) : digits base n ≠ [] := by
  by_cases hn : n = 0
  · subst hn
    simp [digits, pushDigits, Nat.lt_of_lt_of_le Nat.zero_lt_two hb]
  · rw [digits_eq_reverse hb hn, ne_eq, List.reverse_eq_nil_iff]
    exact Nat.digits_ne_nil_iff_ne_zero.2 hn

/-- A power of the base puts zeros behind the digits. -/
theorem digits_mul_pow {base n : Nat} (hb : 2 ≤ base) (hn : n ≠ 0) (k : Nat) :
    digits base (n * base ^ k) = digits base n ++ List.replicate k 0 := by
  have hk : n * base ^ k ≠ 0 := Nat.mul_ne_zero hn (by positivity)
  rw [digits_eq_reverse hb hk, digits_eq_reverse hb hn, Nat.mul_comm,
    Nat.digits_base_pow_mul hb (Nat.pos_of_ne_zero hn)]
  simp

theorem digitValue_digitUnit : ∀ d < 10, digitValue (digitUnit d) = d := by
  decide

theorem isDigit_digitUnit : ∀ d < 10, isDigit (digitUnit d) = true := by
  decide

theorem all_isDigit_ofNat (n : Nat) : (ofNat n).all isDigit = true := by
  rw [ofNat, ofNatBase, List.all_map, List.all_eq_true]
  intro d hd
  exact isDigit_digitUnit d (digits_lt (by decide) hd)

theorem ofNat_ne_nil (n : Nat) : ofNat n ≠ [] := by
  simp [ofNat, ofNatBase, digits_ne_nil]

/-- A numeral denotes its number. -/
theorem toNat_ofNat (n : Nat) : toNat (ofNat n) = n := by
  have hmap : (ofNat n).map digitValue = digits 10 n := by
    rw [ofNat, ofNatBase, List.map_map]
    conv_rhs => rw [← List.map_id (digits 10 n)]
    apply List.map_congr_left
    intro d hd
    exact digitValue_digitUnit d (digits_lt (by decide) hd)
  rw [toNat, hmap, ofDigits_digits (by decide)]

/-- The numeral of a number below `10 ^ k` has at most `k` digits. -/
theorem length_digits_le {n k : Nat} (hk : k ≠ 0) (h : n < 10 ^ k) : (digits 10 n).length ≤ k := by
  by_cases hn : n = 0
  · subst hn
    simpa [digits, pushDigits] using Nat.one_le_iff_ne_zero.2 hk
  · rw [digits_eq_reverse (by decide) hn, List.length_reverse]
    exact (Nat.digits_length_le_iff (by decide) n).2 h

end TreeExtraction.Text
