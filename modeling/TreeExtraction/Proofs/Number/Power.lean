import TreeExtraction.Proofs.Number.Exact

/-! # Powers of ten

Up to the exponent 22 a power of ten is a number, for `5 ^ 22` is below `2 ^ 53`, and what the
logarithm and the exponential compute is that number.
-/

namespace TreeExtraction

namespace Number

open Magnitude

/-- Ten to the power of a finite number. -/
def tenTo : Number → Number
  | .finite _ x => powerOfTen x
  | n => n

theorem tenTo_ofNat : ∀ p ≤ 22, tenTo (ofNat p) = ofNat (10 ^ p) := by
  decide +kernel

/-- Powers of ten are exact up to `10 ^ 22`. -/
theorem exists_powerOfTen {x : Magnitude} {p : ℕ} (hx : x.scaled = p * unitsPerOne) (hp : p ≤ 22) :
    ∃ f : Magnitude, powerOfTen x = .finite false f ∧ f.scaled = 10 ^ p * unitsPerOne := by
  obtain ⟨y, hy, hyscaled⟩ := exists_ofRatio_whole false (k := p) (by omega)
  have hxy : y = x := scaled_injective (hyscaled.trans hx.symm)
  have hten : powerOfTen x = ofNat (10 ^ p) := by
    rw [← tenTo_ofNat p hp, ofNat, hy, hxy]
    rfl
  obtain ⟨w, -, hw, hU⟩ := exists_unitsPerOne_eq
  have hfive : 5 ^ p < 2 ^ 53 :=
    (Nat.pow_le_pow_right (by decide) hp).trans_lt (by norm_num : 5 ^ 22 < 2 ^ 53)
  obtain ⟨f, hf⟩ := exists_scaled hfive (e := p + w) (by omega)
  have hscaled : f.scaled = 10 ^ p * unitsPerOne := by
    rw [hf, hU, Nat.pow_add, ← Nat.mul_assoc, ← Nat.mul_pow]
  exact ⟨f, hten.trans (ofNat_of_scaled hscaled), hscaled⟩

end Number

end TreeExtraction
