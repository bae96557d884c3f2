import TreeExtraction.Proofs.Number.Whole
import TreeExtraction.Proofs.Outcome
import TreeExtraction.Proofs.Text.CodePoints
import TreeExtraction.Transform.Text
import TreeExtraction.Value.SampleHost

/-! # Truncation

A text that is longer than a length is cut to it in code points and ends with the suffix, or with as
much of the suffix as fits. The result is never longer than the length, although surrogates may meet
where the suffix begins, so truncation leaves what it has cut alone.
-/

namespace TreeExtraction

open Outcome

variable {m : Number} {i : Int}

/-! ## Counts and integers -/

namespace Number

theorem admits_iff (hm : m.toInt? = some i) (count : Nat) :
    m.admits count = true ↔ (count : Int) ≤ i := by
  obtain ⟨negative, x, rfl, hscaled, hsign⟩ := exists_of_toInt? hm
  have hzero := isZero_iff hscaled
  have hwhole := whole_of_scaled hscaled
  cases negative with
  | false =>
    simp only [Bool.false_eq_true, if_false] at hsign
    simp only [admits, Bool.false_eq_true, if_false, decide_eq_true_eq, hwhole]
    omega
  | true =>
    simp only [if_true] at hsign
    simp only [admits, if_true, Bool.and_eq_true, beq_iff_eq, hzero]
    omega

theorem isWithin_iff (hm : m.toInt? = some i) (count : Nat) :
    m.isWithin count = true ↔ i ≤ (count : Int) := by
  obtain ⟨negative, x, rfl, hscaled, hsign⟩ := exists_of_toInt? hm
  have hwhole := whole_of_scaled hscaled
  have hexact : x.isWhole = true := isWhole_iff.2 (by rw [hwhole, hscaled])
  cases negative with
  | false =>
    simp only [Bool.false_eq_true, if_false] at hsign
    simp only [isWithin, hwhole, hexact, Bool.false_or, Bool.and_true, Bool.or_eq_true,
      decide_eq_true_eq, beq_iff_eq]
    omega
  | true =>
    simp only [if_true] at hsign
    simp only [isWithin, Bool.true_or, true_iff]
    omega

theorem sliceLength_eq (hm : m.toInt? = some i) : m.sliceLength = i.toNat := by
  obtain ⟨negative, x, rfl, hscaled, hsign⟩ := exists_of_toInt? hm
  cases negative with
  | false =>
    simp only [Bool.false_eq_true, if_false] at hsign
    rw [sliceLength, whole_of_scaled hscaled]
    omega
  | true =>
    simp only [if_true] at hsign
    rw [sliceLength.eq_def]
    simp only
    omega

end Number

/-! ## The result -/

namespace Text

variable {t suffix : Text}

theorem truncate_eq_self (hm : m.toInt? = some i) (h : ((codePoints t).length : Int) ≤ i) :
    truncate t m suffix = t := by
  rw [truncate, if_pos ((Number.admits_iff hm _).2 h)]

/-- A text that is too long is cut in one of three ways. -/
theorem truncate_of_lt (hm : m.toInt? = some i) (h : i < ((codePoints t).length : Int)) :
    truncate t m suffix =
      if i ≤ 0 then []
      else if i ≤ ((codePoints suffix).length : Int) then ((codePoints suffix).take i.toNat).flatten
      else ((codePoints t).take (i - (codePoints suffix).length).toNat).flatten ++ suffix := by
  have hlong : m.admits (codePoints t).length = false := by
    rw [← Bool.not_eq_true, Number.admits_iff hm]
    omega
  simp only [truncate, hlong, Bool.false_eq_true, if_false, Number.isWithin_iff hm, Nat.cast_zero,
    Number.sliceLength_eq hm, takePoints]
  split
  · rfl
  · split
    · rfl
    · congr 3
      omega

/-- What is left is at most as long as asked for. -/
theorem length_truncate_le (hm : m.toInt? = some i) :
    ((codePoints (truncate t m suffix)).length : Int) ≤ max i 0 := by
  by_cases h : ((codePoints t).length : Int) ≤ i
  · rw [truncate_eq_self hm h]
    omega
  · rw [truncate_of_lt hm (by omega)]
    split
    · simp [codePoints]
    · split
      · have htake := length_codePoints_take_le suffix i.toNat
        omega
      · -- Where the suffix begins, surrogates can only merge.
        have htake := length_codePoints_take_le t (i - (codePoints suffix).length).toNat
        have happend := length_codePoints_append_le
          ((codePoints t).take (i - (codePoints suffix).length).toNat).flatten suffix
        omega

theorem truncate_truncate (hm : m.toInt? = some i) :
    truncate (truncate t m suffix) m suffix = truncate t m suffix := by
  have hlength : ((codePoints (truncate t m suffix)).length : Int) ≤ max i 0 :=
    length_truncate_le hm
  by_cases h : 0 ≤ i
  · exact truncate_eq_self hm (by omega)
  · have hempty : truncate t m suffix = [] := by
      rw [truncate_of_lt hm (by omega), if_pos (by omega)]
    rw [hempty, truncate_of_lt hm (by simp [codePoints]; omega), if_pos (by omega)]

end Text

/-! ## Values -/

section

variable [PureHost]

theorem Value.toText_text (t : Text) : (Value.text t).toText = .ok t := rfl

theorem truncateValue_eq {v : Value} {t : Text} (hv : v.toText = .ok t) (suffix : Text) :
    truncateValue v (some m) (some suffix) = .ok (Text.truncate t m suffix) := by
  rw [truncateValue, hv]
  rfl

/-- Truncation to an integer length, exactly: a text that is not too long stays, and of all others
either nothing is left, or the beginning and the suffix, or the beginning of the suffix. The result
has no more code points than asked for, and is what its own truncation gives. -/
theorem truncateValue_exact (v : Value) (t suffix : Text) (m : Number) (i : Int)
    (hv : v.toText = .ok t) (hm : m.toInt? = some i) :
    ∃ result, truncateValue v (some m) (some suffix) = .ok result ∧
      ((Text.codePoints t).length ≤ i → result = t) ∧
      (i < (Text.codePoints t).length → i ≤ 0 → result = []) ∧
      (i < (Text.codePoints t).length → 0 < i → (Text.codePoints suffix).length < i →
        result = ((Text.codePoints t).take (i - (Text.codePoints suffix).length).toNat).flatten ++
          suffix) ∧
      (i < (Text.codePoints t).length → 0 < i → i ≤ (Text.codePoints suffix).length →
        result = ((Text.codePoints suffix).take i.toNat).flatten) ∧
      (Text.codePoints result).length ≤ max i 0 ∧
      truncateValue (.text result) (some m) (some suffix) = .ok result := by
  refine ⟨Text.truncate t m suffix, truncateValue_eq hv suffix, ?_, ?_, ?_, ?_, ?_, ?_⟩
  · intro hshort
    exact Text.truncate_eq_self hm hshort
  · intro hlong hi
    rw [Text.truncate_of_lt hm hlong, if_pos hi]
  · intro hlong hi hsuffix
    rw [Text.truncate_of_lt hm hlong, if_neg (by omega), if_neg (by omega)]
  · intro hlong hi hsuffix
    rw [Text.truncate_of_lt hm hlong, if_neg (by omega), if_pos hsuffix]
  · exact Text.length_truncate_le hm
  · rw [truncateValue_eq (Value.toText_text _) suffix, Text.truncate_truncate hm]

end

open scoped SampleHost in
/-- The suffix closes a surrogate pair that the cut has opened, so two code points are left and not
three. -/
theorem truncateValue_exact_pair :
    let t : Text := [unit 'a', 0xD83D, unit 'b', unit 'c']
    let suffix : Text := [0xDE00]
    (Value.text t).toText = .ok t ∧ (Number.ofNat 3).toInt? = some 3 ∧
      ∃ result, truncateValue (.text t) (some (.ofNat 3)) (some suffix) = .ok result ∧
        result = [unit 'a', 0xD83D, 0xDE00] ∧ (Text.codePoints result).length = 2 ∧
        truncateValue (.text result) (some (.ofNat 3)) (some suffix) = .ok result := by
  intro t suffix
  have hthree : (Number.ofNat 3).toInt? = some 3 := Number.toInt?_ofRatio false (by decide)
  obtain ⟨result, hresult, -, -, hcut, -, -, hagain⟩ :=
    truncateValue_exact (.text t) t suffix (.ofNat 3) 3 rfl hthree
  have hunits : result = [unit 'a', 0xD83D, 0xDE00] := hcut (by decide) (by decide) (by decide)
  exact ⟨rfl, hthree, result, hresult, hunits, by rw [hunits]; decide, hagain⟩

end TreeExtraction
