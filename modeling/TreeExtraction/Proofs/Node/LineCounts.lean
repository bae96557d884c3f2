import TreeExtraction.Proofs.Node.Output
import TreeExtraction.Proofs.Number.Overflow
import TreeExtraction.Proofs.Transform.Conversion

/-! # Counts of content lines

A value counts lines if the transform `int` takes it and it is no truth value; the count is then the
integer of the value, or zero below. Everything else counts as one line. Counts are natural numbers
but for one kind of value: an integer text may spell a number past all that there are, and then the
count is infinite.
-/

namespace TreeExtraction

open Conversion

namespace Value

/-- Whether a value counts lines: a finite number or an integer text. -/
def IsCount : Value → Prop
  | .number n => n.isFinite = true
  | .text t => IsInteger t
  | _ => False

/-- Whether a value is an integer text for a number past all others. -/
def IsOverflowing : Value → Prop
  | .text t => ∃ d : IntegerText, Text.Padded d.text t ∧ d.sign.isMinus = false ∧
      Number.overflow ≤ Text.toNat d.digits
  | _ => False

end Value

variable {t : Text} {v : Value} {n : Number}

theorem contentLinesOf_number (n : Number) :
    contentLinesOf (.number n) = if n.isFinite then n.truncate.clampBelow else .ofNat 1 := rfl

theorem contentLinesOf_text (t : Text) :
    contentLinesOf (.text t) =
      match readInteger (Text.trim t) with
      | some i => i.toNumber.clampBelow
      | none => .ofNat 1 := rfl

/-! ## Numbers -/

theorem exists_truncate_of_isFinite (h : n.isFinite = true) :
    ∃ negative x, n.truncate = .finite negative x ∧ x.isWhole = true := by
  cases n with
  | finite negative x => exact ⟨negative, Number.exists_truncate negative x⟩
  | _ => cases h

theorem apply_int_number [PureHost] (h : n.isFinite = true) :
    (Transform.builtin .int).apply (.number n) = .ok (.number n.truncate) := by
  have hrun : (BuiltinTransform.int).run (.number n) = .number <$> toInteger (.number n) := rfl
  refine Outcome.inContext_eq_ok.2 ?_
  rw [hrun, toInteger, if_pos h]
  rfl

/-! ## Integer texts -/

/-- The number of an integer text. -/
theorem toNumber_numeral (d : IntegerText) :
    d.numeral.toNumber = .ofRatio d.sign.isMinus (Text.toNat d.digits) 1 :=
  Number.ofDecimal_whole _ _

theorem contentLinesOf_of_readInteger {i : Numeral} (h : readInteger (Text.trim t) = some i) :
    contentLinesOf (.text t) = i.toNumber.clampBelow := by
  rw [contentLinesOf_text, h]

theorem contentLinesOf_of_padded {d : IntegerText} (h : Text.Padded d.text t) :
    contentLinesOf (.text t) =
      (Number.ofRatio d.sign.isMinus (Text.toNat d.digits) 1).clampBelow := by
  have hread : readInteger (Text.trim t) = some d.numeral := by
    rw [Text.trim_of_padded d.isBlank_of_mem h, readInteger_text]
  rw [contentLinesOf_of_readInteger hread, toNumber_numeral]

theorem contentLinesOf_of_isOverflowing (h : v.IsOverflowing) :
    contentLinesOf v = .infinite false := by
  cases v with
  | text t =>
    obtain ⟨d, hpadded, hsign, hdigits⟩ := h
    rw [contentLinesOf_of_padded hpadded, hsign, Number.ofRatio_of_overflow false hdigits]
    rfl
  | _ => cases h

/-- The lower bound zero of a whole number that is negative or not past all others. -/
theorem exists_toInt?_clampBelow_ofRatio {negative : Bool} {k : ℕ}
    (h : negative = false → k < Number.overflow) :
    ∃ j : ℕ, (Number.ofRatio negative k 1).clampBelow.toInt? = some (j : ℤ) := by
  cases negative with
  | true =>
    refine ⟨0, ?_⟩
    rw [Number.clampBelow, Number.ofRatio, Number.isNegative_ofMagnitude, if_pos rfl,
      Number.toInt?_zero]
    rfl
  | false =>
    obtain ⟨x, hx, hwhole⟩ := Number.exists_ofRatio false (h rfl)
    rw [hx]
    exact Number.exists_toInt?_clampBelow false hwhole

/-! ## All values -/

/-- A count is what the transform `int` gives, or zero below. -/
theorem exists_apply_int_of_isCount [PureHost] (h : v.IsCount) :
    ∃ n, (Transform.builtin .int).apply v = .ok (.number n) ∧
      contentLinesOf v = if Number.zero.less n then n else .zero := by
  cases v with
  | number n =>
    have hfinite : n.isFinite = true := h
    obtain ⟨negative, x, htruncate, -⟩ := exists_truncate_of_isFinite hfinite
    refine ⟨n.truncate, apply_int_number hfinite, ?_⟩
    have hnan : n.truncate ≠ .nan := by
      rw [htruncate]
      exact nofun
    rw [contentLinesOf_number, if_pos hfinite, Number.clampBelow_eq hnan]
  | text t =>
    obtain ⟨i, hi⟩ := isInteger_iff.1 h
    refine ⟨i.toNumber, apply_int_eq_ok.2 ⟨i, hi, rfl⟩, ?_⟩
    have hnan : i.toNumber ≠ .nan := Number.ofDecimal_ne_nan _ _ _
    rw [contentLinesOf_of_readInteger hi, Number.clampBelow_eq hnan]
  | _ => cases h

theorem contentLinesOf_of_not_isCount (h : ¬v.IsCount) : contentLinesOf v = .ofNat 1 := by
  cases v with
  | number n => exact if_neg h
  | text t =>
    have hread : readInteger (Text.trim t) = none := by
      cases hread : readInteger (Text.trim t) with
      | none => rfl
      | some i => exact absurd (isInteger_iff.2 ⟨i, hread⟩) h
    rw [contentLinesOf_text, hread]
  | _ => rfl

theorem exists_toInt?_contentLinesOf (h : ¬v.IsOverflowing) :
    ∃ k : ℕ, (contentLinesOf v).toInt? = some (k : ℤ) := by
  by_cases hcount : v.IsCount
  · cases v with
    | number n =>
      have hfinite : n.isFinite = true := hcount
      obtain ⟨negative, x, htruncate, hwhole⟩ := exists_truncate_of_isFinite hfinite
      rw [contentLinesOf_number, if_pos hfinite, htruncate]
      exact Number.exists_toInt?_clampBelow negative hwhole
    | text t =>
      obtain ⟨d, hd⟩ := hcount
      rw [contentLinesOf_of_padded hd]
      refine exists_toInt?_clampBelow_ofRatio fun hsign => ?_
      by_contra hge
      exact h ⟨d, hd, hsign, Nat.le_of_not_lt hge⟩
    | _ => cases hcount
  · rw [contentLinesOf_of_not_isCount hcount]
    exact ⟨1, Number.toInt?_ofRatio false (by norm_num)⟩

/-- Counts of content lines, of every value and in every tree. For a finite number and an integer
text the count is what the transform `int` gives, or zero below; for everything else it is one. It
is a natural number, unless the value is an integer text for a number past all others: then it is
infinite. Every node of a tree has the count of what its own source holds in the field of content
lines. -/
theorem contentLinesOf_answers [PureHost] (v : Value) :
    (v.IsCount → ∃ n, (Transform.builtin .int).apply v = .ok (.number n) ∧
      contentLinesOf v = if Number.zero.less n then n else .zero) ∧
    (¬v.IsCount → contentLinesOf v = .ofNat 1) ∧
    (v.IsOverflowing → contentLinesOf v = .infinite false) ∧
    (¬v.IsOverflowing → ∃ k : ℕ, (contentLinesOf v).toInt? = some (k : ℤ)) ∧
    ∀ (d : Definition) (limit : ℕ) (source : Value) (n m : Node),
      (d.convertWithin limit source).outcome = .ok (some n) → n.Contains m →
        ∃ s ∈ d.visitedWithin limit source, ∃ base lines, (d.baseType s).outcome = .ok base ∧
          ((d.effectiveFields base).contentLines.run s).outcome = .ok lines ∧
          m.head.contentLines = contentLinesOf lines := by
  refine ⟨exists_apply_int_of_isCount, contentLinesOf_of_not_isCount,
    contentLinesOf_of_isOverflowing, exists_toInt?_contentLinesOf, ?_⟩
  intro d limit source n m hconvert hcontains
  obtain ⟨s, hs, room, hroom⟩ := Definition.exists_source_of_contains hconvert hcontains
  obtain ⟨found, hfound, hhead⟩ := Definition.readHead_of_convertWithin hroom
  obtain ⟨-, -, -, -, lines, hlines, heq⟩ := Definition.of_readHead hhead
  exact ⟨s, hs, found.name?, lines, Definition.baseType_of_foundType hfound, hlines, heq.symm⟩

/-- A digit one before 309 zeros counts infinitely many lines. -/
theorem not_forall_contentLinesOf_natural :
    ¬∀ v : Value, ∃ k : ℕ, (contentLinesOf v).toInt? = some (k : ℤ) := by
  intro h
  obtain ⟨k, hk⟩ := h (.text (unit '1' :: List.replicate 309 (unit '0')))
  have hinfinite : contentLinesOf (.text (unit '1' :: List.replicate 309 (unit '0'))) =
      .infinite false := by decide +kernel
  rw [hinfinite] at hk
  cases hk

end TreeExtraction
