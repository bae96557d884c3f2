import TreeExtraction.Proofs.Number.Order
import TreeExtraction.Proofs.Text.Order
import TreeExtraction.Value.SampleHost

/-! # Order and equality agree

The ordering operators compare numbers, texts and truth values with their kind. Of two such values
one comes first or they are equal, so that of `lt`, `eq` and `gt` exactly one holds, and the two
other operators follow from these. Not-a-number stands in no order, and values of other kinds cannot
be compared at all.

One pair is an exception. An infinity has no difference from itself, so it is equal to itself, but
neither `lte` nor `gte` holds.
-/

namespace TreeExtraction

/-! ## The orders of texts and of truth values -/

namespace Text

variable {a b c : Text}

theorem order_eq_eq_iff : order a b = .eq ↔ a = b := by
  by_cases hab : a = b
  · simp [order, hab]
  · by_cases hlt : a < b <;> simp [order, before, hab, hlt]

theorem order_eq_lt_iff : order a b = .lt ↔ a < b := by
  by_cases hab : a = b
  · simp [order, hab, List.lt_irrefl]
  · by_cases hlt : a < b <;> simp [order, before, hab, hlt]

theorem order_swap (a b : Text) : order b a = (order a b).swap := by
  rcases lt_or_eq_or_gt a b with hlt | rfl | hgt
  · have hne : b ≠ a := fun heq => List.lt_irrefl a (heq ▸ hlt)
    have hnot : ¬b < a := fun hgt => List.lt_irrefl a (List.lt_trans hlt hgt)
    rw [order_eq_lt_iff.2 hlt]
    simp [order, before, hne, hnot]
  · simp [order]
  · have hne : a ≠ b := fun heq => List.lt_irrefl b (heq ▸ hgt)
    have hnot : ¬a < b := fun hlt => List.lt_irrefl a (List.lt_trans hlt hgt)
    rw [order_eq_lt_iff.2 hgt]
    simp [order, before, hne, hnot]

end Text

theorem boolOrder_eq_eq_iff {a b : Bool} : boolOrder a b = .eq ↔ a = b := by
  cases a <;> cases b <;> decide

theorem boolOrder_swap (a b : Bool) : boolOrder b a = (boolOrder a b).swap := by
  cases a <;> cases b <;> rfl

theorem boolOrder_lt_trans {a b c : Bool} (hab : boolOrder a b = .lt) (hbc : boolOrder b c = .lt) :
    boolOrder a c = .lt := by
  revert a b c
  decide

/-! ## Values of one ordered kind -/

namespace Value

/-- Whether two values are of one ordered kind. -/
inductive AreComparable : Value → Value → Prop where
  | numbers (x y : Number) : AreComparable (.number x) (.number y)
  | texts (s t : Text) : AreComparable (.text s) (.text t)
  | truthValues (p q : Bool) : AreComparable (.bool p) (.bool q)

/-- The order of two values of one ordered kind, where they have one. -/
def order : Value → Value → Option Ordering
  | .number x, .number y => x.order y
  | .text s, .text t => some (Text.order s t)
  | .bool p, .bool q => some (boolOrder p q)
  | _, _ => none

/-- Whether two values are one and the same infinity. -/
def areOneInfinity : Value → Value → Bool
  | .number (.infinite s), .number (.infinite t) => s == t
  | _, _ => false

variable {a b c : Value} {r : Ordering}

theorem AreComparable.symm (h : AreComparable a b) : AreComparable b a := by
  cases h <;> constructor

theorem AreComparable.trans (hab : AreComparable a b) (hbc : AreComparable b c) :
    AreComparable a c := by
  cases hab <;> cases hbc <;> constructor

theorem AreComparable.order_swap (h : AreComparable a b) :
    order b a = (order a b).map Ordering.swap := by
  cases h with
  | numbers x y => exact x.order_swap y
  | texts s t => exact congrArg some (Text.order_swap s t)
  | truthValues p q => exact congrArg some (boolOrder_swap p q)

theorem AreComparable.equal_of_order (h : AreComparable a b) (hr : order a b = some r) :
    a.equal b = (r == .eq) := by
  cases h with
  | numbers x y =>
    rw [equal]
    exact Number.same_of_order hr
  | texts s t =>
    cases hr
    rw [equal, Bool.eq_iff_iff, beq_iff_eq, beq_iff_eq, Text.order_eq_eq_iff]
  | truthValues p q =>
    cases hr
    rw [equal, Bool.eq_iff_iff, beq_iff_eq, beq_iff_eq, boolOrder_eq_eq_iff]

/-- Values without an order are one infinity, unless one of them is not-a-number. -/
theorem AreComparable.areOneInfinity_of_order (h : AreComparable a b) (ha : a ≠ .number .nan)
    (hb : b ≠ .number .nan) (hr : order a b = none) : areOneInfinity a b = true := by
  cases h with
  | numbers x y =>
    have hx : x ≠ .nan := fun hx => ha (congrArg Value.number hx)
    have hy : y ≠ .nan := fun hy => hb (congrArg Value.number hy)
    obtain ⟨s, rfl, rfl⟩ := Number.exists_of_order_eq_none hx hy hr
    exact beq_self_eq_true s
  | texts => cases hr
  | truthValues => cases hr

theorem order_of_areOneInfinity (h : areOneInfinity a b = true) : order a b = none := by
  rw [areOneInfinity.eq_def] at h
  split at h
  · next s t =>
    obtain rfl := beq_iff_eq.1 h
    rw [order, Number.order_infinite, if_pos rfl]
  · cases h

theorem equal_of_areOneInfinity (h : areOneInfinity a b = true) : a.equal b = true := by
  rw [areOneInfinity.eq_def] at h
  split at h
  · rw [equal]
    exact h
  · cases h

theorem AreComparable.of_areOneInfinity (h : areOneInfinity a b = true) : AreComparable a b := by
  rw [areOneInfinity.eq_def] at h
  split at h
  · exact .numbers _ _
  · cases h

theorem areOneInfinity_symm (h : areOneInfinity a b = true) : areOneInfinity b a = true := by
  rw [areOneInfinity.eq_def] at h
  split at h
  · exact beq_iff_eq.2 (beq_iff_eq.1 h).symm
  · cases h

theorem AreComparable.order_nan (h : AreComparable a b)
    (hnan : a = .number .nan ∨ b = .number .nan) : order a b = none := by
  cases h with
  | numbers x y =>
    rcases hnan with hx | hy
    · cases hx
      exact Number.order_nan_left y
    · cases hy
      exact Number.order_nan_right x
  | texts => rcases hnan with h | h <;> cases h
  | truthValues => rcases hnan with h | h <;> cases h

theorem AreComparable.order_lt_trans (hab : AreComparable a b) (hbc : AreComparable b c)
    (h : order a b = some .lt) (h' : order b c = some .lt) : order a c = some .lt := by
  cases hab with
  | numbers x y =>
    cases hbc with
    | numbers _ z =>
      rw [order, Number.order_eq_lt_iff] at h h' ⊢
      exact Number.less_trans h h'
  | texts s t =>
    cases hbc with
    | texts _ u =>
      rw [order, Option.some.injEq, Text.order_eq_lt_iff] at h h' ⊢
      exact List.lt_trans h h'
  | truthValues p q =>
    cases hbc with
    | truthValues _ r =>
      rw [order, Option.some.injEq] at h h' ⊢
      exact boolOrder_lt_trans h h'

end Value

/-! ## What the operators answer -/

namespace Operator

open Value

/-- The operators that order values. -/
def orderings : List Operator :=
  [.gt, .gte, .lt, .lte]

variable {o : Operator} {a b c : Value}

theorem compareBy_of_areComparable (o : Operator) (h : AreComparable a b) :
    o.compareBy a b = .ok (o.accepts (order a b)) := by
  cases h <;> rfl

/-- The failure of an ordering operator on values that cannot be compared. -/
theorem compareBy_of_not_areComparable (o : Operator) (h : ¬AreComparable a b) :
    o.compareBy a b = .error (.mismatch (.incomparable o a.kind b.kind) o.context) := by
  rw [compareBy.eq_def]
  split
  · exact absurd (.numbers _ _) h
  · exact absurd (.texts _ _) h
  · exact absurd (.truthValues _ _) h
  · rfl

theorem areComparable_of_compareBy {holds : Bool} (h : o.compareBy a b = .ok holds) :
    AreComparable a b := by
  by_contra hnot
  rw [compareBy_of_not_areComparable o hnot] at h
  cases h

theorem accepts_none (o : Operator) : o.accepts none = false := by
  cases o <;> rfl

section

variable [PureHost]

theorem evaluate_of_mem_orderings (ho : o ∈ orderings) (a b : Value) :
    o.evaluate a b = o.compareBy a b := by
  simp only [orderings, List.mem_cons, List.not_mem_nil, or_false] at ho
  rcases ho with rfl | rfl | rfl | rfl <;> rfl

/-- One value is less than another one exactly if it comes first in the order of their kind. -/
theorem evaluate_lt_eq_true : Operator.lt.evaluate a b = .ok true ↔
    AreComparable a b ∧ order a b = some .lt := by
  have hrun : Operator.lt.evaluate a b = Operator.lt.compareBy a b := rfl
  rw [hrun]
  constructor
  · intro h
    have hab : AreComparable a b := areComparable_of_compareBy h
    rw [compareBy_of_areComparable _ hab, Except.ok.injEq] at h
    refine ⟨hab, ?_⟩
    cases hr : order a b with
    | none => simp [hr, accepts] at h
    | some r => cases r <;> simp [hr, accepts] at h ⊢
  · rintro ⟨hab, hr⟩
    rw [compareBy_of_areComparable _ hab, hr]
    rfl

/-- What the operators of order and equality answer for two values that are less, the same or
greater. -/
structure Answers (a b : Value) (less same greater : Bool) : Prop where
  lt : Operator.lt.evaluate a b = .ok less
  eq : Operator.eq.evaluate a b = .ok same
  gt : Operator.gt.evaluate a b = .ok greater
  lte : Operator.lte.evaluate a b = .ok ((less || same) && !areOneInfinity a b)
  gte : Operator.gte.evaluate a b = .ok ((greater || same) && !areOneInfinity a b)

theorem answers_of_order {r : Ordering} (h : AreComparable a b) (hr : order a b = some r) :
    Answers a b (r == .lt) (r == .eq) (r == .gt) := by
  have hfinite : areOneInfinity a b = false := by
    rw [← Bool.not_eq_true]
    intro hinfinite
    rw [order_of_areOneInfinity hinfinite] at hr
    cases hr
  have hrun (o : Operator) (ho : o ∈ orderings) : o.evaluate a b = .ok (o.accepts (some r)) := by
    rw [evaluate_of_mem_orderings ho, compareBy_of_areComparable o h, hr]
  constructor
  · rw [hrun .lt (by decide)]
    cases r <;> rfl
  · exact congrArg Except.ok (h.equal_of_order hr)
  · rw [hrun .gt (by decide)]
    cases r <;> rfl
  · rw [hrun .lte (by decide), hfinite]
    cases r <;> rfl
  · rw [hrun .gte (by decide), hfinite]
    cases r <;> rfl

theorem answers_of_areOneInfinity (h : areOneInfinity a b = true) :
    Answers a b false true false := by
  have hrun (o : Operator) (ho : o ∈ orderings) : o.evaluate a b = .ok false := by
    rw [evaluate_of_mem_orderings ho, compareBy_of_areComparable o (.of_areOneInfinity h),
      order_of_areOneInfinity h, accepts_none]
  constructor
  · exact hrun .lt (by decide)
  · exact congrArg Except.ok (equal_of_areOneInfinity h)
  · exact hrun .gt (by decide)
  · rw [hrun .lte (by decide), h]
    rfl
  · rw [hrun .gte (by decide), h]
    rfl

/-- Two values of one ordered kind answer in one of three ways, and the other way round in the
opposite one. -/
theorem exists_answers (h : AreComparable a b) (ha : a ≠ .number .nan) (hb : b ≠ .number .nan) :
    ∃ less same greater : Bool, Answers a b less same greater ∧ Answers b a greater same less ∧
      [less, same, greater].count true = 1 := by
  cases hr : order a b with
  | none =>
    have hinfinite : areOneInfinity a b = true := h.areOneInfinity_of_order ha hb hr
    exact ⟨false, true, false, answers_of_areOneInfinity hinfinite,
      answers_of_areOneInfinity (areOneInfinity_symm hinfinite), rfl⟩
  | some r =>
    have hswap : order b a = some r.swap := by
      rw [h.order_swap, hr, Option.map_some]
    have hback := answers_of_order h.symm hswap
    cases r with
    | lt => exact ⟨true, false, false, answers_of_order h hr, hback, rfl⟩
    | eq => exact ⟨false, true, false, answers_of_order h hr, hback, rfl⟩
    | gt => exact ⟨false, false, true, answers_of_order h hr, hback, rfl⟩

/-- Of two values of one ordered kind one is less than the other or they are the same, and what the
operators say of the two agrees, but for an infinity and itself; not-a-number stands in no order,
and other values cannot be compared. -/
theorem evaluate_orderings (a b c : Value) :
    (AreComparable a b → a ≠ .number .nan → b ≠ .number .nan →
      ∃ less same greater : Bool, Answers a b less same greater ∧ Answers b a greater same less ∧
        [less, same, greater].count true = 1) ∧
    (Operator.lt.evaluate a b = .ok true → Operator.lt.evaluate b c = .ok true →
      Operator.lt.evaluate a c = .ok true) ∧
    (AreComparable a b → a = .number .nan ∨ b = .number .nan →
      ∀ o ∈ orderings, o.evaluate a b = .ok false) ∧
    (¬AreComparable a b → ∀ o ∈ orderings,
      o.evaluate a b = .error (.mismatch (.incomparable o a.kind b.kind) o.context)) := by
  refine ⟨exists_answers, ?_, ?_, ?_⟩
  · intro hab hbc
    obtain ⟨hab, hlt⟩ := evaluate_lt_eq_true.1 hab
    obtain ⟨hbc, hlt'⟩ := evaluate_lt_eq_true.1 hbc
    exact evaluate_lt_eq_true.2 ⟨hab.trans hbc, hab.order_lt_trans hbc hlt hlt'⟩
  · intro h hnan o ho
    rw [evaluate_of_mem_orderings ho, compareBy_of_areComparable o h, h.order_nan hnan,
      accepts_none]
  · intro h o ho
    rw [evaluate_of_mem_orderings ho, compareBy_of_not_areComparable o h]

end

section

open scoped SampleHost

/-- Zero, the least positive number and infinity ascend; not-a-number, and a text and a number, are
not ordered. -/
theorem evaluate_orderings_least :
    let zero := Value.number (.finite true .zero)
    let least := Value.number (.finite false ⟨1, 0, by decide, by decide, .inr rfl⟩)
    let infinity := Value.number (.infinite false)
    (AreComparable zero least ∧ zero ≠ .number .nan ∧ least ≠ .number .nan ∧
      ∃ less same greater : Bool, Answers zero least less same greater ∧
        Answers least zero greater same less ∧ [less, same, greater].count true = 1) ∧
    (Operator.lt.evaluate zero least = .ok true ∧ Operator.lt.evaluate least infinity = .ok true ∧
      Operator.lt.evaluate zero infinity = .ok true) ∧
    (AreComparable zero (.number .nan) ∧
      ∀ o ∈ orderings, o.evaluate zero (.number .nan) = .ok false) ∧
    (¬AreComparable (.text []) zero ∧ ∀ o ∈ orderings, o.evaluate (.text []) zero =
      .error (.mismatch (.incomparable o (units "string") (units "number")) o.context)) := by
  intro zero least infinity
  have hzero : zero ≠ .number .nan := by simp [zero]
  have hleast : least ≠ .number .nan := by simp [least]
  have hkinds : ¬AreComparable (.text []) zero := by
    intro h
    simp only [zero] at h
    cases h
  refine ⟨⟨.numbers _ _, hzero, hleast, ?_⟩, ⟨rfl, rfl, ?_⟩, ⟨.numbers _ _, ?_⟩, hkinds, ?_⟩
  · exact (evaluate_orderings zero least infinity).1 (.numbers _ _) hzero hleast
  · exact (evaluate_orderings zero least infinity).2.1 rfl rfl
  · exact (evaluate_orderings zero (.number .nan) infinity).2.2.1 (.numbers _ _) (.inr rfl)
  · exact (evaluate_orderings (.text []) zero infinity).2.2.2 hkinds

/-- An infinity is equal to itself, but `lte` does not hold of it and itself. -/
theorem not_forall_lte_iff :
    ¬∀ a b : Value, AreComparable a b → a ≠ .number .nan → b ≠ .number .nan →
      (Operator.lte.evaluate a b = .ok true ↔
        Operator.lt.evaluate a b = .ok true ∨ Operator.eq.evaluate a b = .ok true) := by
  intro h
  have hinfinity : Value.number (.infinite false) ≠ .number .nan := by simp
  have hequal : Operator.eq.evaluate (.number (.infinite false)) (.number (.infinite false)) =
      .ok true := congrArg Except.ok (equal_of_areOneInfinity rfl)
  have hlte := (h _ _ (.numbers _ _) hinfinity hinfinity).2 (.inr hequal)
  cases hlte

end

end Operator

end TreeExtraction
