import TreeExtraction.Proofs.Filter.NormalForm
import TreeExtraction.Value.SampleHost

/-! # Filtering by several predicates

Filtering evaluates the predicate on every item, and so succeeds exactly if each of these
evaluations does; what it keeps are the items that satisfy the predicate. A conjunction goes through
the items once and skips its second clause where the first does not hold, and filtering twice skips
the same evaluations, since it has dropped those items by then. So both succeed on the same lists
and keep the same items.
-/

namespace TreeExtraction.Predicate

section

variable [PureHost] {p q : Predicate} {ps : List (Option Predicate)} {v : Value}
  {vs kept : List Value}

/-- Whether a predicate has an answer on an item. -/
def IsDecided (p : Predicate) (item : Value) : Prop :=
  ∃ b, p.evaluate item = .ok b

/-- Whether an item satisfies a predicate. -/
def Holds (p : Predicate) (item : Value) : Prop :=
  p.evaluate item = .ok true

instance (p : Predicate) : DecidablePred p.Holds := fun item =>
  match h : p.evaluate item with
  | .ok true => isTrue h
  | .ok false => isFalse fun htrue => nomatch h.symm.trans htrue
  | .error _ => isFalse fun htrue => nomatch h.symm.trans htrue

/-- Filtering succeeds exactly if the predicate has an answer on every item, and keeps the items
that satisfy it. -/
theorem filterItems_eq_ok :
    p.filterItems vs = .ok kept ↔ (∀ v ∈ vs, p.IsDecided v) ∧ vs.filter p.Holds = kept := by
  induction vs generalizing kept with
  | nil => simp [filterItems]
  | cons v vs ih =>
    rw [filterItems, List.forall_mem_cons, List.filter_cons]
    simp only [Outcome.bind_eq_ok, ih]
    constructor
    · rintro ⟨b, hb, rest, ⟨hrest, rfl⟩, hkept⟩
      refine ⟨⟨⟨b, hb⟩, hrest⟩, ?_⟩
      cases b <;> simpa [Holds, hb] using hkept
    · rintro ⟨⟨hv, hrest⟩, hkept⟩
      obtain ⟨b, hb⟩ := hv
      refine ⟨b, hb, _, ⟨hrest, rfl⟩, ?_⟩
      cases b <;> simpa [Holds, hb] using hkept

theorem filter_holds_filter (p q : Predicate) (vs : List Value) :
    (vs.filter p.Holds).filter q.Holds = vs.filter fun v => p.Holds v ∧ q.Holds v := by
  simp [List.filter_filter, Bool.and_comm]

/-! ## Conjunctions -/

theorem evaluate_all_cons (item : Value) (p : Predicate) (ps : List (Option Predicate)) :
    evaluate item (.all (some p :: ps)) = do
      let holds ← evaluate item p
      if holds then evaluate item (.all ps) else return false := by
  simp only [evaluate, evaluateAll]

/-- A conjunction skips its other clauses where the first one does not hold. -/
theorem isDecided_all_cons :
    IsDecided (.all (some p :: ps)) v ↔ p.IsDecided v ∧ (p.Holds v → IsDecided (.all ps) v) := by
  simp only [IsDecided, Holds, evaluate_all_cons]
  cases p.evaluate v with
  | error e => simp [bind, Except.bind]
  | ok b => cases b <;> simp

theorem holds_all_cons : Holds (.all (some p :: ps)) v ↔ p.Holds v ∧ Holds (.all ps) v := by
  simp only [Holds, evaluate_all_cons]
  cases p.evaluate v with
  | error e => simp [bind, Except.bind]
  | ok b => cases b <;> simp

/-- Filtering by a conjunction is filtering by its first clause and then by the others. -/
theorem filterItems_all_cons :
    filterItems (.all (some p :: ps)) vs = .ok kept ↔
      ∃ rest, p.filterItems vs = .ok rest ∧ filterItems (.all ps) rest = .ok kept := by
  simp only [filterItems_eq_ok]
  constructor
  · rintro ⟨hdecided, rfl⟩
    refine ⟨_, ⟨fun v hv => (isDecided_all_cons.1 (hdecided v hv)).1, rfl⟩, ?_, ?_⟩
    · intro v hv
      obtain ⟨hmem, hholds⟩ := List.mem_filter.1 hv
      exact (isDecided_all_cons.1 (hdecided v hmem)).2 (of_decide_eq_true hholds)
    · simp only [filter_holds_filter, holds_all_cons]
  · rintro ⟨_, ⟨hfirst, rfl⟩, hothers, rfl⟩
    refine ⟨fun v hv => isDecided_all_cons.2 ⟨hfirst v hv, fun hholds => ?_⟩, ?_⟩
    · exact hothers v (List.mem_filter.2 ⟨hv, decide_eq_true hholds⟩)
    · simp only [filter_holds_filter, holds_all_cons]

theorem filterItems_congr (h : ∀ item, evaluate item p = evaluate item q) (vs : List Value) :
    p.filterItems vs = q.filterItems vs := by
  induction vs with
  | nil => rfl
  | cons v vs ih => rw [filterItems, filterItems, h, ih]

/-- Filtering a filtered array once more goes through the items that have been kept. -/
theorem filterValue_list (p : Predicate) (vs : List Value) :
    p.filterValue (.list vs) = .list <$> p.filterItems vs := by
  rw [Value.list, filterValue, Value.present_map_some]

/-- Filtering by two predicates at once succeeds exactly if filtering by the one and then by the
other does, and then keeps the same items: those that satisfy both, each as often as it is there,
in order. The same holds of arrays, whose empty places are passed over. -/
theorem filterItems_all_pair (p q : Predicate) (items : List Value) :
    (∀ kept, filterItems (.all [some p, some q]) items = .ok kept ↔
      ∃ rest, p.filterItems items = .ok rest ∧ q.filterItems rest = .ok kept) ∧
    (∀ kept, filterItems (.all [some p, some q]) items = .ok kept →
      kept = items.filter fun v => p.Holds v ∧ q.Holds v) ∧
    ∀ places frame kept, Value.present places = items →
      (filterValue (.all [some p, some q]) (.array places frame) = .ok kept ↔
        ∃ rest, p.filterValue (.array places frame) = .ok rest ∧
          q.filterValue rest = .ok kept) := by
  have hsingle : ∀ vs, filterItems (.all [some q]) vs = q.filterItems vs :=
    filterItems_congr fun item => evaluate_all_singleton item q
  have htwice : ∀ kept, filterItems (.all [some p, some q]) items = .ok kept ↔
      ∃ rest, p.filterItems items = .ok rest ∧ q.filterItems rest = .ok kept := by
    intro kept
    simp only [filterItems_all_cons, hsingle]
  refine ⟨htwice, fun kept hkept => ?_, ?_⟩
  · obtain ⟨rest, hrest, hkept⟩ := (htwice kept).1 hkept
    obtain ⟨-, rfl⟩ := filterItems_eq_ok.1 hrest
    obtain ⟨-, rfl⟩ := filterItems_eq_ok.1 hkept
    exact filter_holds_filter p q items
  · rintro places frame kept rfl
    rw [filterValue, filterValue, Outcome.map_eq_ok]
    constructor
    · rintro ⟨kept, hkept, rfl⟩
      obtain ⟨rest, hrest, hkept⟩ := (htwice kept).1 hkept
      exact ⟨.list rest, by rw [hrest]; rfl, by rw [filterValue_list, hkept]; rfl⟩
    · rintro ⟨_, hfirst, hsecond⟩
      obtain ⟨rest, hrest, rfl⟩ := Outcome.map_eq_ok.1 hfirst
      rw [filterValue_list] at hsecond
      obtain ⟨kept, hkept, rfl⟩ := Outcome.map_eq_ok.1 hsecond
      exact ⟨kept, (htwice kept).2 ⟨rest, hrest, hkept⟩, rfl⟩

end

open scoped SampleHost

/-- The second predicate has no answer on a truth value, but the first one has dropped it. -/
theorem filterItems_all_pair_texts :
    let isText : Predicate := .field (units "type") (.equals (.ofString "string")) (some .hasKind)
    let isLater : Predicate := .field (units "gt") (.equals (.ofString "a")) (some .gt)
    let items : List Value := [.ofString "b", .bool true, .ofString "a", .ofString "b"]
    let kept : List Value := [.ofString "b", .ofString "b"]
    filterItems (.all [some isText, some isLater]) items = .ok kept ∧
      ¬ isLater.IsDecided (.bool true) ∧
      (kept = items.filter fun v => isText.Holds v ∧ isLater.Holds v) ∧
      (filterValue (.all [some isText, some isLater]) (.list items) = .ok (.list kept) ↔
        ∃ rest, isText.filterValue (.list items) = .ok rest ∧
          isLater.filterValue rest = .ok (.list kept)) := by
  intro isText isLater items kept
  have hkept : filterItems (.all [some isText, some isLater]) items = .ok kept := rfl
  obtain ⟨-, hsublist, harray⟩ := filterItems_all_pair isText isLater items
  exact ⟨hkept, nofun, hsublist kept hkept, harray (items.map some) {} (.list kept) rfl⟩

end TreeExtraction.Predicate
