import TreeExtraction.Proofs.Filter.Reading
import TreeExtraction.Proofs.Value.WellFormed

/-! # Written predicates are read back

A predicate that has been read is written as a mapping of one entry, and that is read as the same
predicate. The tests of a condition are written as the very mapping from which they were read,
because the operators of a mapping are distinct and none of them names a position. What is written
is a value of a host again, with each key once.
-/

namespace TreeExtraction

namespace Operator

theorem ofText?_eq_some {t : Text} {o : Operator} (h : ofText? t = some o) : o.text = t := by
  rw [ofText?] at h
  simpa using List.find?_some h

theorem position?_text (o : Operator) : Text.position? o.text = none := by
  cases o <;> decide

end Operator

namespace Predicate

/-! ## Conditions -/

/-- Tests are read from the entries as which they are written. -/
theorem map_of_compileTests {es : Entries} {ts : List Test} (h : compileTests es = .ok ts) :
    ts.map (fun t => (t.operator.text, t.operand)) = es := by
  induction es generalizing ts with
  | nil =>
    cases h
    rfl
  | cons e es ih =>
    rcases e with ⟨name, operand⟩
    rw [compileTests] at h
    split at h
    · cases h
    · next o ho =>
      rcases Outcome.bind_eq_ok.1 h with ⟨_, -, h⟩
      rcases Outcome.bind_eq_ok.1 h with ⟨others, hothers, h⟩
      cases h
      rw [List.map_cons, ih hothers, Operator.ofText?_eq_some ho]

theorem serializeTests_of_compileTests {es : Entries} {ts : List Test}
    (h : compileTests es = .ok ts) (hkeys : (Table.keys es).Nodup) :
    serializeTests ts = .mapping es := by
  have hnamed : ∀ e ∈ es, Text.position? e.1 = none := by
    intro e he
    rw [← map_of_compileTests h] at he
    rcases List.mem_map.1 he with ⟨t, -, rfl⟩
    exact t.operator.position?_text
  rw [serializeTests, map_of_compileTests h, Table.ofList_named hkeys hnamed]

theorem compileCondition_serialize {raw : Value} {c : Condition} (hraw : raw.isWellFormed = true)
    (h : compileCondition raw = .ok c) : compileCondition (serializeCondition c) = .ok c := by
  cases raw with
  | mapping es =>
    rcases Outcome.map_eq_ok.1 h with ⟨ts, hts, rfl⟩
    rw [serializeCondition, serializeTests_of_compileTests hts (Entries.nodup_keys hraw)]
    exact h
  | _ =>
    cases h
    rfl

/-! ## Predicates -/

/-- Whether a predicate is read from its serialized form. -/
def ReadsBack (p : Predicate) : Prop :=
  compile (serialize p) = .ok p

variable {p : Predicate} {ps : List (Option Predicate)}

theorem compileItems_serializeAll (h : ∀ p, some p ∈ ps → ReadsBack p) :
    compileItems (serializeAll ps) = .ok ps := by
  induction ps with
  | nil => rfl
  | cons clause ps ih =>
    have hrest : compileItems (serializeAll ps) = .ok ps :=
      ih fun q hq => h q (List.mem_cons_of_mem _ hq)
    cases clause with
    | none =>
      rw [serializeAll, compileItems, hrest]
      rfl
    | some p =>
      have hp : compile (serialize p) = .ok p := h p List.mem_cons_self
      rw [serializeAll, compileItems, hp, hrest]
      rfl

theorem compileClauses_serializeAll (c : Connective) (h : ∀ p, some p ∈ ps → ReadsBack p) :
    compileClauses c (.array (serializeAll ps) {}) = .ok ps :=
  compileItems_serializeAll h

theorem readsBack_all (h : ∀ p, some p ∈ ps → ReadsBack p) : ReadsBack (.all ps) := by
  rw [ReadsBack, serialize, compile_mapping_singleton, compileEntry]
  rw [if_pos (beq_self_eq_true _), compileClauses_serializeAll .and h]
  rfl

theorem readsBack_any (h : ∀ p, some p ∈ ps → ReadsBack p) : ReadsBack (.any ps) := by
  have hkey : ¬ (Connective.or.text == Connective.and.text) = true := by decide
  rw [ReadsBack, serialize, compile_mapping_singleton, compileEntry]
  rw [if_neg hkey, if_pos (beq_self_eq_true _), compileClauses_serializeAll .or h]
  rfl

theorem readsBack_negation (h : ReadsBack p) : ReadsBack (.negation p) := by
  have hand : ¬ (negationKey == Connective.and.text) = true := by decide
  have hor : ¬ (negationKey == Connective.or.text) = true := by decide
  have hp : compile (serialize p) = .ok p := h
  rw [ReadsBack, serialize, compile_mapping_singleton, compileEntry]
  rw [if_neg hand, if_neg hor, if_pos (beq_self_eq_true _), hp]
  rfl

/-- A field predicate is read back, for its key is none of the connectives. -/
theorem readsBack_field {key : Text} {v : Value} (hkey : IsFieldKey key)
    (hv : v.isWellFormed = true) (h : compileField key v = .ok p) : ReadsBack p := by
  rcases hkey with ⟨hand, hor, hnot⟩
  rw [compileField] at h
  rcases Outcome.bind_eq_ok.1 h with ⟨steps, hsteps, h⟩
  rcases Outcome.bind_eq_ok.1 h with ⟨condition, hcondition, h⟩
  cases h
  rw [ReadsBack, serialize]
  rw [compile_mapping_singleton, compileEntry, hand, hor, hnot, compileField, hsteps]
  simp only [Bool.false_eq_true, if_false, Outcome.ok_bind,
    compileCondition_serialize hv hcondition]
  rfl

theorem ensures_readsBack : Ensures (fun v => v.isWellFormed = true) ReadsBack where
  part := fun _ _ => Value.isWellFormed_of_mem_parts
  field := fun _ _ _ => readsBack_field
  all := fun _ => readsBack_all
  any := fun _ => readsBack_any
  negation := fun _ => readsBack_negation

/-- A predicate that has been read is read back. -/
theorem readsBack_of_compile (v : Value) (hv : v.isWellFormed = true) (p : Predicate)
    (h : compile v = .ok p) : ReadsBack p :=
  ensures_readsBack.compile v hv p h

/-! ## What is written -/

theorem isNull_serialize (p : Predicate) : (serialize p).isNull = false := by
  cases p <;> rfl

theorem exists_of_mem_serializeAll {v : Value} (h : some v ∈ serializeAll ps) :
    ∃ p, some p ∈ ps ∧ serialize p = v := by
  induction ps with
  | nil => cases h
  | cons clause ps ih =>
    cases clause with
    | none =>
      rcases List.mem_cons.1 h with h | h
      · cases h
      · obtain ⟨p, hp, hv⟩ := ih h
        exact ⟨p, List.mem_cons_of_mem _ hp, hv⟩
    | some q =>
      rcases List.mem_cons.1 h with h | h
      · exact ⟨q, List.mem_cons_self, (Option.some.inj h).symm⟩
      · obtain ⟨p, hp, hv⟩ := ih h
        exact ⟨p, List.mem_cons_of_mem _ hp, hv⟩

theorem isWellFormed_singleton {key : Text} {v : Value} (hv : v.isWellFormed = true) :
    (Value.mapping [(key, v)]).isWellFormed = true := by
  simp [Value.isWellFormed, Value.entriesWellFormed, hv]

theorem isWellFormed_serializeAll (h : ∀ p, some p ∈ ps → (serialize p).isWellFormed = true) :
    (Value.array (serializeAll ps) {}).isWellFormed = true := by
  have hitems : Value.itemsWellFormed (serializeAll ps) = true := by
    rw [Value.itemsWellFormed_iff]
    intro v hv
    obtain ⟨p, hp, rfl⟩ := exists_of_mem_serializeAll (Value.mem_present.1 hv)
    exact h p hp
  rw [Value.isWellFormed, hitems]
  rfl

theorem isWellFormed_serializeCondition {raw : Value} {c : Condition}
    (hraw : raw.isWellFormed = true) (h : compileCondition raw = .ok c) :
    (serializeCondition c).isWellFormed = true := by
  cases raw with
  | mapping es =>
    obtain ⟨ts, hts, rfl⟩ := Outcome.map_eq_ok.1 h
    rw [serializeCondition, serializeTests_of_compileTests hts (Entries.nodup_keys hraw)]
    exact hraw
  | _ =>
    cases h
    exact hraw

theorem ensures_isWellFormed_serialize :
    Ensures (fun v => v.isWellFormed = true) (fun p => (serialize p).isWellFormed = true) where
  part := fun _ _ => Value.isWellFormed_of_mem_parts
  field := by
    intro key v p _ hv h
    rw [compileField] at h
    obtain ⟨steps, -, h⟩ := Outcome.bind_eq_ok.1 h
    obtain ⟨condition, hcondition, h⟩ := Outcome.bind_eq_ok.1 h
    cases h
    rw [serialize]
    exact isWellFormed_singleton (isWellFormed_serializeCondition hv hcondition)
  all := by
    intro ps h
    rw [serialize]
    exact isWellFormed_singleton (isWellFormed_serializeAll h)
  any := by
    intro ps h
    rw [serialize]
    exact isWellFormed_singleton (isWellFormed_serializeAll h)
  negation := by
    intro p h
    rw [serialize]
    exact isWellFormed_singleton h

/-- A predicate that has been read is written as a well-formed value, and that is read as the same
predicate, with the clauses in their order and the marks of operators for scalar items. -/
theorem compile_serialize_of_compile {raw : Value} {p : Predicate}
    (hraw : raw.isWellFormed = true) (h : compile raw = .ok p) :
    (serialize p).isWellFormed = true ∧ compile (serialize p) = .ok p :=
  ⟨ensures_isWellFormed_serialize.compile raw hraw p h, readsBack_of_compile raw hraw p h⟩

/-- Several keys, an operator for scalar items, tests and a negated empty connective. -/
theorem compile_serialize_several :
    let raw : Value := .mapping [
      (units "startswith", .ofString "H"),
      (units "size", .mapping [(units "gt", .number .zero), (units "is_none", .bool false)]),
      (units "not", .mapping [(units "or", .array [] {})])]
    let p : Predicate := .all [
      some (.field (units "startswith") (.equals (.ofString "H")) (some .startsWith)),
      some (.field (units "size") (.tests [⟨.gt, .number .zero⟩, ⟨.isNone, .bool false⟩]) none),
      some (.negation (.any []))]
    raw.isWellFormed = true ∧ compile raw = .ok p ∧ (serialize p).isWellFormed = true ∧
      compile (serialize p) = .ok p := by
  intro raw p
  have hraw : raw.isWellFormed = true := by decide
  have hp : compile raw = .ok p := rfl
  exact ⟨hraw, hp, compile_serialize_of_compile hraw hp⟩

end Predicate

end TreeExtraction
