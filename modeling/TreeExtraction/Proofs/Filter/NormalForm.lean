import Mathlib.Logic.Relation
import TreeExtraction.Filter.Evaluation
import TreeExtraction.Proofs.Filter.Reading

/-! # Negation normal form

Evaluation stops as soon as the answer is known, and clauses can fail, so predicates that are
logically the same need not have the same outcome. Pushing a negation inwards by one connective does
keep the outcome, failures included: a conjunction of clauses and the disjunction of their negations
stop at the same clause. So every predicate has the outcomes of its negation normal form, in which
negations stand on fields only. For the same reason a mapping of several keys is read as a predicate
with the outcomes of the conjunction of its keys.
-/

namespace TreeExtraction.Predicate

open Relation

variable {p q : Predicate} {ps qs : List (Option Predicate)}

/-- What holds of fields and is kept by the connectives holds of all predicates. -/
theorem induction_clauses {motive : Predicate → Prop}
    (field : ∀ path condition self, motive (.field path condition self))
    (all : ∀ ps, (∀ p, some p ∈ ps → motive p) → motive (.all ps))
    (any : ∀ ps, (∀ p, some p ∈ ps → motive p) → motive (.any ps))
    (negation : ∀ p, motive p → motive (.negation p)) (p : Predicate) : motive p := by
  refine @Predicate.rec motive (fun ps => ∀ p, some p ∈ ps → motive p)
    (fun clause => ∀ p, clause = some p → motive p) field all any negation nofun ?_ nofun ?_ p
  · intro clause ps hclause hps p hp
    rcases List.mem_cons.1 hp with hp | hp
    · exact hclause p hp.symm
    · exact hps p hp
  · intro p hp q hq
    exact Option.some.inj hq ▸ hp

/-! ## Pushing negations inwards -/

/-- Clauses that are all negated. -/
def negations (ps : List (Option Predicate)) : List (Option Predicate) :=
  ps.map fun clause => clause.map .negation

/-- One negation is pushed inwards by one connective, anywhere in a predicate. -/
inductive Pushes : Predicate → Predicate → Prop
  | negation_all (ps : List (Option Predicate)) :
      Pushes (.negation (.all ps)) (.any (negations ps))
  | negation_any (ps : List (Option Predicate)) :
      Pushes (.negation (.any ps)) (.all (negations ps))
  | negation_negation (p : Predicate) : Pushes (.negation (.negation p)) p
  | clause_all (before after : List (Option Predicate)) {p q : Predicate} (h : Pushes p q) :
      Pushes (.all (before ++ some p :: after)) (.all (before ++ some q :: after))
  | clause_any (before after : List (Option Predicate)) {p q : Predicate} (h : Pushes p q) :
      Pushes (.any (before ++ some p :: after)) (.any (before ++ some q :: after))
  | clause_negation {p q : Predicate} (h : Pushes p q) : Pushes (.negation p) (.negation q)

/-- Whether negations stand on fields only. -/
inductive IsNormal : Predicate → Prop
  | field (path : Text) (condition : Condition) (self : Option Operator) :
      IsNormal (.field path condition self)
  | negated (path : Text) (condition : Condition) (self : Option Operator) :
      IsNormal (.negation (.field path condition self))
  | all {ps : List (Option Predicate)} (h : ∀ p, some p ∈ ps → IsNormal p) : IsNormal (.all ps)
  | any {ps : List (Option Predicate)} (h : ∀ p, some p ∈ ps → IsNormal p) : IsNormal (.any ps)

mutual

/-- The negation normal form of a predicate. -/
def normalForm : Predicate → Predicate
  | .field path condition self => .field path condition self
  | .all ps => .all (normalForms ps)
  | .any ps => .any (normalForms ps)
  | .negation p => negatedForm p

/-- The negation normal form of the negation of a predicate. -/
def negatedForm : Predicate → Predicate
  | .field path condition self => .negation (.field path condition self)
  | .all ps => .any (negatedForms ps)
  | .any ps => .all (negatedForms ps)
  | .negation p => normalForm p

/-- The negation normal forms of clauses, in order. -/
def normalForms : List (Option Predicate) → List (Option Predicate)
  | [] => []
  | none :: ps => none :: normalForms ps
  | some p :: ps => some (normalForm p) :: normalForms ps

/-- The negation normal forms of the negations of clauses, in order. -/
def negatedForms : List (Option Predicate) → List (Option Predicate)
  | [] => []
  | none :: ps => none :: negatedForms ps
  | some p :: ps => some (negatedForm p) :: negatedForms ps

end

@[simp] theorem normalForms_eq_map (ps : List (Option Predicate)) :
    normalForms ps = ps.map (Option.map normalForm) := by
  induction ps with
  | nil => rfl
  | cons clause ps ih => cases clause <;> rw [normalForms, ih] <;> rfl

@[simp] theorem negatedForms_eq_map (ps : List (Option Predicate)) :
    negatedForms ps = ps.map (Option.map negatedForm) := by
  induction ps with
  | nil => rfl
  | cons clause ps ih => cases clause <;> rw [negatedForms, ih] <;> rfl

/-- What a map of clauses ends in has been made of one of them. -/
theorem forall_clauses_map {motive : Predicate → Prop} {f : Predicate → Predicate}
    (h : ∀ p, some p ∈ ps → motive (f p)) : ∀ p, some p ∈ ps.map (Option.map f) → motive p := by
  intro p hp
  obtain ⟨clause, hclause, hmap⟩ := List.mem_map.1 hp
  obtain ⟨q, rfl, rfl⟩ := Option.map_eq_some_iff.1 hmap
  exact h q hclause

theorem isNormal_forms (p : Predicate) : p.normalForm.IsNormal ∧ p.negatedForm.IsNormal := by
  induction p using induction_clauses with
  | field path condition self => exact ⟨.field path condition self, .negated path condition self⟩
  | all ps ih =>
    rw [normalForm, negatedForm, normalForms_eq_map, negatedForms_eq_map]
    exact ⟨.all (forall_clauses_map fun p hp => (ih p hp).1),
      .any (forall_clauses_map fun p hp => (ih p hp).2)⟩
  | any ps ih =>
    rw [normalForm, negatedForm, normalForms_eq_map, negatedForms_eq_map]
    exact ⟨.any (forall_clauses_map fun p hp => (ih p hp).1),
      .all (forall_clauses_map fun p hp => (ih p hp).2)⟩
  | negation p ih => exact ⟨ih.2, ih.1⟩

/-- Clauses are rewritten one after the other, under any connective in which one of them can be.
Empty places stay as they are. -/
theorem reflTransGen_clauses {make : List (Option Predicate) → Predicate}
    (hmake : ∀ (before after : List (Option Predicate)) {p q : Predicate}, Pushes p q →
      Pushes (make (before ++ some p :: after)) (make (before ++ some q :: after)))
    {f g : Predicate → Predicate} (h : ∀ p, some p ∈ ps → ReflTransGen Pushes (f p) (g p))
    (before : List (Option Predicate)) :
    ReflTransGen Pushes (make (before ++ ps.map (Option.map f)))
      (make (before ++ ps.map (Option.map g))) := by
  induction ps generalizing before with
  | nil => exact .refl
  | cons clause ps ih =>
    have hrest := ih fun p hp => h p (List.mem_cons_of_mem _ hp)
    cases clause with
    | none =>
      have hlater := hrest (before ++ [none])
      rwa [List.append_assoc, List.append_assoc] at hlater
    | some p =>
      have hfirst := (h p List.mem_cons_self).lift
        (fun r => make (before ++ some r :: ps.map (Option.map f)))
        fun _ _ => hmake before (ps.map (Option.map f))
      have hlater := hrest (before ++ [some (g p)])
      rw [List.append_assoc, List.append_assoc] at hlater
      exact hfirst.trans hlater

theorem reflTransGen_all {f g : Predicate → Predicate}
    (h : ∀ p, some p ∈ ps → ReflTransGen Pushes (f p) (g p)) :
    ReflTransGen Pushes (.all (ps.map (Option.map f))) (.all (ps.map (Option.map g))) :=
  reflTransGen_clauses Pushes.clause_all h []

theorem reflTransGen_any {f g : Predicate → Predicate}
    (h : ∀ p, some p ∈ ps → ReflTransGen Pushes (f p) (g p)) :
    ReflTransGen Pushes (.any (ps.map (Option.map f))) (.any (ps.map (Option.map g))) :=
  reflTransGen_clauses Pushes.clause_any h []

/-- The normal forms are reached by pushing negations inwards. -/
theorem reflTransGen_forms (p : Predicate) :
    ReflTransGen Pushes p p.normalForm ∧ ReflTransGen Pushes (.negation p) p.negatedForm := by
  induction p using induction_clauses with
  | field path condition self => exact ⟨.refl, .refl⟩
  | all ps ih =>
    rw [normalForm, negatedForm, normalForms_eq_map, negatedForms_eq_map]
    constructor
    · have h := reflTransGen_all (f := id) fun p hp => (ih p hp).1
      rwa [Option.map_id, List.map_id] at h
    · exact .head (.negation_all ps) (reflTransGen_any fun p hp => (ih p hp).2)
  | any ps ih =>
    rw [normalForm, negatedForm, normalForms_eq_map, negatedForms_eq_map]
    constructor
    · have h := reflTransGen_any (f := id) fun p hp => (ih p hp).1
      rwa [Option.map_id, List.map_id] at h
    · exact .head (.negation_any ps) (reflTransGen_all fun p hp => (ih p hp).2)
  | negation p ih => exact ⟨ih.2, .head (.negation_negation p) ih.1⟩

/-! ## Outcomes -/

section

variable [PureHost] {item : Value}

/-- Negations of clauses: the first clause that does not hold is the first whose negation does. -/
theorem evaluateAny_negations (item : Value) (ps : List (Option Predicate)) :
    evaluateAny item (negations ps) = (!·) <$> evaluateAll item ps := by
  rw [negations]
  induction ps with
  | nil => rfl
  | cons clause ps ih =>
    cases clause with
    | none => exact ih
    | some p =>
      rw [List.map_cons, Option.map_some, evaluateAny, evaluateAll, evaluate, ih]
      cases evaluate item p with
      | error e => rfl
      | ok b => cases b <;> rfl

theorem evaluateAll_negations (item : Value) (ps : List (Option Predicate)) :
    evaluateAll item (negations ps) = (!·) <$> evaluateAny item ps := by
  rw [negations]
  induction ps with
  | nil => rfl
  | cons clause ps ih =>
    cases clause with
    | none => exact ih
    | some p =>
      rw [List.map_cons, Option.map_some, evaluateAll, evaluateAny, evaluate, ih]
      cases evaluate item p with
      | error e => rfl
      | ok b => cases b <;> rfl

theorem evaluate_negation_negation (item : Value) (p : Predicate) :
    evaluate item (.negation (.negation p)) = evaluate item p := by
  rw [evaluate, evaluate]
  cases evaluate item p with
  | error e => rfl
  | ok b => cases b <;> rfl

theorem evaluateAll_clause (h : evaluate item p = evaluate item q)
    (before after : List (Option Predicate)) :
    evaluateAll item (before ++ some p :: after) =
      evaluateAll item (before ++ some q :: after) := by
  induction before with
  | nil => rw [List.nil_append, List.nil_append, evaluateAll, evaluateAll, h]
  | cons clause before ih =>
    rw [List.cons_append, List.cons_append]
    cases clause with
    | none => exact ih
    | some r => rw [evaluateAll, evaluateAll, ih]

theorem evaluateAny_clause (h : evaluate item p = evaluate item q)
    (before after : List (Option Predicate)) :
    evaluateAny item (before ++ some p :: after) =
      evaluateAny item (before ++ some q :: after) := by
  induction before with
  | nil => rw [List.nil_append, List.nil_append, evaluateAny, evaluateAny, h]
  | cons clause before ih =>
    rw [List.cons_append, List.cons_append]
    cases clause with
    | none => exact ih
    | some r => rw [evaluateAny, evaluateAny, ih]

/-- Pushing one negation inwards keeps the outcome on every item. -/
theorem Pushes.evaluate_eq (h : Pushes p q) (item : Value) :
    evaluate item p = evaluate item q := by
  induction h with
  | negation_all ps => rw [evaluate, evaluate, evaluate, evaluateAny_negations]
  | negation_any ps => rw [evaluate, evaluate, evaluate, evaluateAll_negations]
  | negation_negation p => exact evaluate_negation_negation item p
  | clause_all before after h ih =>
    rw [evaluate, evaluate, evaluateAll_clause ih]
  | clause_any before after h ih =>
    rw [evaluate, evaluate, evaluateAny_clause ih]
  | clause_negation h ih => rw [evaluate, evaluate, ih]

/-- So does pushing any number of them. -/
theorem evaluate_of_reflTransGen (h : ReflTransGen Pushes p q) (item : Value) :
    evaluate item p = evaluate item q := by
  induction h with
  | refl => rfl
  | tail _ hstep ih => exact ih.trans (hstep.evaluate_eq item)

/-! ## Mappings of several keys -/

/-- A single clause has the outcomes of its conjunction. -/
theorem evaluate_all_singleton (item : Value) (p : Predicate) :
    evaluate item (.all [some p]) = evaluate item p := by
  rw [evaluate, evaluateAll, evaluateAll]
  cases evaluate item p with
  | error e => rfl
  | ok b => cases b <;> rfl

theorem evaluate_joined (item : Value) (ps : List Predicate) :
    evaluate item (joined ps) = evaluate item (.all (ps.map some)) := by
  rw [joined.eq_def]
  split
  · next p => exact (evaluate_all_singleton item p).symm
  · rfl

end

/-- The conjunction of the mappings of one key that make up a mapping, as it is serialized. -/
def keyByKey (es : Entries) : Value :=
  .mapping [(Connective.and.text, .list (es.map fun e => .mapping [e]))]

theorem compileItems_map_mapping (es : Entries) :
    compileItems ((es.map fun e => Value.mapping [e]).map some) =
      List.map some <$> compileEntries es := by
  induction es with
  | nil => rfl
  | cons e es ih =>
    obtain ⟨key, v⟩ := e
    rw [List.map_cons, List.map_cons, compileItems, ih, compile_mapping_singleton,
      compileEntries_cons]
    cases compileEntry key v with
    | error e => rfl
    | ok first => cases compileEntries es <;> rfl

theorem compile_keyByKey (es : Entries) :
    compile (keyByKey es) = (fun ps => .all (ps.map some)) <$> compileEntries es := by
  rw [keyByKey, compile_mapping_singleton, compileEntry, if_pos (beq_self_eq_true _), Value.list,
    compileClauses, compileItems_map_mapping]
  cases compileEntries es <;> rfl

/-- Every predicate is turned into negation normal form by pushing its negations inwards, and keeps
its outcome on every item, truth value or failure. A mapping, of however many keys, is read exactly
if the conjunction of its keys is, with the same failure otherwise, and has the same outcome on
every item. -/
theorem evaluate_normalForm_and_keyByKey [PureHost] (p : Predicate) (es : Entries)
    (ancestry : Ancestry) :
    (ReflTransGen Pushes p p.normalForm ∧ p.normalForm.IsNormal ∧
      ∀ item, evaluate item p.normalForm = evaluate item p) ∧
    ((∃ e, compile (.mapping es ancestry) = .error e ∧ compile (keyByKey es) = .error e) ∨
      ∃ q r, compile (.mapping es ancestry) = .ok q ∧ compile (keyByKey es) = .ok r ∧
        ∀ item, evaluate item q = evaluate item r) := by
  constructor
  · have hrun := (reflTransGen_forms p).1
    exact ⟨hrun, (isNormal_forms p).1, fun item => (evaluate_of_reflTransGen hrun item).symm⟩
  · rw [compile_keyByKey, compile]
    cases compileEntries es with
    | error e => exact .inl ⟨e, rfl, rfl⟩
    | ok ps => exact .inr ⟨_, _, rfl, rfl, fun item => evaluate_joined item ps⟩

/-- A negation comes to stand behind the disjunction that it negates, on each of its clauses. -/
example (a b : Predicate) :
    (negation (.any [some a, some (.negation b)])).normalForm =
      .all [some a.negatedForm, some b.normalForm] := rfl

end TreeExtraction.Predicate
