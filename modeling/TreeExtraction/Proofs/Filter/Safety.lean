import TreeExtraction.Filter.Evaluation
import TreeExtraction.Proofs.Extraction.Descent
import TreeExtraction.Proofs.Extraction.Failing
import TreeExtraction.Proofs.Extraction.Texts
import TreeExtraction.Proofs.Filter.Reading
import TreeExtraction.Proofs.Value.Data

/-! # Compiled predicates do not go wrong

Reading a predicate checks its paths and the operands of its operators, so its evaluation on data
ends with a truth value or fails in one of two ways that lie with the data: an ordering or
membership operator met a value of another kind, and names itself, or a step of a path asked a truth
value or a number for a key. One gap is left: the text operators need a text, and a map with a key
that cannot be spelled out has none.
-/

namespace TreeExtraction

open Outcome

/-! ## Paths on data -/

namespace Path

variable [PureHost] {v : Value} {text : Text} {ss : List Step}

/-- A path on data fails only at a step that asks a scalar for a key. -/
theorem of_follow_error {e : Failure} (hv : v.IsData) (h : follow v ss (some text) = .error e) :
    ∃ (i : Nat) (k : Text) (u : Value), ss[i]? = some (.key k) ∧ u.isScalar = true ∧
      e = .report (.keylessAccess k u.kind) { path := some text, stepIndex := some i } := by
  obtain ⟨i, s, w, refused, hs, hw, hrefused, rfl⟩ := exists_stopsAt hv.isAnswering h
  have hdata : w.IsData :=
    of_follow (fun _ => Value.IsData.answersInside) (fun _ _ => Value.IsData.answer) hv hw
  cases hrefused with
  | @keyless k hkeyless => exact ⟨i, k, w, hs, hdata.isScalar_of_isKeyless hkeyless, rfl⟩
  | barredField hname => exact absurd hname (ne_true_of_eq_false hdata.bars_eq_false)
  | barredKey hkey => exact absurd hkey (ne_true_of_eq_false hdata.bars_eq_false)

end Path

/-! ## Failures that lie with the data -/

/-- The operators that demand something of the value that they test. -/
def Operator.demanding : List Operator :=
  [.gt, .gte, .lt, .lte, .isIn, .isNotIn]

/-- The failures that lie with the data: a value of a kind for which an operator has no answer, and
a key of a value that has no keys. -/
inductive Failure.LiesWithData : Failure → Prop where
  | mismatch {o : Operator} {m : Mismatch} {c : Context} (ho : o ∈ Operator.demanding)
      (hm : m.operation = o.text) (hc : c.operator = some o.text) :
      LiesWithData (.report (.mismatch m) c)
  | keyless {path k : Text} {ss : List Step} {i : Nat} {v : Value} (hread : Path.read path = .ok ss)
      (hstep : ss[i]? = some (.key k)) (hv : v.isScalar = true) :
      LiesWithData
        (.report (.keylessAccess k v.kind) { path := some path, stepIndex := some i })

/-- The failures in which a test of an item may end: those that lie with the data, and that of a
text which the item does not have. -/
def Failure.IsForeseen (item : Value) (e : Failure) : Prop :=
  e.LiesWithData ∨ e = .unsupported ∧ ¬ item.HasSpellableKeys

/-! ## Operators -/

namespace Operator

variable {o : Operator} {value operand : Value}

/-- The failures of an operator whose operand has been checked. -/
def FailsWith (o : Operator) (value : Value) (e : Failure) : Prop :=
  (o ∈ demanding ∧ ∃ m : Mismatch, m.operation = o.text ∧ e = .report (.mismatch m) o.context) ∨
    e = .unsupported ∧ ¬ value.HasSpellableKeys

theorem failsOnly_compareBy (ho : o ∈ demanding) :
    FailsOnly (o.FailsWith value) (o.compareBy value operand) := by
  rw [compareBy.eq_def]
  split
  · exact failsOnly_ok _
  · exact failsOnly_ok _
  · exact failsOnly_ok _
  · exact failsOnly_error.2 (.inl ⟨ho, _, rfl, rfl⟩)

/-- Membership in an array or a text. -/
theorem failsOnly_membership (ho : o ∈ demanding)
    (hoperand : (∃ vs frame, operand = .array vs frame) ∨ ∃ t, operand = .text t) :
    FailsOnly (o.FailsWith value) (o.membership value operand) := by
  rcases hoperand with ⟨vs, frame, rfl⟩ | ⟨t, rfl⟩
  · exact failsOnly_ok _
  · rw [membership.eq_def]
    cases value with
    | text part => exact failsOnly_ok _
    | _ => exact failsOnly_error.2 (.inl ⟨ho, _, rfl, rfl⟩)

/-- An operator whose operand has been checked fails only with a mismatch of its own, or because a
value has no text. -/
theorem failsOnly_evaluate [PureHost] (hcheck : Predicate.checkOperand o operand = .ok ())
    (hv : value.IsData) : FailsOnly (o.FailsWith value) (o.evaluate value operand) := by
  cases o with
  | isIn =>
    refine failsOnly_membership (by decide) ?_
    cases operand with
    | array vs frame => exact .inl ⟨vs, frame, rfl⟩
    | text t => exact .inr ⟨t, rfl⟩
    | _ => cases hcheck
  | isNotIn =>
    refine (failsOnly_membership (by decide) ?_).map
    cases operand with
    | array vs frame => exact .inl ⟨vs, frame, rfl⟩
    | text t => exact .inr ⟨t, rfl⟩
    | _ => cases hcheck
  | startsWith | endsWith | contains | «matches» =>
    have htext := evaluate_failsIff hv.isInert (by decide) hcheck
    exact htext.failsOnly.imp fun _ he => .inr ⟨he.1, hv.not_hasSpellableKeys he.2⟩
  | gt | gte | lt | lte => exact failsOnly_compareBy (by decide)
  | eq | ne | isNone | isNotNone => exact failsOnly_ok _
  | hasKind => cases operand <;> exact failsOnly_ok _

end Operator

/-! ## Predicates -/

namespace Predicate

variable {item value : Value} {path : Text}

/-- Whether the paths of a predicate can be read, and the operands of its operators are accepted. -/
inductive IsChecked : Predicate → Prop where
  | equals {path : Text} {v : Value} {self : Option Operator} {ss : List Step}
      (hread : Path.read path = .ok ss) (hself : ∀ o ∈ self, checkOperand o v = .ok ()) :
      IsChecked (.field path (.equals v) self)
  | tests {path : Text} {ts : List Test} {self : Option Operator} {ss : List Step}
      (hread : Path.read path = .ok ss)
      (htests : ∀ t ∈ ts, checkOperand t.operator t.operand = .ok ()) :
      IsChecked (.field path (.tests ts) self)
  | all {ps : List (Option Predicate)} (h : ∀ p, some p ∈ ps → IsChecked p) : IsChecked (.all ps)
  | any {ps : List (Option Predicate)} (h : ∀ p, some p ∈ ps → IsChecked p) : IsChecked (.any ps)
  | negation {p : Predicate} (h : IsChecked p) : IsChecked (.negation p)

theorem checkOperand_of_compileTests {es : List (Text × Value)} {ts : List Test}
    (h : compileTests es = .ok ts) : ∀ t ∈ ts, checkOperand t.operator t.operand = .ok () := by
  induction es generalizing ts with
  | nil =>
    cases h
    exact fun _ ht => nomatch ht
  | cons e es ih =>
    rw [compileTests] at h
    split at h
    · cases h
    · next o ho =>
      rcases bind_eq_ok.1 h with ⟨u, hcheck, h⟩
      rcases bind_eq_ok.1 h with ⟨others, hothers, h⟩
      cases h
      intro t ht
      rcases List.mem_cons.1 ht with rfl | ht
      · exact hcheck
      · exact ih hothers t ht

theorem checkOperand_of_selfOperator? {key : Text} {v : Value} :
    ∀ o ∈ selfOperator? key (.equals v), checkOperand o v = .ok () := by
  intro o ho
  rw [selfOperator?] at ho
  have haccepts := (Option.filter_eq_some_iff.1 ho).2
  split at haccepts
  · next u hu => exact hu
  · cases haccepts

theorem isChecked_of_compileField {key : Text} {v : Value} {p : Predicate}
    (h : compileField key v = .ok p) : p.IsChecked := by
  rcases bind_eq_ok.1 h with ⟨ss, hread, h⟩
  rcases bind_eq_ok.1 h with ⟨condition, hcondition, h⟩
  cases h
  cases v with
  | mapping es =>
    rcases map_eq_ok.1 hcondition with ⟨ts, hts, rfl⟩
    exact .tests hread (checkOperand_of_compileTests hts)
  | _ =>
    cases hcondition
    exact .equals hread checkOperand_of_selfOperator?

/-- Reading a predicate checks all of it. -/
theorem isChecked_of_compile {raw : Value} {p : Predicate} (h : compile raw = .ok p) :
    p.IsChecked :=
  Ensures.compile (R := fun _ => True)
    { part := fun _ _ _ _ => trivial
      field := fun _ _ _ _ _ => isChecked_of_compileField
      all := fun _ => .all
      any := fun _ => .any
      negation := fun _ => .negation } raw trivial p h

/-! ## Evaluation -/

/-- An operator that tests a value of an item fails in one of the foreseen ways, in whatever context
that adds to its own. -/
theorem isForeseen_within {o : Operator} {e : Failure} (h : o.FailsWith value e)
    (hkeys : item.HasSpellableKeys → value.HasSpellableKeys) (c : Context) :
    (e.within c).IsForeseen item := by
  rcases h with ⟨ho, m, hm, rfl⟩ | ⟨rfl, hnot⟩
  · exact .inl (.mismatch ho hm rfl)
  · exact .inr ⟨rfl, fun hitem => hnot (hkeys hitem)⟩

theorem isForeseen_of_failsWith {o : Operator} {e : Failure} (h : o.FailsWith item e) :
    e.IsForeseen item := by
  rcases h with ⟨ho, m, hm, rfl⟩ | h
  · exact .inl (.mismatch ho hm rfl)
  · exact .inr h

section Host

variable [PureHost]

theorem failsOnly_extract {ss : List Step} (hitem : item.IsData)
    (hread : Path.read path = .ok ss) :
    FailsOnly (Failure.IsForeseen item) (Path.extract item path) := by
  rw [Path.extract, hread]
  intro e he
  rcases Path.of_follow_error hitem he with ⟨i, k, u, hi, hu, rfl⟩
  exact .inl (.keyless hread hi hu)

theorem failsOnly_runTests {ts : List Test} (hvalue : value.IsData)
    (hkeys : item.HasSpellableKeys → value.HasSpellableKeys)
    (hts : ∀ t ∈ ts, checkOperand t.operator t.operand = .ok ()) :
    FailsOnly (Failure.IsForeseen item) (runTests path value ts) := by
  induction ts with
  | nil => exact failsOnly_ok _
  | cons t ts ih =>
    have htest := Operator.failsOnly_evaluate (hts t List.mem_cons_self) hvalue
    rw [runTests]
    refine (htest.inContext fun e he => isForeseen_within he hkeys _).bind fun holds _ => ?_
    split
    · exact ih fun u hu => hts u (List.mem_cons_of_mem _ hu)
    · exact failsOnly_ok _

/-- What is extracted from an item and then tested. -/
theorem failsOnly_extract_bind {ss : List Step} {f : Value → Except Failure Bool}
    (hitem : item.IsData) (hread : Path.read path = .ok ss)
    (hf : ∀ value, value.IsData → (item.HasSpellableKeys → value.HasSpellableKeys) →
      FailsOnly (Failure.IsForeseen item) (f value)) :
    FailsOnly (Failure.IsForeseen item) (Path.extract item path >>= f) := by
  refine (failsOnly_extract hitem hread).bind fun value hvalue => hf value ?_ fun hkeys => ?_
  · exact Path.of_extract (fun _ => Value.IsData.answersInside) (fun _ _ => Value.IsData.answer)
      hitem hvalue
  · have hboth := Path.of_extract (Q := fun u => u.IsData ∧ u.HasSpellableKeys)
      (fun _ hu => hu.1.answersInside) (fun _ _ hu hw => ⟨hu.1.answer hw, hu.2.answer hw⟩)
      ⟨hitem, hkeys⟩ hvalue
    exact hboth.2

theorem failsOnly_evaluateAll {P : Failure → Prop} {ps : List (Option Predicate)}
    (h : ∀ p, some p ∈ ps → FailsOnly P (evaluate item p)) :
    FailsOnly P (evaluateAll item ps) := by
  induction ps with
  | nil =>
    rw [evaluateAll]
    exact failsOnly_ok _
  | cons clause ps ih =>
    have hrest := ih fun p hp => h p (List.mem_cons_of_mem _ hp)
    cases clause with
    | none =>
      rw [evaluateAll]
      exact hrest
    | some p =>
      rw [evaluateAll]
      refine (h p List.mem_cons_self).bind fun holds _ => ?_
      split
      · exact hrest
      · exact failsOnly_ok _

theorem failsOnly_evaluateAny {P : Failure → Prop} {ps : List (Option Predicate)}
    (h : ∀ p, some p ∈ ps → FailsOnly P (evaluate item p)) :
    FailsOnly P (evaluateAny item ps) := by
  induction ps with
  | nil =>
    rw [evaluateAny]
    exact failsOnly_ok _
  | cons clause ps ih =>
    have hrest := ih fun p hp => h p (List.mem_cons_of_mem _ hp)
    cases clause with
    | none =>
      rw [evaluateAny]
      exact hrest
    | some p =>
      rw [evaluateAny]
      refine (h p List.mem_cons_self).bind fun holds _ => ?_
      split
      · exact failsOnly_ok _
      · exact hrest

/-- A checked predicate on data fails in one of the foreseen ways, if it fails. -/
theorem IsChecked.failsOnly_evaluate {p : Predicate} (hp : p.IsChecked) (hitem : item.IsData) :
    FailsOnly (Failure.IsForeseen item) (evaluate item p) := by
  induction hp with
  | @equals path v self ss hread hself =>
    have hfield : FailsOnly (Failure.IsForeseen item)
        (Path.extract item path >>= fun value => .ok (value.equal v)) :=
      failsOnly_extract_bind hitem hread fun _ _ _ => failsOnly_ok _
    rw [evaluate]
    cases self with
    | none => exact hfield
    | some o =>
      rw [runField]
      split
      · exact (Operator.failsOnly_evaluate (hself o rfl) hitem).imp fun e he =>
          isForeseen_of_failsWith he
      · exact hfield
  | @tests path ts self ss hread htests =>
    rw [evaluate, runField]
    exact failsOnly_extract_bind hitem hread fun value hvalue hkeys =>
      failsOnly_runTests hvalue hkeys htests
  | all h ih =>
    rw [evaluate]
    exact failsOnly_evaluateAll ih
  | any h ih =>
    rw [evaluate]
    exact failsOnly_evaluateAny ih
  | negation h ih =>
    rw [evaluate]
    exact ih.map

/-- A predicate that has been read, evaluated on data, ends with a truth value or with a failure
that lies with the data; the one exception is an item that holds a map with a key that cannot be
spelled out, and so has no text. -/
theorem evaluate_of_compile {raw : Value} {p : Predicate} (h : compile raw = .ok p)
    (hitem : item.IsData) :
    (∃ b, p.evaluate item = .ok b) ∨
      ∃ e, p.evaluate item = .error e ∧
        (e.LiesWithData ∨ e = .unsupported ∧ ¬ item.HasSpellableKeys) := by
  cases heval : p.evaluate item with
  | ok b => exact .inl ⟨b, rfl⟩
  | error e => exact .inr ⟨e, rfl, (isChecked_of_compile h).failsOnly_evaluate hitem e heval⟩

end Host

section Samples

open scoped SampleHost

/-- A number is not compared with a text. -/
theorem liesWithData_gt_text :
    ∃ raw p item e, raw = .mapping [(units "n", .mapping [(units "gt", .ofString "x")])] ∧
      compile raw = .ok p ∧ item = .mapping [(units "n", .number .zero)] ∧ item.IsData ∧
      p.evaluate item = .error e ∧ e.LiesWithData := by
  have hcompile : compile (.mapping [(units "n", .mapping [(units "gt", .ofString "x")])]) =
      .ok (.field (units "n") (.tests [⟨.gt, .ofString "x"⟩]) none) := rfl
  have hitem : (Value.mapping [(units "n", .number .zero)]).IsData :=
    .of_entries (List.forall_mem_singleton.2 (.of_isBare (.scalar rfl) rfl))
  rcases evaluate_of_compile hcompile hitem with ⟨b, hb⟩ | ⟨e, he, hdata | ⟨rfl, -⟩⟩
  · cases hb
  · exact ⟨_, _, _, e, rfl, hcompile, rfl, hitem, he, hdata⟩
  · cases he

/-- A map that has a mapping for a key, with an entry `toString`, has no text to start with
anything. -/
theorem not_forall_evaluate_of_compile :
    ¬∀ (raw : Value) (p : Predicate) (item : Value), raw.isWellFormed = true →
      item.isWellFormed = true → compile raw = .ok p → item.IsData →
      (∃ b, p.evaluate item = .ok b) ∨ ∃ e, p.evaluate item = .error e ∧ e.LiesWithData := by
  intro h
  have hkey : (Value.mapping [(units "toString", .number .zero)]).IsData :=
    .of_entries (List.forall_mem_singleton.2 (.of_isBare (.scalar rfl) rfl))
  have hmap : (Value.map [(.reference 0 (.mapping [(units "toString", .number .zero)]),
      .number .zero)] {}).IsData :=
    .intro rfl (List.forall_mem_cons.2
      ⟨hkey, List.forall_mem_singleton.2 (Value.IsData.of_isBare (.scalar rfl) rfl)⟩)
  have hitem : (Value.mapping [(units "m", .map [(.reference 0
      (.mapping [(units "toString", .number .zero)]), .number .zero)] {})]).IsData :=
    .of_entries (List.forall_mem_singleton.2 hmap)
  rcases h (.mapping [(units "m", .mapping [(units "startswith", .ofString "a")])]) _ _
    (by decide) (by decide) rfl hitem with ⟨b, hb⟩ | ⟨e, he, hdata⟩
  · cases hb
  · cases he
    cases hdata

end Samples

end Predicate

end TreeExtraction
