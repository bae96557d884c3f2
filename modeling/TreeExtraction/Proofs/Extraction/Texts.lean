import TreeExtraction.Filter.Evaluation
import TreeExtraction.Filter.Serialized
import TreeExtraction.Proofs.Path.Following
import TreeExtraction.Proofs.Template.Substitution
import TreeExtraction.Proofs.Value.Texts
import TreeExtraction.Transform.Application

/-! # Operations that need a text

The transforms `str`, `truncate` and `join`, the operators that test texts and the placeholders that
are embedded in a text all ask for the text of a value. On inert values this is the one thing that
can go wrong: the operation fails exactly if a value that it renders lacks a text.
-/

namespace TreeExtraction

open Outcome Value

variable {v w binding : Value}

/-- The items of an inert value are inert. -/
theorem isInert_of_mem_items {items : List Value} (h : v.IsInert)
    (hitems : Collection.items? v = some items) (hw : w ∈ items) : w.IsInert := by
  cases v with
  | array vs frame =>
    cases hitems
    obtain ⟨item, hitem, rfl⟩ := List.mem_map.1 hw
    cases item with
    | none => exact isInert_of_isScalar rfl
    | some u => exact h.item u (mem_present.2 hitem)
  | set i vs frame =>
    cases hitems
    exact h.inside (List.mem_append_left _ hw)
  | map es frame =>
    cases hitems
    obtain ⟨e, he, rfl⟩ := List.mem_map.1 hw
    obtain ⟨hkey, hvalue⟩ := h.entry he
    exact isInert_list (List.forall_mem_cons.2 ⟨hkey, List.forall_mem_singleton.2 hvalue⟩)
  | _ => cases hitems

section

variable [PureHost]

/-! ## Transforms -/

theorem not_lacksText_of_isNull (h : v.isNull = true) : ¬v.LacksText := by
  cases v with
  | undefined | null => exact fun hlacks => not_showsBigint (by simp) rfl hlacks.1
  | _ => cases h

theorem apply_builtin_failsIff {P : Prop} {b : BuiltinTransform} (hnull : v.isNull = true → ¬P)
    (h : FailsIff .unsupported P (b.run v)) :
    FailsIff .unsupported P ((Transform.builtin b).apply v) := by
  rw [Transform.apply.eq_def]
  split
  · next hv => exact .of_ok (hnull hv) _
  · exact h.inContext rfl

theorem join_failsIff {items : List Value} (h : v.IsInert)
    (hitems : Collection.items? v = some items) (separator : Text) :
    FailsIff .unsupported (∃ w ∈ items, w.LacksText) (Collection.join v separator) := by
  rw [Collection.join, Collection.sequence_eq_ok.2 hitems, ok_bind]
  refine FailsIff.bind_ok (FailsIff.mapM fun w hw => ?_) fun _ _ => ⟨_, rfl⟩
  exact toText?_failsIff (isInert_of_mem_items h hitems hw)

/-! ## Operators -/

/-- The operators that test the text of a value. -/
def Operator.textual : List Operator :=
  [.startsWith, .endsWith, .contains, .matches]

/-- A textual operator whose operand has been checked. -/
theorem Operator.evaluate_failsIff {o : Operator} {operand : Value} (h : v.IsInert)
    (ho : o ∈ textual) (hcheck : Predicate.checkOperand o operand = .ok ()) :
    FailsIff .unsupported v.LacksText (o.evaluate v operand) := by
  cases o with
  | startsWith | endsWith | contains =>
    cases operand with
    | text t => exact (toText_failsIff h).bind_ok fun _ _ => ⟨_, rfl⟩
    | _ => cases hcheck
  | «matches» =>
    cases operand with
    | text p =>
      cases hread : Pattern.read p with
      | none =>
        rw [Predicate.checkOperand, hread] at hcheck
        cases hcheck
      | some n =>
        have hmatch : evaluate .matches v (.text p) =
            v.insertedText >>= fun t => .ok (Pattern.matchesIn n t) := by
          rw [evaluate, textOperand, ok_bind, hread]
          rfl
        rw [hmatch]
        exact (insertedText_failsIff h).bind_ok fun _ _ => ⟨_, rfl⟩
    | _ => cases hcheck
  | _ => exact absurd ho (by decide)

/-! ## Templates -/

namespace Template

/-- Whether the value of an expression that is embedded in a text has no text itself. -/
def Insertion.LacksText (binding : Value) (i : Insertion) : Prop :=
  i.asText = true ∧ ∃ w, resolve i.expression binding = .ok w ∧ w.LacksText

theorem Insertion.run_failsIff {i : Insertion}
    (hresolve : ∃ w, resolve i.expression binding = .ok w ∧ w.IsInert) :
    FailsIff .unsupported (i.LacksText binding) (i.run binding) := by
  obtain ⟨w, hw, hinert⟩ := hresolve
  rw [Insertion.run]
  split
  · next htext =>
    rw [resolveText, hw, ok_bind]
    refine ((insertedText_failsIff hinert).map Value.text).congr ?_
    simp [Insertion.LacksText, htext, hw]
  · next htext =>
    rw [hw]
    exact .of_ok (fun hlacks => htext hlacks.1) w

/-- A template in which every expression has an inert value. -/
theorem substitute_failsIff {template : Value}
    (hresolve : ∀ i ∈ insertions template,
      ∃ w, resolve i.expression binding = .ok w ∧ w.IsInert) :
    FailsIff .unsupported (∃ i ∈ insertions template, i.LacksText binding)
      (substitute binding template) := by
  have hattempt : FailsIff .unsupported (∃ i ∈ insertions template, i.LacksText binding)
      (attempt (substitute binding template)) := by
    rw [attempt_substitute]
    exact FailsIff.forM fun i hi => (Insertion.run_failsIff (hresolve i hi)).map _
  exact ⟨fun hlacks => attempt_eq_error.1 (hattempt.error hlacks),
    fun hlacks => attempt_eq_ok.1 (hattempt.ok hlacks).choose_spec⟩

end Template

/-! ## All operations -/

/-- What becomes of the text of a value and of the operations that need one. They fail exactly if
the value lacks a text, or one of its items, or what an embedded placeholder finds in a binding of
inert values. -/
structure Value.RendersUnlessLacking (v : Value) : Prop where
  text : FailsIff .unsupported v.LacksText v.toText?
  present : v.toText? ≠ .ok none
  str : FailsIff .unsupported v.LacksText ((Transform.builtin .str).apply v)
  truncate : ∀ maxLength suffix,
    FailsIff .unsupported v.LacksText ((Transform.builtin (.truncate maxLength suffix)).apply v)
  join : ∀ separator items, Collection.items? v = some items →
    FailsIff .unsupported (∃ w ∈ items, w.LacksText) ((Transform.builtin (.join separator)).apply v)
  operator : ∀ o ∈ Operator.textual, ∀ operand, Predicate.checkOperand o operand = .ok () →
    FailsIff .unsupported v.LacksText (o.evaluate v operand)
  template : ∀ name template,
    (∀ i ∈ Template.insertions template,
      ∃ w, Template.resolve i.expression (.mapping [(name, v)]) = .ok w ∧ w.IsInert) →
    FailsIff .unsupported
      (∃ i ∈ Template.insertions template, i.LacksText (.mapping [(name, v)]))
      (Template.substitute (.mapping [(name, v)]) template)

/-- Every inert value has a text, and every operation that needs one goes through, unless the text
is lacking: then the operation fails. -/
theorem rendersUnlessLacking_of_isInert (h : v.IsInert) : v.RendersUnlessLacking where
  text := toText?_failsIff h
  present := toText?_ne_none h
  str := apply_builtin_failsIff not_lacksText_of_isNull ((toText?_failsIff h).map _)
  truncate maxLength suffix := by
    apply apply_builtin_failsIff not_lacksText_of_isNull
    exact FailsIff.map _ ((toText_failsIff h).bind_ok fun _ _ => ⟨_, rfl⟩)
  join separator items hitems := by
    apply apply_builtin_failsIff
    · intro hnull
      cases v with
      | undefined | null => cases hitems
      | _ => cases hnull
    · exact (join_failsIff h hitems _).map _
  operator o ho operand := Operator.evaluate_failsIff h ho
  template name template := Template.substitute_failsIff

end

theorem isInert_bigint (n : Int) : (bigint n).IsInert :=
  .intro ⟨fun _ _ => rfl, fun hne => absurd rfl hne⟩ nofun

section

open scoped SampleHost

/-- A mapping that holds a big integer is spelled out. -/
theorem rendersUnlessLacking_bigint :
    (mapping [(units "n", .bigint 1)]).IsInert ∧ ¬(mapping [(units "n", .bigint 1)]).LacksText ∧
      (mapping [(units "n", .bigint 1)]).RendersUnlessLacking := by
  have hinert : (mapping [(units "n", .bigint 1)]).IsInert :=
    .intro nofun (List.forall_mem_singleton.2 (isInert_bigint 1))
  refine ⟨hinert, fun hlacks => ?_, rendersUnlessLacking_of_isInert hinert⟩
  rcases (isUnspellable_iff_isTextless rfl).1 hlacks.2 with hbare | hentry
  · cases hbare
  · exact hentry rfl

/-- A map that holds a big integer has no text. -/
theorem not_forall_exists_text : ¬∀ v : Value, v.IsInert → ∃ t, v.toText? = .ok (some t) := by
  intro h
  have hinert : (map [(.text (units "a"), .bigint 1)] {}).IsInert := by
    refine .intro ⟨fun _ _ => rfl, fun hne => absurd rfl hne⟩ fun w hw => ?_
    rcases List.mem_cons.1 hw with rfl | hw
    · exact isInert_of_isScalar rfl
    · rw [List.mem_singleton.1 hw]
      exact isInert_bigint 1
  obtain ⟨t, ht⟩ := h _ hinert
  cases ht

end

end TreeExtraction
