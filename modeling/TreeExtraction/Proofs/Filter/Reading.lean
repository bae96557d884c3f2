import TreeExtraction.Filter.Serialized
import TreeExtraction.Proofs.Outcome
import TreeExtraction.Proofs.Value.Parts

/-! # How predicates are read

A serialized predicate is read entry by entry, each key being one of the connectives or a path. So
what holds of every field predicate that is read and is kept by the connectives holds of whatever is
read: this is `Ensures.compile`. What is assumed of serialized forms has to hold of their parts too.
-/

namespace TreeExtraction.Predicate

/-- Reads one entry of a serialized predicate. -/
def compileEntry (key : Text) (v : Value) : Except Failure Predicate :=
  if key == Connective.and.text then .all <$> compileClauses .and v
  else if key == Connective.or.text then .any <$> compileClauses .or v
  else if key == negationKey then .negation <$> compile v
  else compileField key v

theorem compileEntries_cons (key : Text) (v : Value) (es : Entries) :
    compileEntries ((key, v) :: es) = do
      let first ← compileEntry key v
      let others ← compileEntries es
      return first :: others := by
  rw [compileEntries, compileEntry]
  split
  · rfl
  · split
    · rfl
    · split <;> rfl

/-- A mapping of one entry is read as its clause. -/
theorem compile_mapping_singleton (key : Text) (v : Value) :
    compile (.mapping [(key, v)]) = compileEntry key v := by
  rw [compile, compileEntries_cons]
  cases compileEntry key v <;> rfl

/-- Whether a key is none of the connectives. -/
def IsFieldKey (key : Text) : Prop :=
  (key == Connective.and.text) = false ∧ (key == Connective.or.text) = false ∧
    (key == negationKey) = false

/-- Whether reading values with one property ensures another one of predicates: field predicates
have it, the connectives keep it, and the parts of the values are values with the first property
too. -/
structure Ensures (R : Value → Prop) (Q : Predicate → Prop) : Prop where
  part : ∀ v w, R v → w ∈ v.parts → R w
  field : ∀ key v p, IsFieldKey key → R v → compileField key v = .ok p → Q p
  all : ∀ ps, (∀ p, some p ∈ ps → Q p) → Q (.all ps)
  any : ∀ ps, (∀ p, some p ∈ ps → Q p) → Q (.any ps)
  negation : ∀ p, Q p → Q (.negation p)

namespace Ensures

variable {R : Value → Prop} {Q : Predicate → Prop}

theorem joined (h : Ensures R Q) {ps : List Predicate} (hps : ∀ p ∈ ps, Q p) :
    Q (Predicate.joined ps) := by
  rw [Predicate.joined.eq_def]
  split
  · exact hps _ (List.mem_singleton_self _)
  · refine h.all _ fun p hp => ?_
    obtain ⟨q, hq, heq⟩ := List.mem_map.1 hp
    exact Option.some.inj heq ▸ hps q hq

mutual

theorem compile (h : Ensures R Q) (v : Value) (hv : R v) (p : Predicate)
    (hp : Predicate.compile v = .ok p) : Q p := by
  cases v with
  | mapping es =>
    rw [Predicate.compile] at hp
    rcases Outcome.map_eq_ok.1 hp with ⟨ps, hps, rfl⟩
    have hes : ∀ e ∈ es, R e.2 := fun e he => h.part _ _ hv (List.mem_map_of_mem he)
    exact h.joined (h.compileEntries es hes ps hps)
  | _ => cases hp

theorem compileEntries (h : Ensures R Q) (es : List (Text × Value)) (hes : ∀ e ∈ es, R e.2)
    (ps : List Predicate) (hps : Predicate.compileEntries es = .ok ps) : ∀ p ∈ ps, Q p := by
  cases es with
  | nil =>
    cases hps
    exact fun _ hp => nomatch hp
  | cons e es =>
    rcases e with ⟨key, v⟩
    have hv : R v := hes _ List.mem_cons_self
    have hrest : ∀ e ∈ es, R e.2 := fun e he => hes e (List.mem_cons_of_mem _ he)
    rw [compileEntries_cons] at hps
    rcases Outcome.bind_eq_ok.1 hps with ⟨first, hfirst, hps⟩
    rcases Outcome.bind_eq_ok.1 hps with ⟨others, hothers, hps⟩
    cases hps
    have hclause : Q first := by
      rw [compileEntry] at hfirst
      split at hfirst
      · rcases Outcome.map_eq_ok.1 hfirst with ⟨qs, hqs, rfl⟩
        exact h.all _ (h.compileClauses .and v hv qs hqs)
      · split at hfirst
        · rcases Outcome.map_eq_ok.1 hfirst with ⟨qs, hqs, rfl⟩
          exact h.any _ (h.compileClauses .or v hv qs hqs)
        · split at hfirst
          · rcases Outcome.map_eq_ok.1 hfirst with ⟨q, hq, rfl⟩
            exact h.negation _ (h.compile v hv q hq)
          · next hand hor hnot =>
            exact h.field key v first ⟨Bool.eq_false_iff.2 hand, Bool.eq_false_iff.2 hor,
              Bool.eq_false_iff.2 hnot⟩ hv hfirst
    intro p hp
    rcases List.mem_cons.1 hp with rfl | hp
    · exact hclause
    · exact h.compileEntries es hrest others hothers p hp

theorem compileClauses (h : Ensures R Q) (c : Connective) (v : Value) (hv : R v)
    (ps : List (Option Predicate)) (hps : Predicate.compileClauses c v = .ok ps) :
    ∀ p, some p ∈ ps → Q p := by
  cases v with
  | array vs frame =>
    have hitems : ∀ w, some w ∈ vs → R w := fun w hw =>
      h.part _ _ hv (List.mem_append_left _ (Value.mem_present.2 hw))
    exact h.compileItems vs hitems ps hps
  | _ => cases hps

theorem compileItems (h : Ensures R Q) (vs : List (Option Value)) (hvs : ∀ v, some v ∈ vs → R v)
    (ps : List (Option Predicate)) (hps : Predicate.compileItems vs = .ok ps) :
    ∀ p, some p ∈ ps → Q p := by
  cases vs with
  | nil =>
    cases hps
    exact fun _ hp => nomatch hp
  | cons item vs =>
    have hrest : ∀ w, some w ∈ vs → R w := fun w hw => hvs w (List.mem_cons_of_mem _ hw)
    cases item with
    | none =>
      rcases Outcome.bind_eq_ok.1 hps with ⟨others, hothers, hps⟩
      cases hps
      intro p hp
      rcases List.mem_cons.1 hp with hp | hp
      · cases hp
      · exact h.compileItems vs hrest others hothers p hp
    | some v =>
      rcases Outcome.bind_eq_ok.1 hps with ⟨first, hfirst, hps⟩
      rcases Outcome.bind_eq_ok.1 hps with ⟨others, hothers, hps⟩
      cases hps
      intro p hp
      rcases List.mem_cons.1 hp with hp | hp
      · cases hp
        exact h.compile v (hvs _ List.mem_cons_self) _ hfirst
      · exact h.compileItems vs hrest others hothers p hp

end

end Ensures

end TreeExtraction.Predicate
