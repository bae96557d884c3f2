import TreeExtraction.Proofs.Number.WholeText
import TreeExtraction.Proofs.Path.Reading
import TreeExtraction.Proofs.Text.Numeral

/-! # Writing is the inverse of reading

The steps that reading returns are well formed. Well-formed steps are written as the text of a
derivation that denotes them, so they are read back, but for the sign of a zero.
-/

namespace TreeExtraction

namespace Step

/-- Whether a step is a named attribute. -/
def isAttribute : Step → Bool
  | .attribute _ => true
  | _ => false

/-- Whether a step can be written: the name is an identifier, the index lies in the range of
indexes, or the key lacks one of the quotes or stands bare. -/
def isWellFormed : Step → Bool
  | .attribute n => Text.isIdentifier n
  | .index n => n.toInt?.any fun i => decide (i.natAbs ≤ Path.indexLimit)
  | .key k => k.all (· != unit '"') || k.all (· != unit '\'') || Path.isBareKey k

/-- A step without the sign of a zero. -/
def unsignedZero : Step → Step
  | .index n => .index (if n.isZero then .zero else n)
  | s => s

theorem exists_of_isAttribute {s : Step} (h : s.isAttribute = true) : ∃ n, s = .attribute n := by
  rcases s with n | n | k
  · exact ⟨n, rfl⟩
  · cases h
  · cases h

end Step

namespace Path

/-- Whether steps begin with an attribute, or with an index or key that nothing or an attribute
follows. -/
def beginsWell : List Step → Bool
  | [] => false
  | [_] => true
  | s :: next :: _ => s.isAttribute || next.isAttribute

/-- Whether steps can be written as a path. -/
def isWellFormed (ss : List Step) : Bool :=
  beginsWell ss && ss.all Step.isWellFormed

theorem indexLimit_lt : indexLimit < 2 ^ 53 := by decide

/-! ## Reading returns well-formed steps -/

theorem Content.isWellFormed_step (c : Content) : c.step.isWellFormed = true := by
  cases c with
  | number negative digits nonempty decimal inRange =>
    have hint := Number.toInt?_ofRatio negative (Nat.lt_of_le_of_lt inRange indexLimit_lt)
    rw [step, Step.isWellFormed, hint]
    cases negative <;> simpa using inRange
  | quoted quote key hq inside =>
    rw [isQuote, Bool.or_eq_true, beq_iff_eq, beq_iff_eq] at hq
    rw [step, Step.isWellFormed]
    rcases hq with rfl | rfl
    · rw [inside, Bool.true_or, Bool.true_or]
    · rw [inside, Bool.or_true, Bool.true_or]
  | bare key standsBare => rw [step, Step.isWellFormed, standsBare, Bool.or_true]

theorem Part.all_isWellFormed_steps (p : Part) : p.steps.all Step.isWellFormed = true := by
  have haccessors : (p.accessors.map Accessor.step).all Step.isWellFormed = true := by
    rw [List.all_map, List.all_eq_true]
    exact fun a _ => a.content.isWellFormed_step
  simp only [steps, List.all_cons, haccessors, Step.isWellFormed, p.isIdentifier, Bool.and_true]

theorem all_isWellFormed_flatMap (ps : List Part) :
    (ps.flatMap Part.steps).all Step.isWellFormed = true := by
  rw [List.all_flatMap, List.all_eq_true]
  exact fun p _ => p.all_isWellFormed_steps

theorem Derivation.isWellFormed_steps (d : Derivation) : isWellFormed d.steps = true := by
  cases d with
  | accessor a ps =>
    have hbegin : beginsWell (a.step :: ps.flatMap Part.steps) = true := by
      cases ps with
      | nil => rfl
      | cons p ps => exact Bool.or_true _
    rw [steps, isWellFormed, hbegin, List.all_cons, all_isWellFormed_flatMap, Accessor.step,
      a.content.isWellFormed_step]
    rfl
  | part p ps =>
    have hbegin : beginsWell (p.steps ++ ps.flatMap Part.steps) = true := by
      rw [Part.steps, List.cons_append]
      cases p.accessors.map Accessor.step ++ ps.flatMap Part.steps <;> rfl
    rw [steps, isWellFormed, hbegin, List.all_append, p.all_isWellFormed_steps,
      all_isWellFormed_flatMap]
    rfl

/-! ## Well-formed steps are the steps of a written derivation -/

/-- The accessor around content without blanks. -/
def Content.accessor (c : Content) : Accessor :=
  ⟨[], c, [], rfl, rfl⟩

theorem Content.text_accessor (c : Content) : c.accessor.text = bracketed c.text := by
  simp [accessor, Accessor.text]

theorem exists_content_index {n : Number} {i : Int} (h : n.toInt? = some i)
    (hi : i.natAbs ≤ indexLimit) :
    ∃ c : Content, n.toText = c.text ∧ c.step = (Step.index n).unsignedZero := by
  have hlt : i.natAbs < 2 ^ 53 := Nat.lt_of_le_of_lt hi indexLimit_lt
  refine ⟨.number (decide (i < 0)) (Text.ofNat i.natAbs) (Text.ofNat_ne_nil _)
    (Text.all_isDigit_ofNat _) (by rw [Text.toNat_ofNat]; exact hi), ?_, ?_⟩
  · rw [Number.toText_of_toInt? h hlt, Text.ofInt, Content.text, sign]
    by_cases hneg : i < 0 <;> simp [hneg]
  · rw [Content.step, Text.toNat_ofNat, Step.unsignedZero, ← Number.ofInt_of_toInt? h hlt,
      Number.ofInt]

theorem exists_content_key {k : Text} (h : (Step.key k).isWellFormed = true) :
    ∃ c : Content, writeKey? k = some (bracketed c.text) ∧ c.step = .key k := by
  rw [writeKey?]
  split
  · next hdouble => exact ⟨.quoted (unit '"') k rfl hdouble, rfl, rfl⟩
  · next hdouble =>
    split
    · next hsingle => exact ⟨.quoted (unit '\'') k rfl hsingle, rfl, rfl⟩
    · next hsingle =>
      have hbare : isBareKey k = true := by
        rw [Step.isWellFormed, Bool.eq_false_iff.2 hdouble, Bool.eq_false_iff.2 hsingle] at h
        exact h
      rw [if_pos hbare]
      exact ⟨.bare k hbare, rfl, rfl⟩

/-- A well-formed index or key is written as an accessor that denotes it. -/
theorem exists_accessor {s : Step} (h : s.isWellFormed = true) (hs : s.isAttribute = false) :
    ∃ a : Accessor, (∀ isFirst, writeStep isFirst s = .ok a.text) ∧ a.step = s.unsignedZero := by
  rcases s with n | n | k
  · cases hs
  · rw [Step.isWellFormed, Option.any_eq_true] at h
    rcases h with ⟨i, hint, hi⟩
    rcases exists_content_index hint (of_decide_eq_true hi) with ⟨c, htext, hstep⟩
    refine ⟨c.accessor, fun isFirst => ?_, hstep⟩
    rw [writeStep, htext, c.text_accessor]
  · rcases exists_content_key h with ⟨c, htext, hstep⟩
    refine ⟨c.accessor, fun isFirst => ?_, hstep⟩
    rw [writeStep, htext, c.text_accessor]

/-- Well-formed steps behind the first one are written as accessors and parts. -/
theorem exists_writeRest {ss : List Step} (h : ss.all Step.isWellFormed = true) :
    ∃ (as : List Accessor) (ps : List Part),
      writeRest ss = .ok (accessorText as ++ partText ps) ∧
        as.map Accessor.step ++ ps.flatMap Part.steps = ss.map Step.unsignedZero ∧
        (ss.head?.all Step.isAttribute = true → as = []) := by
  induction ss with
  | nil => exact ⟨[], [], rfl, rfl, fun _ => rfl⟩
  | cons s ss ih =>
    rw [List.all_cons, Bool.and_eq_true] at h
    rcases ih h.2 with ⟨as, ps, hwrite, hsteps, -⟩
    cases hs : s.isAttribute with
    | true =>
      rcases Step.exists_of_isAttribute hs with ⟨n, rfl⟩
      refine ⟨[], ⟨n, as, h.1⟩ :: ps, ?_, ?_, fun _ => rfl⟩
      · rw [writeRest, writeStep, hwrite]
        simp [accessorText, partText, Part.text]
      · simp [Part.steps, Step.unsignedZero, hsteps]
    | false =>
      rcases exists_accessor h.1 hs with ⟨a, htext, hstep⟩
      refine ⟨a :: as, ps, ?_, ?_, ?_⟩
      · rw [writeRest, htext, hwrite]
        simp [accessorText]
      · simp [hstep, hsteps]
      · intro hhead
        simp [hs] at hhead

/-- Well-formed steps are written as the text of a derivation that denotes them, but for the signs
of zeros. -/
theorem exists_write {ss : List Step} (h : isWellFormed ss = true) :
    ∃ d : Derivation, write ss = .ok d.text ∧ d.steps = ss.map Step.unsignedZero := by
  cases ss with
  | nil => cases h
  | cons s ss =>
    rw [isWellFormed, List.all_cons, Bool.and_eq_true, Bool.and_eq_true] at h
    rcases h with ⟨hbegin, hs, hss⟩
    rcases exists_writeRest hss with ⟨as, ps, hwrite, hsteps, hnone⟩
    cases hattribute : s.isAttribute with
    | true =>
      rcases Step.exists_of_isAttribute hattribute with ⟨n, rfl⟩
      refine ⟨.part ⟨n, as, hs⟩ ps, ?_, ?_⟩
      · rw [write, writeStep, hwrite]
        simp [Derivation.text, Part.text]
      · simp [Derivation.steps, Part.steps, Step.unsignedZero, ← hsteps]
    | false =>
      rcases exists_accessor hs hattribute with ⟨a, htext, hstep⟩
      have hhead : ss.head?.all Step.isAttribute = true := by
        cases ss with
        | nil => rfl
        | cons next ss => simpa [beginsWell, hattribute] using hbegin
      obtain rfl := hnone hhead
      refine ⟨.accessor a ps, ?_, ?_⟩
      · rw [write, htext, hwrite]
        rfl
      · simp [Derivation.steps, hstep, ← hsteps]

/-- Reading returns well-formed steps, and well-formed steps are written as a text that is read
back as them, a zero index without its sign. -/
theorem read_write :
    (∀ (t : Text) (ss : List Step), read t = .ok ss → isWellFormed ss = true) ∧
      (∀ ss : List Step, isWellFormed ss = true →
        ∃ t, write ss = .ok t ∧ read t = .ok (ss.map Step.unsignedZero)) := by
  constructor
  · intro t ss h
    rcases exists_of_read h with ⟨d, -, rfl⟩
    exact d.isWellFormed_steps
  · intro ss h
    rcases exists_write h with ⟨d, hwrite, hsteps⟩
    exact ⟨d.text, hwrite, by rw [read_text, hsteps]⟩

end Path

end TreeExtraction
