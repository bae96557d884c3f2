import TreeExtraction.Proofs.Text.Lookup
import TreeExtraction.Proofs.Value.Parts
import TreeExtraction.Proofs.Value.Rendering

/-! # Which values have a text

A value is inert if nothing in it is called for its text: it holds no function, no symbol, no
invalid date, nor what all dates inherit from, and no object whose class answers for its own text.
Two things can keep an inert value from being rendered. JSON cannot write a big integer, wherever it
comes upon one in arrays, mappings and own fields of objects; it does not look into maps and sets.
And a mapping that inherits nothing cannot be spelled out, nor can an object with something else in
place of the method `toString`, such as an object of a class that inherits nothing, nor an array
that holds one of these. A structure is spelled out where JSON fails, so it takes both to leave it
without a text. A map is not: one big integer among its entries is enough, and so is one key that
cannot be spelled out.
-/

namespace TreeExtraction.Value

open Outcome

variable {v w : Value} {es : Entries} {ancestry : Ancestry} {name : Text}

/-! ## Inert values -/

/-- What a value holds itself, without what its class gives it. -/
def contents : Value → List Value
  | .array vs frame => present vs ++ frame.fields.map (·.2)
  | .mapping es _ => es.map (·.2)
  | .map es frame => es.flatMap (fun e => [ofKey e.1, e.2]) ++ frame.fields.map (·.2)
  | .set _ vs frame => vs ++ frame.fields.map (·.2)
  | .date _ frame | .object _ frame => frame.fields.map (·.2)
  | _ => []

/-- The names under which an object answers for its text. -/
def textMethods : List Text :=
  [spellingName, writerName]

/-- Whether a value is no function, no symbol, no invalid date, not what all dates inherit from, and
no object with a method that answers for its text. If something else stands in the place of
`toString`, it is the method `valueOf` that would answer. -/
def IsUncalled : Value → Prop
  | .function .. | .symbol .. | .invalidDate .. => False
  | .mapping _ ancestry => ancestry ≠ .parentOfDates
  | v => (∀ m ∈ textMethods, v.method? m = none) ∧
      (Table.get? v.members spellingName ≠ none → v.method? valueName = none)

/-- Whether nothing is called when the text of a value is asked for. -/
def IsInert (v : Value) : Prop :=
  v.Throughout contents IsUncalled

theorem isInert_of_isScalar (h : v.isScalar = true) : v.IsInert := by
  cases v <;>
    first | exact .intro ⟨fun _ _ => rfl, fun hne => absurd rfl hne⟩ nofun | cases h

theorem isInert_list {vs : List Value} (h : ∀ v ∈ vs, v.IsInert) : (list vs).IsInert := by
  refine .intro ⟨fun _ _ => rfl, fun hne => absurd rfl hne⟩ fun w hw => h w ?_
  simpa [list, contents, present] using hw

namespace IsInert

/-- No entry of an inert mapping is a function. -/
theorem method?_mapping_eq_none (h : (mapping es ancestry).IsInert) (name : Text) :
    (mapping es ancestry).method? name = none := by
  refine method?_eq_none fun f source frame hget => ?_
  exact (h.inside (List.mem_map_of_mem (Table.mem_of_get? hget))).here

theorem method?_eq_none (h : v.IsInert) (hname : name ∈ textMethods) : v.method? name = none := by
  have hhere := h.here
  cases v with
  | mapping => exact h.method?_mapping_eq_none name
  | function | symbol | invalidDate => exact hhere.elim
  | _ => exact hhere.1 name hname

theorem method?_value_eq_none (h : v.IsInert) (hheld : Table.get? v.members spellingName ≠ none) :
    v.method? valueName = none := by
  have hhere := h.here
  cases v with
  | mapping => exact h.method?_mapping_eq_none valueName
  | function | symbol | invalidDate => exact hhere.elim
  | _ => exact hhere.2 hheld

theorem item {vs : List (Option Value)} {frame : Frame Value} (h : (array vs frame).IsInert) :
    ∀ w ∈ present vs, w.IsInert :=
  fun _ hw => h.inside (List.mem_append_left _ hw)

theorem entry {es : List (Key Value × Value)} {frame : Frame Value} (h : (map es frame).IsInert)
    {e : Key Value × Value} (he : e ∈ es) : (ofKey e.1).IsInert ∧ e.2.IsInert :=
  ⟨h.inside (List.mem_append_left _ (List.mem_flatMap.2 ⟨e, he, by simp⟩)),
    h.inside (List.mem_append_left _ (List.mem_flatMap.2 ⟨e, he, by simp⟩))⟩

end IsInert

/-! ## Places in a value -/

/-- Whether a property holds somewhere in a value, where only the parts that are listed count. -/
inductive Somewhere (listed : Value → List Value) (P : Value → Prop) : Value → Prop where
  | here {v : Value} (h : P v) : Somewhere listed P v
  | inside {v w : Value} (hw : w ∈ listed v) (h : Somewhere listed P w) : Somewhere listed P v

theorem somewhere_iff {listed : Value → List Value} {P : Value → Prop} :
    v.Somewhere listed P ↔ P v ∨ ∃ w ∈ listed v, w.Somewhere listed P := by
  constructor
  · rintro (h | ⟨hw, h⟩)
    · exact .inl h
    · exact .inr ⟨_, hw, h⟩
  · rintro (h | ⟨w, hw, h⟩)
    · exact .here h
    · exact .inside hw h

/-- The parts that JSON writes. -/
def shownParts : Value → List Value
  | .array vs _ => present vs
  | .mapping es _ => es.map (·.2)
  | .map _ frame | .set _ _ frame | .object _ frame => frame.fields.map (·.2)
  | .date _ frame => if Table.has frame.members writerName then frame.fields.map (·.2) else []
  | _ => []

/-- The items of an array. -/
def arrayItems : Value → List Value
  | .array vs _ => present vs
  | _ => []

/-- Whether JSON comes upon a big integer in a value. -/
def ShowsBigint (v : Value) : Prop :=
  v.Somewhere shownParts fun w => ∃ n, w = .bigint n

/-- Whether a value is a mapping that inherits nothing or an object with something in place of the
method that gives its text. A date comes down to its number then, unless there is something in place
of the method for this as well. -/
def IsTextless : Value → Prop
  | .mapping es ancestry => ancestry = .bare ∨ Table.get? es spellingName ≠ none
  | .date _ frame =>
    Table.get? frame.members spellingName ≠ none ∧ Table.get? frame.members valueName ≠ none
  | v => Table.get? v.members spellingName ≠ none

/-- Whether a value is an object without a way to a text, or an array that holds one. -/
def IsUnspellable (v : Value) : Prop :=
  v.Somewhere arrayItems IsTextless

theorem showsBigint_iff (hv : ∀ n, v ≠ .bigint n) :
    v.ShowsBigint ↔ ∃ w ∈ v.shownParts, w.ShowsBigint := by
  refine somewhere_iff.trans (or_iff_right ?_)
  rintro ⟨n, hn⟩
  exact hv n hn

theorem isUnspellable_iff :
    v.IsUnspellable ↔ v.IsTextless ∨ ∃ w ∈ v.arrayItems, w.IsUnspellable :=
  somewhere_iff

theorem not_showsBigint (hv : ∀ n, v ≠ .bigint n) (hparts : v.shownParts = []) :
    ¬v.ShowsBigint := by
  rw [showsBigint_iff hv, hparts]
  simp

theorem isUnspellable_iff_isTextless (hitems : v.arrayItems = []) :
    v.IsUnspellable ↔ v.IsTextless := by
  rw [isUnspellable_iff, hitems]
  simp

theorem not_isTextless (h : v.isObject = false) : ¬v.IsTextless := by
  cases v <;> first | exact fun hheld => hheld rfl | cases h

theorem not_isNull_of_showsBigint (h : v.ShowsBigint) : ¬v.isNull = true := by
  intro hnull
  cases v with
  | undefined | null => exact not_showsBigint (by simp) rfl h
  | _ => cases hnull

section

variable [PureHost] {answered : Value → Except Failure (Option Text)}

/-! ## JSON -/

/-- An inert value is not asked for what to write in its place. -/
theorem jsonBy_eq (h : v.IsInert) (key : Text) (body : Except Failure (Option Text)) :
    jsonBy answered key v body = body := by
  rw [jsonBy, h.method?_eq_none (by decide)]

mutual

/-- JSON fails on an inert value exactly if it comes upon a big integer. -/
theorem jsonBody_failsIff (v : Value) (h : v.IsInert) :
    FailsIff .unsupported v.ShowsBigint (jsonBody answered v) := by
  cases v with
  | array vs frame =>
    rw [jsonBody]
    have hitems := jsonItems_failsIff vs h.item 0
    exact (hitems.bind_ok fun _ _ => ⟨_, rfl⟩).congr (showsBigint_iff nofun)
  | mapping es ancestry =>
    rw [jsonBody, if_neg fun hparent => h.here hparent.1]
    have hentries := jsonEntries_failsIff es fun w hw => h.inside hw
    exact (hentries.bind_ok fun _ _ => ⟨_, rfl⟩).congr (showsBigint_iff (by simp))
  | map es frame | set i vs frame =>
    rw [jsonBody]
    have hframe := jsonFrame_failsIff frame fun w hw => h.inside (List.mem_append_right _ hw)
    exact hframe.congr (showsBigint_iff nofun)
  | object i frame =>
    rw [jsonBody]
    have hframe := jsonFrame_failsIff frame fun w hw => h.inside hw
    exact hframe.congr (showsBigint_iff nofun)
  | date ms frame =>
    rw [jsonBody]
    split
    · next hwriter =>
      have hframe := jsonFrame_failsIff frame fun w hw => h.inside hw
      exact hframe.congr ((showsBigint_iff (by simp)).trans (by rw [shownParts, if_pos hwriter]))
    · next hwriter =>
      exact .of_ok (not_showsBigint (by simp) (by rw [shownParts, if_neg hwriter])) _
  | invalidDate | symbol | function => exact h.here.elim
  | bigint n =>
    rw [jsonBody]
    exact .of_error (.here ⟨n, rfl⟩)
  | undefined | null | bool | number | text =>
    rw [jsonBody]
    exact .of_ok (not_showsBigint (by simp) rfl) _

theorem jsonItems_failsIff (vs : List (Option Value)) (h : ∀ v ∈ present vs, v.IsInert)
    (position : Nat) :
    FailsIff .unsupported (∃ v ∈ present vs, v.ShowsBigint) (jsonItems answered position vs) := by
  cases vs with
  | nil =>
    rw [jsonItems]
    exact .of_ok (by simp [present]) _
  | cons item vs =>
    cases item with
    | none =>
      rw [jsonItems]
      exact (jsonItems_failsIff vs h (position + 1)).bind_ok fun _ _ => ⟨_, rfl⟩
    | some v =>
      have hv : v.IsInert := h v List.mem_cons_self
      rw [jsonItems, jsonBy_eq hv]
      have hfirst := jsonBody_failsIff v hv
      have hrest := jsonItems_failsIff vs (fun w hw => h w (List.mem_cons_of_mem _ hw))
        (position + 1)
      exact (hfirst.bind fun _ _ => hrest.bind_ok fun _ _ => ⟨_, rfl⟩).congr (by simp [present])

theorem jsonEntries_failsIff (es : List (Text × Value)) (h : ∀ v ∈ es.map (·.2), v.IsInert) :
    FailsIff .unsupported (∃ v ∈ es.map (·.2), v.ShowsBigint) (jsonEntries answered es) := by
  cases es with
  | nil =>
    rw [jsonEntries]
    exact .of_ok (by simp) _
  | cons e es =>
    have he : e.2.IsInert := h e.2 List.mem_cons_self
    rw [jsonEntries, jsonBy_eq he]
    have hfirst := jsonBody_failsIff e.2 he
    have hrest := jsonEntries_failsIff es fun w hw => h w (List.mem_cons_of_mem _ hw)
    refine (hfirst.bind fun t _ => hrest.bind_ok fun ts _ => ?_).congr (by simp)
    cases t <;> exact ⟨_, rfl⟩

theorem jsonFrame_failsIff (frame : Frame Value) (h : ∀ v ∈ frame.fields.map (·.2), v.IsInert) :
    FailsIff .unsupported (∃ v ∈ frame.fields.map (·.2), v.ShowsBigint)
      (jsonFrame answered frame) := by
  rcases frame with ⟨c, fields, inherited, hidden⟩
  rw [jsonFrame]
  exact (jsonEntries_failsIff fields h).bind_ok fun _ _ => ⟨_, rfl⟩

end

theorem json_failsIff (h : v.IsInert) (key : Text) :
    FailsIff .unsupported v.ShowsBigint (json key v) := by
  rw [json, jsonBy_eq h]
  exact jsonBody_failsIff v h

/-- Nothing inert is left out by JSON, but for undefined values. -/
theorem json_ne_none (h : v.IsInert) (hv : v ≠ .undefined) : json key v ≠ .ok none := by
  intro hjson
  rw [json, jsonBy_eq h] at hjson
  cases v with
  | undefined => exact hv rfl
  | array =>
    rw [jsonBody] at hjson
    obtain ⟨parts, -, hnone⟩ := bind_eq_ok.1 hjson
    cases hnone
  | mapping =>
    rw [jsonBody, if_neg fun hparent => h.here hparent.1] at hjson
    obtain ⟨parts, -, hnone⟩ := bind_eq_ok.1 hjson
    cases hnone
  | map _ frame | set _ _ frame | object _ frame =>
    rcases frame with ⟨c, fields, inherited, hidden⟩
    rw [jsonBody, jsonFrame] at hjson
    obtain ⟨parts, -, hnone⟩ := bind_eq_ok.1 hjson
    cases hnone
  | date ms frame =>
    rcases frame with ⟨c, fields, inherited, hidden⟩
    rw [jsonBody] at hjson
    split at hjson
    · rw [jsonFrame] at hjson
      obtain ⟨parts, -, hnone⟩ := bind_eq_ok.1 hjson
      cases hnone
    · cases hjson
  | function | symbol | invalidDate => exact h.here
  | _ =>
    rw [jsonBody] at hjson
    cases hjson

/-! ## Values spelled out -/

/-- Without a method, an object gives what all objects of its kind give, unless it has something in
place of the method. -/
theorem primitiveBy_eq (h : v.method? name = none) (common : Except Failure (Option Value)) :
    primitiveBy v name common = if Table.get? v.members name = none then common else .ok none := by
  rw [method?] at h
  rw [primitiveBy]
  split
  · next f source frame hget =>
    rw [hget] at h
    cases h
  · next hget => simp [hget]
  · next hget => simp [hget]

theorem primitiveOf_common (hnone : Table.get? v.members spellingName = none)
    (spelling : Except Failure Value) (value : Option Value) :
    primitiveOf v (some <$> spelling) value = spelling := by
  rw [primitiveOf, primitiveBy, hnone]
  cases spelling <;> rfl

/-- An object without a text of its own comes down to its value. -/
theorem primitiveOf_value {spelling : Except Failure (Option Value)}
    (hspelling : primitiveBy v spellingName spelling = .ok none)
    (hvalue : v.method? valueName = none) (value : Option Value) :
    primitiveOf v spelling value = if Table.get? v.members valueName = none
      then value.elim (.error .unsupported) .ok else .error .unsupported := by
  simp only [primitiveOf, hspelling, ok_bind, primitiveBy_eq hvalue]
  split <;> cases value <;> rfl

/-- Something in place of the method that gives the text leaves an object with its value. -/
theorem primitiveOf_held (h : v.IsInert) (hheld : Table.get? v.members spellingName ≠ none)
    (spelling : Except Failure (Option Value)) (value : Option Value) :
    primitiveOf v spelling value = if Table.get? v.members valueName = none
      then value.elim (.error .unsupported) .ok else .error .unsupported := by
  refine primitiveOf_value ?_ (h.method?_value_eq_none hheld) value
  rw [primitiveBy_eq (h.method?_eq_none (by decide)), if_neg hheld]

theorem primitive_of_isTextless (h : v.IsInert) (htextless : v.IsTextless) :
    primitive v = .error .unsupported := by
  cases v with
  | mapping es ancestry =>
    rw [primitive.eq_def]
    by_cases hheld : Table.get? es spellingName = none
    · obtain rfl : ancestry = .bare := htextless.resolve_right (not_not.2 hheld)
      refine (primitiveOf_value ?_ (h.method?_mapping_eq_none valueName) none).trans (ite_self _)
      exact (primitiveBy_eq (h.method?_mapping_eq_none spellingName) _).trans (ite_self _)
    · exact (primitiveOf_held h hheld _ none).trans (ite_self _)
  | date ms frame =>
    rw [primitive, primitiveOf_held h htextless.1]
    exact if_neg htextless.2
  | array | map | set | object =>
    rw [primitive, primitiveOf_held h htextless]
    exact ite_self _
  | function | symbol | invalidDate => exact h.here.elim
  | _ => exact absurd htextless (not_isTextless rfl)

/-- The texts of the items of an array are joined. -/
theorem primitive_array {vs : List (Option Value)} {frame : Frame Value}
    (htext : ¬(array vs frame).IsTextless) :
    primitive (array vs frame) =
      spelledItems vs >>= fun parts => .ok (.text (Text.join [unit ','] parts)) := by
  rw [primitive]
  refine Eq.trans ?_ (primitiveOf_common (not_not.1 htext) _ none)
  cases spelledItems vs <;> rfl

/-- What another value than an array comes down to, unless it has no way to a text: an object comes
down to what has a text that is not empty. -/
theorem exists_primitive (h : v.IsInert) (htext : ¬v.IsTextless)
    (harray : ∀ vs frame, v ≠ .array vs frame) :
    ∃ w t, primitive v = .ok w ∧ w.plainText = .ok t ∧ (v.isObject = true → t ≠ []) := by
  cases v with
  | mapping es ancestry =>
    rw [IsTextless, not_or, not_not] at htext
    have hcommon := primitiveOf_common (v := mapping es ancestry) htext.2
    cases ancestry with
    | bare => exact absurd rfl htext.1
    | parentOfDates => exact absurd rfl h.here
    | ordinary | root | parentOfSets =>
      exact ⟨_, _, (primitive.eq_def _).trans (hcommon (.ok _) none), rfl, fun _ => by decide⟩
  | map | set | object =>
    have hcommon := primitiveOf_common (not_not.1 htext)
    exact ⟨_, _, (primitive.eq_def _).trans (hcommon (.ok _) none), rfl, fun _ => by decide⟩
  | date ms frame =>
    by_cases hheld : Table.get? (date ms frame).members spellingName = none
    · exact ⟨_, _, (primitive.eq_def _).trans (primitiveOf_common hheld (.ok _) _), rfl,
        fun _ => longText_ne_nil ms⟩
    · have hvalue : Table.get? frame.members valueName = none :=
        by_contra fun hne => htext ⟨hheld, hne⟩
      refine ⟨.number (.ofInt ms), _, ?_, rfl, fun _ => (Number.ofInt ms).toText_ne_nil⟩
      rw [primitive, primitiveOf_held h hheld]
      exact if_pos hvalue
  | array vs frame => exact absurd rfl (harray vs frame)
  | function | symbol | invalidDate => exact h.here.elim
  | undefined | null | bool | number | bigint | text =>
    exact ⟨_, _, primitive.eq_def _, rfl, nofun⟩

/-- What a value comes down to has a text. -/
theorem plainText_of_primitive (h : v.IsInert) (hw : primitive v = .ok w) :
    ∃ t, w.plainText = .ok t := by
  by_cases htext : v.IsTextless
  · rw [primitive_of_isTextless h htext] at hw
    cases hw
  · cases v with
    | array vs frame =>
      rw [primitive_array htext] at hw
      obtain ⟨parts, -, hw⟩ := bind_eq_ok.1 hw
      cases hw
      exact ⟨_, rfl⟩
    | _ =>
      obtain ⟨u, t, hu, ht, -⟩ := exists_primitive h htext (by simp)
      rw [hu] at hw
      cases hw
      exact ⟨t, ht⟩

theorem spelledItems_cons (v : Value) (vs : List (Option Value)) :
    spelledItems (some v :: vs) =
      (if v.isNull then .ok [] else primitive v >>= plainText) >>= fun first =>
        spelledItems vs >>= fun rest => .ok (first :: rest) := by
  rw [spelledItems]
  split <;> rfl

mutual

/-- What can be spelled out. -/
theorem primitive_failsIff (v : Value) (h : v.IsInert) :
    FailsIff .unsupported v.IsUnspellable (primitive v) := by
  by_cases htext : v.IsTextless
  · rw [primitive_of_isTextless h htext]
    exact .of_error (isUnspellable_iff.2 (.inl htext))
  · cases v with
    | array vs frame =>
      rw [primitive_array htext]
      exact ((spelledItems_failsIff vs h.item).bind_ok fun _ _ => ⟨_, rfl⟩).congr
        (isUnspellable_iff.trans (or_iff_right htext))
    | _ =>
      obtain ⟨w, t, hw, -⟩ := exists_primitive h htext (by simp)
      rw [hw]
      exact .of_ok (mt (isUnspellable_iff_isTextless rfl).1 htext) w

theorem spelledItems_failsIff (vs : List (Option Value)) (h : ∀ v ∈ present vs, v.IsInert) :
    FailsIff .unsupported (∃ v ∈ present vs, v.IsUnspellable) (spelledItems vs) := by
  cases vs with
  | nil =>
    rw [spelledItems]
    exact .of_ok (by simp [present]) _
  | cons item vs =>
    cases item with
    | none =>
      rw [spelledItems]
      exact (spelledItems_failsIff vs h).bind_ok fun _ _ => ⟨_, rfl⟩
    | some v =>
      have hv : v.IsInert := h v List.mem_cons_self
      have hrest := spelledItems_failsIff vs fun w hw => h w (List.mem_cons_of_mem _ hw)
      rw [spelledItems_cons]
      split
      · next hnull =>
        have hspellable : ¬v.IsUnspellable := by
          cases v with
          | undefined | null =>
            exact mt (isUnspellable_iff_isTextless rfl).1 (not_isTextless rfl)
          | _ => cases hnull
        exact (hrest.bind_ok fun _ _ => ⟨_, rfl⟩).congr (by simp [present, hspellable])
      · have hfirst := (primitive_failsIff v hv).bind_ok fun w hw => plainText_of_primitive hv hw
        exact (hfirst.bind fun _ _ => hrest.bind_ok fun _ _ => ⟨_, rfl⟩).congr (by simp [present])

end

theorem spelled_eq (h : v.IsInert) : spelled v = v.primitive >>= plainText := by
  cases v with
  | symbol => exact h.here.elim
  | _ => rfl

theorem spelled_failsIff (h : v.IsInert) : FailsIff .unsupported v.IsUnspellable (spelled v) := by
  rw [spelled_eq h]
  exact (primitive_failsIff v h).bind_ok fun w hw => plainText_of_primitive h hw

mutual

/-- An inert value in which JSON comes upon a big integer is not spelled out by nothing: the integer
or a tag is there. -/
theorem plainText_ne_nil (v : Value) (h : v.IsInert) (hbigint : v.ShowsBigint) {w : Value}
    (hw : primitive v = .ok w) {t : Text} (ht : w.plainText = .ok t) : t ≠ [] := by
  by_cases htext : v.IsTextless
  · rw [primitive_of_isTextless h htext] at hw
    cases hw
  · cases v with
    | array vs frame =>
      rw [primitive_array htext] at hw
      obtain ⟨parts, hparts, hw⟩ := bind_eq_ok.1 hw
      cases hw
      cases ht
      obtain ⟨u, hu, hne⟩ :=
        exists_spelledItems_ne_nil vs h.item ((showsBigint_iff (by simp)).1 hbigint) hparts
      exact Text.join_ne_nil hu hne
    | bigint n =>
      cases hw
      cases ht
      exact Text.ofInt_ne_nil n
    | undefined | null | bool | number | text =>
      exact absurd hbigint (not_showsBigint (by simp) rfl)
    | function | symbol | invalidDate => exact h.here.elim
    | _ =>
      obtain ⟨u, t', hu, ht', hne⟩ := exists_primitive h htext (by simp)
      rw [hu] at hw
      cases hw
      rw [ht'] at ht
      cases ht
      exact hne rfl

theorem exists_spelledItems_ne_nil (vs : List (Option Value)) (h : ∀ v ∈ present vs, v.IsInert)
    (hbigint : ∃ v ∈ present vs, v.ShowsBigint) {parts : List Text}
    (hparts : spelledItems vs = .ok parts) : ∃ t ∈ parts, t ≠ [] := by
  cases vs with
  | nil => exact absurd hbigint (by simp [present])
  | cons item vs =>
    cases item with
    | none =>
      rw [spelledItems] at hparts
      obtain ⟨rest, hrest, hparts⟩ := bind_eq_ok.1 hparts
      cases hparts
      obtain ⟨t, ht, hne⟩ := exists_spelledItems_ne_nil vs h hbigint hrest
      exact ⟨t, List.mem_cons_of_mem _ ht, hne⟩
    | some v =>
      rw [spelledItems_cons] at hparts
      obtain ⟨first, hfirst, hparts⟩ := bind_eq_ok.1 hparts
      obtain ⟨rest, hrest, hparts⟩ := bind_eq_ok.1 hparts
      cases hparts
      obtain ⟨w, hw, hshows⟩ := hbigint
      rcases List.mem_cons.1 hw with hv | hw
      · obtain rfl : v = w := hv.symm
        rw [if_neg (not_isNull_of_showsBigint hshows)] at hfirst
        obtain ⟨u, hu, hfirst⟩ := bind_eq_ok.1 hfirst
        exact ⟨first, List.mem_cons_self,
          plainText_ne_nil v (h v List.mem_cons_self) hshows hu hfirst⟩
      · obtain ⟨t, ht, hne⟩ := exists_spelledItems_ne_nil vs
          (fun u hu => h u (List.mem_cons_of_mem _ hu)) ⟨w, hw, hshows⟩ hrest
        exact ⟨t, List.mem_cons_of_mem _ ht, hne⟩

end

/-! ## Maps -/

theorem keyName?_failsIff {k : Key Value} (h : (ofKey k).IsInert) :
    FailsIff .unsupported (ofKey k).IsUnspellable (keyName? k) := by
  rw [keyName?]
  refine (primitive_failsIff _ h).bind_ok fun w hw => ?_
  obtain ⟨t, ht⟩ := plainText_of_primitive h hw
  cases w with
  | symbol => cases ht
  | _ => exact ⟨some t, congrArg (some <$> ·) ht⟩

/-- A map is a mapping under the texts of its keys, if all of them can be spelled out. -/
theorem entriesOfMap_failsIff {es : List (Key Value × Value)} {frame : Frame Value}
    (h : (map es frame).IsInert) :
    FailsIff .unsupported (∃ e ∈ es, (ofKey e.1).IsUnspellable) (entriesOfMap es) := by
  rw [entriesOfMap]
  refine FailsIff.bind_ok (FailsIff.mapM fun e he => ?_) fun _ _ => ⟨_, rfl⟩
  exact (keyName?_failsIff (h.entry he).1).bind_ok fun _ _ => ⟨_, rfl⟩

/-- The entries of a map stay its values under the texts of its keys. -/
theorem forall_entriesOfMap {P : Value → Prop} {es : List (Key Value × Value)} {entries : Entries}
    (h : ∀ e ∈ es, P e.2) (hentries : entriesOfMap es = .ok entries) :
    ∀ w ∈ entries.map (·.2), P w := by
  obtain ⟨named, hnamed, hok⟩ := bind_eq_ok.1 hentries
  cases hok
  intro w hw
  obtain ⟨e, he, rfl⟩ := List.mem_map.1 hw
  obtain ⟨f, hf, hvalue⟩ := exists_of_mem_mapM hnamed (mem_present.1 (Table.mem_of_mem_ofList he))
  obtain ⟨name, -, hpair⟩ := bind_eq_ok.1 hvalue
  obtain ⟨t, -, rfl⟩ := Option.map_eq_some_iff.1 (Except.ok.inj hpair)
  exact h f hf

theorem isInert_entriesOfMap {es : List (Key Value × Value)} {frame : Frame Value}
    {entries : Entries} (h : (map es frame).IsInert) (hentries : entriesOfMap es = .ok entries) :
    (mapping entries).IsInert :=
  .intro nofun (forall_entriesOfMap (fun _ he => (h.entry he).2) hentries)

/-! ## Texts -/

/-- Whether an inert value has no text: a map with a key that cannot be spelled out or with a big
integer among what JSON shows of its entries, and any other value but a date in which JSON comes
upon a big integer if it cannot be spelled out either. -/
def LacksText : Value → Prop
  | .map es _ => (∃ e ∈ es, (ofKey e.1).IsUnspellable) ∨
      ∃ entries, entriesOfMap es = .ok entries ∧ (mapping entries).ShowsBigint
  | .date .. => False
  | v => v.ShowsBigint ∧ v.IsUnspellable

/-- An object with a big integer, of a class that inherits nothing. -/
example : (object 0 { fields := [(units "n", .bigint 1)],
                      inherited := [(spellingName, .undefined)] }).LacksText :=
  ⟨.inside (List.mem_singleton_self _) (.here ⟨1, rfl⟩),
    .here (show Table.get? (members _) spellingName ≠ none by decide)⟩

/-- A structure is spelled out where JSON fails. -/
theorem written_failsIff (h : v.IsInert) (hv : v ≠ .undefined) :
    FailsIff .unsupported (v.ShowsBigint ∧ v.IsUnspellable) (written v) := by
  have hjson := json_failsIff h []
  by_cases hbigint : v.ShowsBigint
  · have hwritten : written v = spelled v := by rw [written, hjson.error hbigint]
    rw [hwritten]
    exact (spelled_failsIff h).congr (and_iff_right hbigint)
  · obtain ⟨_ | t, ht⟩ := hjson.ok hbigint
    · exact absurd ht (json_ne_none h hv)
    · have hwritten : written v = .ok t := by rw [written, ht]
      rw [hwritten]
      exact .of_ok (fun hlacks => hbigint hlacks.1) t

/-- Which inert values have no text. -/
theorem toText?_failsIff (h : v.IsInert) : FailsIff .unsupported v.LacksText v.toText? := by
  cases v with
  | map es frame =>
    refine (entriesOfMap_failsIff h).bind fun entries hentries => ?_
    refine (json_failsIff (isInert_entriesOfMap h hentries) []).congr ?_
    simp [hentries]
  | array | mapping | set | object => exact (written_failsIff h nofun).map some
  | bigint n =>
    have hspellable : ¬(bigint n).IsUnspellable :=
      mt (isUnspellable_iff_isTextless rfl).1 (not_isTextless rfl)
    exact .of_ok (fun hlacks => hspellable hlacks.2) _
  | date ms => exact .of_ok id _
  | function | symbol | invalidDate => exact h.here.elim
  | _ => exact .of_ok (fun hlacks => not_showsBigint (by simp) rfl hlacks.1) _

/-- An inert value that does not lack a text is not left out either. -/
theorem toText?_ne_none (h : v.IsInert) : v.toText? ≠ .ok none := by
  intro hnone
  obtain ⟨es, frame, entries, rfl, hentries, hjson⟩ := toText?_eq_none hnone
  exact json_ne_none (isInert_entriesOfMap h hentries) nofun hjson

/-- The text of an inert value that is present is empty only for the empty text. -/
theorem toText?_ne_nil (h : v.IsInert) (hnull : v.isNull = false) (hv : v ≠ .text []) :
    v.toText? ≠ .ok (some []) := by
  intro hnil
  rcases toText?_eq_nil hnil with htrue | htext | ⟨-, hspelled, ⟨f, source, frame, rfl⟩ | hjson⟩
  · rw [hnull] at htrue
    cases htrue
  · exact hv htext
  · exact h.here
  · rw [spelled_eq h] at hspelled
    obtain ⟨w, hw, ht⟩ := bind_eq_ok.1 hspelled
    refine plainText_ne_nil v h (by_contra fun hbigint => ?_) hw ht rfl
    obtain ⟨_ | t, ht⟩ := (json_failsIff h []).ok hbigint
    · refine json_ne_none h ?_ ht
      rintro rfl
      cases hnull
    · exact hjson _ ht

theorem toText_failsIff (h : v.IsInert) : FailsIff .unsupported v.LacksText v.toText := by
  rw [toText]
  refine (toText?_failsIff h).bind_ok fun t ht => ?_
  cases t with
  | none => exact absurd ht (toText?_ne_none h)
  | some t => exact ⟨t, rfl⟩

theorem insertedText_failsIff (h : v.IsInert) :
    FailsIff .unsupported v.LacksText v.insertedText := by
  rw [insertedText]
  exact (toText?_failsIff h).bind_ok fun _ _ => ⟨_, rfl⟩

end

end TreeExtraction.Value
