import TreeExtraction.Proofs.Definition.FieldSet
import TreeExtraction.Proofs.Extraction.Descent
import TreeExtraction.Proofs.Node.Reading
import TreeExtraction.Value.SampleHost

/-! # Conversions end

If the children of all nodes are selected from their sources, each of their sources is less deep
than the source of the node. So a conversion ends by itself, after as many levels as its source is
deep and one more, and its limit is never reached. Without this condition a source can be among its
own children, and then it is converted at no limit.

Objects that answer field requests through a method fit in here as long as they answer with what
they hold; a scalar is always as good.
-/

namespace TreeExtraction.Definition

open Value

variable {d : Definition} {source c : Value} {sources : List Value} {base : Option Text}
  {limit : Nat}

/-- Whether the children of all nodes are selected from their sources, by a specification or by
their type. -/
structure SelectsChildren (d : Definition) : Prop where
  fields : d.fields.children.Holds Spec.IsSelecting
  overrides : ∀ e ∈ d.typeOverrides, ∀ selector ∈ e.2.children, selector.Holds Spec.IsSelecting

theorem SelectsChildren.effectiveFields (h : d.SelectsChildren) (base : Option Text) :
    (d.effectiveFields base).children.Holds Spec.IsSelecting := by
  rw [Definition.effectiveFields, Fields.overlay]
  cases ho : d.overridesFor base with
  | none => exact h.fields
  | some o =>
    rcases Option.bind_eq_some_iff.1 ho with ⟨t, -, ht⟩
    cases hselector : o.children with
    | none => simpa [hselector] using h.fields
    | some selector =>
      have := h.overrides _ (Table.mem_of_get? ht) selector hselector
      simpa [hselector] using this

/-! ## Runs over lists -/

theorem collect_congr_mem {α β : Type} {f g : α → Run (Option β)} {as : List α}
    (h : ∀ a ∈ as, f a = g a) : collect f as = collect g as := by
  induction as with
  | nil => rfl
  | cons a as ih =>
    rw [collect, collect, h a List.mem_cons_self, ih fun b hb => h b (List.mem_cons_of_mem _ hb)]

theorem exists_of_collect {α β : Type} {f : α → Run (Option β)} {as : List α} {bs : List β} {a : α}
    (h : (collect f as).outcome = .ok bs) (ha : a ∈ as) : ∃ b, (f a).outcome = .ok b := by
  induction as generalizing bs with
  | nil => cases ha
  | cons first as ih =>
    rcases collect_cons_eq_ok.1 h with ⟨b, rest, hfirst, hrest, -⟩
    rcases List.mem_cons.1 ha with rfl | ha
    · exact ⟨b, hfirst⟩
    · exact ih hrest ha

/-! ## Sources of children -/

section Host

variable [PureHost]

theorem candidates_subset {included excluded : List Text} {vs ws : List Value}
    (h : (d.candidates included excluded vs).outcome = .ok ws) : ws ⊆ vs := by
  induction vs generalizing ws with
  | nil =>
    cases h
    exact List.Subset.refl _
  | cons v vs ih =>
    rcases Run.bind_eq_ok.1 h with ⟨keep, -, h⟩
    rcases Run.bind_eq_ok.1 h with ⟨rest, hrest, h⟩
    cases h
    cases keep with
    | true => exact List.cons_subset_cons v (ih hrest)
    | false => exact List.subset_cons_of_subset v (ih hrest)

theorem isWithin_of_mem_scanned (hs : source.Throughout parts AnswersInside)
    {found : List (Text × Value)} (h : source.listFields = .ok found) (hc : c ∈ scanned found) :
    c.IsWithin source.depth := by
  obtain ⟨⟨name, v⟩, he, hc⟩ := List.mem_flatMap.1 hc
  obtain ⟨hfound, hlt⟩ := of_mem_listFields hs.here h he
  have hfield : v.IsWithin source.depth :=
    ⟨hlt, hs.answer (fun _ hu => hu.answersInside) hfound⟩
  cases v with
  | array items frame => exact hfield.part (List.mem_append_left _ hc)
  | _ =>
    obtain rfl := List.mem_singleton.1 hc
    exact hfield

/-- Sources of children that are selected are less deep than the source of the node. -/
theorem isWithin_of_mem_childSources {fields : Fields}
    (hselects : fields.children.Holds Spec.IsSelecting)
    (hs : source.Throughout parts AnswersInside)
    (h : (d.childSources source fields base).outcome = .ok sources) (hc : c ∈ sources) :
    c.IsWithin source.depth := by
  rw [childSources] at h
  cases hchildren : fields.children with
  | types included excluded =>
    rw [hchildren, Run.outcome_within, Outcome.inContext_eq_ok, Run.bind_eq_ok] at h
    obtain ⟨found, hfound, h⟩ := h
    exact isWithin_of_mem_scanned hs hfound (candidates_subset h hc)
  | listed spec =>
    rw [hchildren] at h hselects
    obtain ⟨v, hv, h⟩ := Run.bind_eq_ok.1 h
    have hrun : (spec.run source).outcome = .ok v := Outcome.inContext_eq_ok.1 hv
    cases v with
    | array items frame =>
      cases h
      exact Spec.listsWithin_run hselects hs hrun items frame rfl c hc
    | undefined | null =>
      cases h
      cases hc
    | _ => cases h

theorem SelectsChildren.isWithin (hd : d.SelectsChildren)
    (hs : source.Throughout parts AnswersInside) {head : Head}
    (h : (d.readNode source).outcome = .ok (some (head, sources))) (hc : c ∈ sources) :
    c.IsWithin source.depth := by
  obtain ⟨found, -, -, -, hsources⟩ := readNode_eq_some.1 h
  exact isWithin_of_mem_childSources (hd.effectiveFields found.name?) hs hsources hc

/-! ## Levels -/

/-- A conversion of some levels of a tree. Sources below them are left to `deeper`. -/
def convertLevels (d : Definition) (deeper : Value → Run (Option Node)) :
    (levels : Nat) → Value → Run (Option Node)
  | 0 => deeper
  | levels + 1 => d.convertBy (d.convertLevels deeper levels)

theorem convertWithin_eq_convertLevels (d : Definition) (limit : Nat) :
    d.convertWithin limit = d.convertLevels (fun _ => .fail .outOfRange) limit := by
  induction limit with
  | zero => rfl
  | succ limit ih =>
    funext source
    rw [convertWithin_succ, ih, convertLevels]

theorem convertBy_congr {below below' : Value → Run (Option Node)}
    (h : ∀ head sources, (d.readNode source).outcome = .ok (some (head, sources)) →
      ∀ c ∈ sources, below c = below' c) :
    d.convertBy below source = d.convertBy below' source := by
  rw [convertBy, convertBy]
  apply Run.bind_congr
  rintro (_ | ⟨head, sources⟩) hread
  · rfl
  · dsimp only
    rw [collect_congr_mem (h head sources hread)]

/-- Conversions of more levels than a source is deep are the same. -/
theorem SelectsChildren.convertLevels_eq (hd : d.SelectsChildren)
    (hs : source.Throughout parts AnswersInside) {deeper deeper' : Value → Run (Option Node)}
    {levels levels' : Nat} (h : source.depth < levels) (h' : source.depth < levels') :
    d.convertLevels deeper levels source = d.convertLevels deeper' levels' source := by
  induction levels generalizing source levels' with
  | zero => exact absurd h (Nat.not_lt_zero _)
  | succ levels ih =>
    cases levels' with
    | zero => exact absurd h' (Nat.not_lt_zero _)
    | succ levels' =>
      rw [convertLevels, convertLevels]
      apply convertBy_congr
      intro head sources hread c hc
      -- One level is used up on both sides, and what is left still covers the less deep child.
      obtain ⟨hlt, hanswers⟩ := hd.isWithin hs hread hc
      exact ih hanswers (by omega) (by omega)

/-- If the children of all nodes are selected from their sources and everything in a source that
answers field requests answers with what it holds, each source of a child is less deep than the
source of the node and answers so itself. A conversion then obeys the recursion without a limit, and
it takes at most one level more than its source is deep: whatever would become of sources further
down, be it a failure, makes no difference. -/
theorem convert_of_selectsChildren (h : d.SelectsChildren)
    (hs : source.Throughout parts AnswersInside) :
    (∀ head sources, (d.readNode source).outcome = .ok (some (head, sources)) →
      ∀ c ∈ sources, c.depth < source.depth ∧ c.Throughout parts AnswersInside) ∧
    d.convert source = d.convertBy d.convert source ∧
    ∀ deeper levels, source.depth < levels →
      d.convertLevels deeper levels source = d.convert source := by
  have hlevels (deeper : Value → Run (Option Node)) {levels : Nat} {v : Value}
      (hv : v.Throughout parts AnswersInside) (hlt : v.depth < levels) :
      d.convertLevels deeper levels v = d.convert v := by
    rw [convert, convertWithin_eq_convertLevels]
    exact h.convertLevels_eq hv hlt (by simp [depthMargin])
  refine ⟨fun head sources hread c hc => ?_, ?_, fun deeper levels => hlevels deeper hs⟩
  · obtain ⟨hlt, hanswers⟩ := h.isWithin hs hread hc
    exact ⟨hlt, hanswers⟩
  · rw [← hlevels d.convert hs (Nat.lt_succ_self source.depth), convertLevels]
    apply convertBy_congr
    intro head sources hread c hc
    obtain ⟨hlt, hanswers⟩ := h.isWithin hs hread hc
    exact hlevels d.convert hanswers hlt

end Host

section Sample

open scoped SampleHost

/-! ## Sources that answer for themselves -/

variable {children : List Value} (h : ∀ c ∈ children, c.Throughout parts AnswersInside)

include h

theorem throughout_list : (Value.list children).Throughout parts AnswersInside :=
  throughout_array fun c hc => h c (by rwa [present_map_some] at hc)

theorem throughout_plainSource (type : String) :
    (plainSource type children).Throughout parts AnswersInside := by
  refine .intro (answersInside_of_method rfl) fun w hw => ?_
  obtain rfl | rfl : w = .ofString type ∨ w = .list children := by
    simpa [plainSource, parts] using hw
  · exact throughout_of_isScalar rfl
  · exact throughout_list h

omit h

/-- What is hidden in a note: its type and its children. -/
def hiddenNote (children : List Value) : Entries :=
  [(units "type", .ofString "note"), (units "children", .list children)]

/-- A note that answers field requests from what is hidden in it. -/
def answeringNote (children : List Value) : Value :=
  .object 1 {
    fields := [(units "type", .null), (units "children", .null)]
    inherited := [(capabilityName, SampleFunction.lookUp.value)]
    hidden := hiddenNote children }

theorem answersInside_answeringNote (children : List Value) :
    (answeringNote children).AnswersInside := by
  intro f name w hf hw
  cases hf
  have hanswer : Entries.get (hiddenNote children) name = w := Except.ok.inj hw
  rw [Entries.get] at hanswer
  cases hget : Table.get? (hiddenNote children) name with
  | none =>
    rw [hget] at hanswer
    exact .inr (hanswer ▸ rfl)
  | some u =>
    rw [hget] at hanswer
    obtain rfl : u = w := hanswer
    have hhidden : u ∈ (hiddenNote children).map (·.2) :=
      List.mem_map_of_mem (Table.mem_of_get? hget)
    refine .inl (.part ?_)
    simp [answeringNote, parts, Frame.parts, hhidden]

theorem throughout_lookUp : SampleFunction.lookUp.value.Throughout parts AnswersInside := by
  refine .intro (answersInside_of_method rfl) fun w hw => throughout_of_isScalar ?_
  revert w
  decide

include h in
theorem throughout_answeringNote :
    (answeringNote children).Throughout parts AnswersInside := by
  refine .intro (answersInside_answeringNote children) fun w hw => ?_
  have hpart : w = .null ∨ w = SampleFunction.lookUp.value ∨ w = .ofString "note" ∨
      w = .list children := by
    simpa [answeringNote, parts, Frame.parts, hiddenNote] using hw
  obtain rfl | rfl | rfl | rfl := hpart
  · exact throughout_of_isScalar rfl
  · exact throughout_lookUp
  · exact throughout_of_isScalar rfl
  · exact throughout_list h

/-- The children of all nodes are the items of the first array among theirs, and those of notes
whatever has a type. -/
def nested : Definition where
  fields := { default.fields with
    children := .listed (.structured {
      path := some (units "children")
      transform := some (.builtin .first) }) }
  icons := default.icons
  iconPacks := []
  typeOverrides := [(units "note", { children := some (.types Selector.usualInclude []) })]
  ignoreTypes := []

/-- A page with a note in an array of its own, and a text in the note, which answers for itself. -/
theorem convert_nested_page :
    ∃ page note, page = plainSource "page" [.list [note]] ∧
      note = answeringNote [plainSource "text" []] ∧ nested.SelectsChildren ∧
      page.Throughout parts AnswersInside ∧
      (nested.readNode page).outcome = .ok (some (plainHead "page" "?", [note])) ∧
      note.depth < page.depth ∧ page.depth < page.depth + 1 ∧
      nested.convertLevels (fun _ => .fail .unsupported) (page.depth + 1) page =
        nested.convert page ∧
      (nested.convert page).outcome = .ok (some (plainNode "page" "?"
        [plainNode "note" "?" [plainNode "text" "◦" []]])) := by
  have hselects : nested.SelectsChildren := by
    constructor
    · exact ⟨rfl, rfl, rfl⟩
    · intro e he selector hselector
      obtain rfl := List.mem_singleton.1 he
      cases hselector
      trivial
  have htext : (plainSource "text" []).Throughout parts AnswersInside :=
    throughout_plainSource (List.forall_mem_nil _) "text"
  have hnote := throughout_answeringNote (List.forall_mem_singleton.2 htext)
  have hpage := throughout_plainSource
    (List.forall_mem_singleton.2 (throughout_list (List.forall_mem_singleton.2 hnote))) "page"
  have hread : (nested.readNode (plainSource "page"
      [.list [answeringNote [plainSource "text" []]]])).outcome =
        .ok (some (plainHead "page" "?", [answeringNote [plainSource "text" []]])) := rfl
  obtain ⟨hless, -, hlevels⟩ := convert_of_selectsChildren hselects hpage
  exact ⟨_, _, rfl, rfl, hselects, hpage, hread, (hless _ _ hread _ List.mem_cons_self).1,
    Nat.lt_succ_self _, hlevels _ _ (Nat.lt_succ_self _), rfl⟩

end Sample

/-! ## Endless trees -/

/-- A source that is among the sources of its own children is converted at no limit. -/
theorem convertWithin_ne_ok [PureHost] {head : Head}
    (h : (d.readNode source).outcome = .ok (some (head, sources))) (hself : source ∈ sources)
    (limit : Nat) (n : Option Node) : (d.convertWithin limit source).outcome ≠ .ok n := by
  induction limit generalizing n with
  | zero => exact nofun
  | succ limit ih =>
    rw [convertWithin_succ, Ne, convertBy_eq_ok, h]
    rintro (⟨hnone, -⟩ | ⟨head', sources', children, heq, hchildren, -⟩)
    · cases hnone
    · cases heq
      rcases exists_of_collect hchildren hself with ⟨n', hn'⟩
      exact ih n' hn'

open scoped SampleHost

/-- A text below every node. -/
def endless : Definition :=
  { default with fields := { default.fields with
      children := .listed (.literal (.list [plainSource "text" []])) } }

example (limit : Nat) (n : Option Node) :
    (endless.convertWithin limit (plainSource "text" [])).outcome ≠ .ok n := by
  have hread : (endless.readNode (plainSource "text" [])).outcome =
    .ok (some (plainHead "text" "◦", [plainSource "text" []])) := rfl
  exact convertWithin_ne_ok hread List.mem_cons_self limit n

end TreeExtraction.Definition
