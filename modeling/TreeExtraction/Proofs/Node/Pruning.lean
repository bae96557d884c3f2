import TreeExtraction.Proofs.Definition.Reachable
import TreeExtraction.Proofs.Node.Reading
import TreeExtraction.Value.SampleHost

/-! # Ignoring types prunes the tree

A definition that ignores further types yields the tree of the original one without the nodes of
these types and all that is below them. No override may give nodes a new type: types are ignored by
the base type of a source, and only then is it the type of the node.
-/

namespace TreeExtraction

/-! ## Pruned trees -/

namespace Node

mutual

/-- A node without the nodes of some types and all that is below them; none if it is one of these
nodes itself. -/
def prune (types : List Text) : Node → Option Node
  | .node label type icon contentLines sourceLocation extra children =>
    if type.name?.any types.contains then none
    else some
      (.node label type icon contentLines sourceLocation extra (pruneAll types children))

/-- Nodes without the nodes of some types and all that is below them. -/
def pruneAll (types : List Text) : List Node → List Node
  | [] => []
  | n :: ns => (prune types n).toList ++ pruneAll types ns

end

variable {types : List Text}

theorem pruneAll_append (ns ms : List Node) :
    pruneAll types (ns ++ ms) = pruneAll types ns ++ pruneAll types ms := by
  induction ns with
  | nil => rfl
  | cons n ns ih => simp [pruneAll, ih]

theorem pruneAll_toList (n : Option Node) :
    pruneAll types n.toList = (n.bind (prune types)).toList := by
  cases n <;> simp [pruneAll]

end Node

theorem Head.prune_node (types : List Text) (h : Head) (children : List Node) :
    (h.node children).prune types =
      if h.type.name?.any types.contains then none
      else some (h.node (Node.pruneAll types children)) := by
  rw [node, Node.prune]
  rfl

namespace Definition

/-! ## Further ignored types -/

/-- The definition that ignores some further types. -/
def ignoring (d : Definition) (types : List Text) : Definition :=
  { d with ignoreTypes := distinct (d.ignoreTypes ++ types) }

variable {d : Definition} {types : List Text} {source : Value} {base : Option Text}

theorem isIgnored_ignoring : (d.ignoring types).isIgnored base =
    (d.isIgnored base || base.any types.contains) := by
  cases base with
  | none => rfl
  | some t => simp [isIgnored, ignoring]

theorem agreeOn_ignoring (base : Option Text) : AgreeOn base d (d.ignoring types) :=
  ⟨rfl, rfl, rfl, rfl⟩

/-- Whether no override gives nodes a new type. -/
def KeepsTypes (d : Definition) : Prop :=
  ∀ e ∈ d.typeOverrides, e.2.type = none

theorem KeepsTypes.overridesFor (hd : d.KeepsTypes) (base : Option Text) :
    (d.overridesFor base).bind (·.type) = none := by
  cases h : d.overridesFor base with
  | none => rfl
  | some o =>
    rw [Definition.overridesFor, Option.bind_eq_some_iff] at h
    rcases h with ⟨t, -, h⟩
    exact hd (t, o) (Table.mem_of_get? h)

/-- Where each single conversion is pruned, so are the nodes of a list. -/
theorem collect_prune {below below' : Value → Run (Option Node)}
    (h : ∀ c n, (below c).outcome = .ok n → (below' c).outcome = .ok (n.bind (Node.prune types)))
    {sources : List Value} {ns : List Node} (hns : (collect below sources).outcome = .ok ns) :
    (collect below' sources).outcome = .ok (Node.pruneAll types ns) := by
  induction sources generalizing ns with
  | nil =>
    cases hns
    rfl
  | cons c sources ih =>
    rcases collect_cons_eq_ok.1 hns with ⟨first, rest, hfirst, hrest, rfl⟩
    refine collect_cons_eq_ok.2 ⟨_, _, h c first hfirst, ih hrest, ?_⟩
    rw [Node.pruneAll_append, Node.pruneAll_toList]

section Host

variable [PureHost]

/-- Where no override gives a new type, the type of a node is the one that is found. -/
theorem KeepsTypes.type_eq {head : Head} {found : NodeType} (hd : d.KeepsTypes)
    (h : (d.readHead source found).outcome = .ok head) : head.type = found := by
  have htype : d.nodeType source found.name? = pure found.name? := by
    rw [nodeType, hd.overridesFor found.name?]
  simp only [readHead, htype, Run.pure_bind] at h
  simp only [Run.bind_eq_ok] at h
  rcases h with ⟨label, -, icon, -, lines, -, location, -, extra, -, h⟩
  cases h
  cases found <;> rfl

theorem readNode_ignoring_none (h : (d.readNode source).outcome = .ok none) :
    ((d.ignoring types).readNode source).outcome = .ok none := by
  rcases readNode_eq_none.1 h with ⟨found, hfound, hignored⟩
  refine readNode_eq_none.2 ⟨found, hfound, ?_⟩
  rw [isIgnored_ignoring, hignored, Bool.true_or]

/-- A source is read as before, unless its type is one of the further types. -/
theorem readNode_ignoring_some {head : Head} {sources : List Value} (hd : d.KeepsTypes)
    (h : (d.readNode source).outcome = .ok (some (head, sources))) :
    ((d.ignoring types).readNode source).outcome =
      .ok (if head.type.name?.any types.contains then none else some (head, sources)) := by
  rcases readNode_eq_some.1 h with ⟨found, hfound, hkept, hhead, hsources⟩
  have hagree : AgreeOn found.name? d (d.ignoring types) := agreeOn_ignoring found.name?
  rw [hd.type_eq hhead]
  cases hbelow : found.name?.any types.contains with
  | true =>
    refine readNode_eq_none.2 ⟨found, hfound, ?_⟩
    rw [isIgnored_ignoring, hbelow, Bool.or_true]
  | false =>
    refine readNode_eq_some.2 ⟨found, hfound, ?_, ?_, ?_⟩
    · rw [isIgnored_ignoring, hkept, hbelow, Bool.or_false]
    · rwa [hagree.readHead]
    · rwa [hagree.childSources, hagree.effectiveFields]

/-! ## Whole conversions -/

/-- A conversion that succeeds, to whatever depth it is limited, succeeds also if further types are
ignored, and then yields the same tree without the nodes of these types and all that is below them.
A whole conversion is limited by the depth of its source and a margin, with and without them. -/
theorem convertWithin_ignoring (hd : d.KeepsTypes) (types : List Text) (limit : Nat)
    (source : Value) {n : Option Node} (h : (d.convertWithin limit source).outcome = .ok n) :
    ((d.ignoring types).convertWithin limit source).outcome = .ok (n.bind (Node.prune types)) := by
  induction limit generalizing source n with
  | zero => cases h
  | succ limit ih =>
    rw [convertWithin_succ] at h ⊢
    rcases convertBy_eq_ok.1 h with ⟨hread, rfl⟩ | ⟨head, sources, children, hread, hchildren, rfl⟩
    · exact convertBy_eq_ok.2 (.inl ⟨readNode_ignoring_none hread, rfl⟩)
    · have hread' : ((d.ignoring types).readNode source).outcome =
          .ok (if head.type.name?.any types.contains then none else some (head, sources)) :=
        readNode_ignoring_some hd hread
      rw [Option.bind_some, Head.prune_node]
      cases hpruned : head.type.name?.any types.contains with
      | true =>
        -- The node goes with its children, whatever became of them.
        rw [hpruned] at hread'
        exact convertBy_eq_ok.2 (.inl ⟨hread', rfl⟩)
      | false =>
        rw [hpruned] at hread'
        exact convertBy_eq_ok.2
          (.inr ⟨head, sources, _, hread', collect_prune (fun c n => ih c) hchildren, rfl⟩)

end Host

open scoped SampleHost

/-- The default definition, on a list of a note and of a text with a note below it. -/
theorem convert_ignoring_note :
    default.KeepsTypes ∧
      (default.convert (plainSource "list"
        [plainSource "note" [], plainSource "text" [plainSource "note" []]])).outcome =
          .ok (some (plainNode "list" "☰"
            [plainNode "note" "?" [], plainNode "text" "◦" [plainNode "note" "?" []]])) ∧
      ((default.ignoring [units "note"]).convert (plainSource "list"
        [plainSource "note" [], plainSource "text" [plainSource "note" []]])).outcome =
          .ok (some (plainNode "list" "☰" [plainNode "text" "◦" []])) := by
  have hkeeps : default.KeepsTypes := fun _ h => nomatch h
  have hconvert : (default.convert (plainSource "list"
      [plainSource "note" [], plainSource "text" [plainSource "note" []]])).outcome =
        .ok (some (plainNode "list" "☰"
          [plainNode "note" "?" [], plainNode "text" "◦" [plainNode "note" "?" []]])) := rfl
  exact ⟨hkeeps, hconvert, convertWithin_ignoring hkeeps [units "note"] _ _ hconvert⟩

end Definition

end TreeExtraction
