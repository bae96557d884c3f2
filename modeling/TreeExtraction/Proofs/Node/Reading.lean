import TreeExtraction.Node.Conversion
import TreeExtraction.Proofs.Outcome

/-! # One node of a conversion

Reading a source yields the head of its node, that is all but the children, and the sources of the
children; it yields nothing if the type of the node is ignored. Converting a source is reading it
and converting the sources of its children one level further down, so what a conversion does is
said by what reading does at each of its sources.
-/

namespace TreeExtraction

/-- What a node holds beside its children. -/
structure Head where
  label : Option Text
  type : NodeType
  icon : Icon
  contentLines : Number
  sourceLocation : Value
  extra : Entries

namespace Head

/-- The node with the given children. -/
def node (h : Head) (children : List Node) : Node :=
  .node h.label h.type h.icon h.contentLines h.sourceLocation h.extra children

end Head

namespace Definition

variable {d d' : Definition} {source : Value} {base : Option Text} {limit : Nat}

theorem collect_cons_eq_ok {α β : Type} {operation : α → Run (Option β)} {a : α} {as : List α}
    {bs : List β} : (collect operation (a :: as)).outcome = .ok bs ↔
      ∃ first rest, (operation a).outcome = .ok first ∧
        (collect operation as).outcome = .ok rest ∧ first.toList ++ rest = bs := by
  rw [collect]
  simp [Run.bind_eq_ok]

section

variable [PureHost]

/-- The head of the node of a source whose type has been found. -/
def readHead (d : Definition) (source : Value) (found : NodeType) : Run Head := do
  let base := found.name?
  let fields := d.effectiveFields base
  let type ← d.nodeType source base
  let label ← label source fields base type
  let icon ← d.icon source fields base type
  let lines ← extractField source .contentLines base fields.contentLines
  let location ← extractField source .sourceLocation base fields.sourceLocation
  let extra ← Run.within (fieldContext .extra base) do
    let v ← fields.extra.run source
    .lift (extraOf v)
  return ⟨label, found.renamed type, icon, contentLinesOf lines, location.orNull, extra⟩

/-- The head of the node of a source and the sources of its children; none if its type is
ignored. -/
def readNode (d : Definition) (source : Value) : Run (Option (Head × List Value)) := do
  let found ← d.foundType source
  let base := found.name?
  if d.isIgnored base then return none
  let head ← d.readHead source found
  let sources ← d.childSources source (d.effectiveFields base) base
  return some (head, sources)

/-- Converts a source; `below` converts the sources of its children. -/
def convertBy (d : Definition) (below : Value → Run (Option Node)) (source : Value) :
    Run (Option Node) := do
  match ← d.readNode source with
  | none => return none
  | some (head, sources) =>
    let children ← collect below sources
    return some (head.node children)

/-- A conversion reads its source and converts the sources of the children one level further
down. -/
theorem convertWithin_succ (d : Definition) (limit : Nat) (source : Value) :
    d.convertWithin (limit + 1) source = d.convertBy (d.convertWithin limit) source := by
  rw [convertWithin, convertBy, readNode, Run.bind_assoc]
  apply Run.bind_congr
  intro found _
  dsimp only
  cases h : d.isIgnored found.name? with
  | true => rfl
  | false => simp [readHead, Run.bind_assoc, Run.pure_bind, Head.node]

/-! ## Successful conversions -/

theorem outcome_baseType (d : Definition) (source : Value) :
    (d.baseType source).outcome = NodeType.name? <$> (d.foundType source).outcome := by
  rw [baseType, Run.outcome_bind]
  cases (d.foundType source).outcome <;> rfl

theorem baseType_of_foundType {found : NodeType} (h : (d.foundType source).outcome = .ok found) :
    (d.baseType source).outcome = .ok found.name? := by
  rw [outcome_baseType, h]
  rfl

theorem exists_of_baseType (h : (d.baseType source).outcome = .ok base) :
    ∃ found, (d.foundType source).outcome = .ok found ∧ found.name? = base := by
  rw [outcome_baseType] at h
  exact Outcome.map_eq_ok.1 h

theorem readNode_eq_none : (d.readNode source).outcome = .ok none ↔
    ∃ found, (d.foundType source).outcome = .ok found ∧ d.isIgnored found.name? = true := by
  rw [readNode, Run.bind_eq_ok]
  apply exists_congr
  intro found
  apply and_congr_right
  intro _
  cases h : d.isIgnored found.name? <;> simp [h, Run.bind_eq_ok]

theorem readNode_eq_some {head : Head} {sources : List Value} :
    (d.readNode source).outcome = .ok (some (head, sources)) ↔
      ∃ found, (d.foundType source).outcome = .ok found ∧ d.isIgnored found.name? = false ∧
        (d.readHead source found).outcome = .ok head ∧
        (d.childSources source (d.effectiveFields found.name?) found.name?).outcome =
          .ok sources := by
  rw [readNode, Run.bind_eq_ok]
  apply exists_congr
  intro found
  apply and_congr_right
  intro _
  cases h : d.isIgnored found.name? <;> simp [h, Run.bind_eq_ok]

variable {below : Value → Run (Option Node)} {sources : List Value}

theorem convertBy_eq_ok {n : Option Node} : (d.convertBy below source).outcome = .ok n ↔
    (d.readNode source).outcome = .ok none ∧ n = none ∨
      ∃ head sources children, (d.readNode source).outcome = .ok (some (head, sources)) ∧
        (collect below sources).outcome = .ok children ∧ n = some (head.node children) := by
  rw [convertBy, Run.bind_eq_ok]
  constructor
  · rintro ⟨_ | ⟨head, sources⟩, hread, h⟩
    · cases h
      exact .inl ⟨hread, rfl⟩
    · rcases Run.bind_eq_ok.1 h with ⟨children, hchildren, h⟩
      cases h
      exact .inr ⟨head, sources, children, hread, hchildren, rfl⟩
  · rintro (⟨hread, rfl⟩ | ⟨head, sources, children, hread, hchildren, rfl⟩)
    · exact ⟨none, hread, rfl⟩
    · exact ⟨_, hread, Run.bind_eq_ok.2 ⟨children, hchildren, rfl⟩⟩

end

/-! ## Definitions that treat a type alike -/

/-- Whether two definitions agree on nodes of a base type, but for whether they are ignored. -/
structure AgreeOn (base : Option Text) (d d' : Definition) : Prop where
  fields : d'.fields = d.fields
  icons : d'.icons = d.icons
  iconPacks : d'.iconPacks = d.iconPacks
  overrides : d'.overridesFor base = d.overridesFor base

namespace AgreeOn

theorem effectiveFields (h : AgreeOn base d d') :
    d'.effectiveFields base = d.effectiveFields base := by
  rw [Definition.effectiveFields, Definition.effectiveFields, h.fields, h.overrides]

variable [PureHost]

theorem foundType (h : AgreeOn base d d') (source : Value) :
    d'.foundType source = d.foundType source := by
  rw [Definition.foundType, Definition.foundType, h.fields]

theorem readHead {found : NodeType} (h : AgreeOn found.name? d d') (source : Value) :
    d'.readHead source found = d.readHead source found := by
  simp only [Definition.readHead, nodeType, icon, h.effectiveFields, h.overrides, h.icons,
    h.iconPacks]

theorem candidates (h : AgreeOn base d d') (included excluded : List Text) (vs : List Value) :
    d'.candidates included excluded vs = d.candidates included excluded vs := by
  induction vs with
  | nil => rfl
  | cons v vs ih => simp only [Definition.candidates, isCandidate, h.fields, ih]

theorem childSources (h : AgreeOn base d d') (source : Value) (fields : Fields) :
    d'.childSources source fields base = d.childSources source fields base := by
  simp only [Definition.childSources, h.candidates]

end AgreeOn

/-! ## Plain trees -/

/-- A source of a type with children, as the default definition reads it. -/
def plainSource (type : String) (children : List Value) : Value :=
  .mapping [(units "type", .ofString type), (units "children", .list children)]

/-- What the default definition makes of a source of a type, but for its children. -/
def plainHead (type symbol : String) : Head where
  label := some (units type)
  type := .named (units type)
  icon := .symbol (units symbol)
  contentLines := contentLinesOf (.number (.ofNat 1))
  sourceLocation := .null
  extra := []

/-- What the default definition makes of a source of a type with children. -/
def plainNode (type symbol : String) (children : List Node) : Node :=
  .node (some (units type)) (.named (units type)) (.symbol (units symbol))
    (contentLinesOf (.number (.ofNat 1))) .null [] children

end Definition

end TreeExtraction
