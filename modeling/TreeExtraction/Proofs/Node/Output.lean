import TreeExtraction.Proofs.Definition.Reachable
import TreeExtraction.Proofs.Icon.Resolution
import TreeExtraction.Proofs.Node.Locality
import TreeExtraction.Proofs.Value.Texts

/-! # What every node of a tree has

Every node of a tree that comes of a conversion, however deep, is itself the node that one of the
sources which the conversion comes upon is converted to. So what reading a source makes sure of
holds throughout the tree: a type that is given is not empty, neither is the icon, content lines are
counted from zero, extra data are a mapping, and a node without a label of its own is labelled by
its type.

The icon is looked up in tables that also answer to inherited names. A definition that lists such a
name as a type, with an entry that leads to no symbol, gives the inherited function for an icon. And
a value that is asked for its own text may give an empty one for an icon, or none for an icon or a
type.
-/

namespace TreeExtraction

/-! ## Nodes of a tree -/

namespace Node

/-- What a node holds beside its children. -/
def head : Node → Head
  | .node label type icon contentLines sourceLocation extra _ =>
    ⟨label, type, icon, contentLines, sourceLocation, extra⟩

/-- The children of a node. -/
def children : Node → List Node
  | .node _ _ _ _ _ _ children => children

/-- Whether a node is the root of a tree or stands somewhere below it. -/
inductive Contains : Node → Node → Prop where
  | root (n : Node) : Contains n n
  | inside {n c m : Node} (hc : c ∈ n.children) (h : Contains c m) : Contains n m

end Node

/-! ## Counts of lines -/

namespace Number

/-- Whether a number is at least zero. -/
def IsAtLeastZero (n : Number) : Prop :=
  zero.less n = true ∨ zero.equal n = true

theorem isAtLeastZero_of_isNegative {n : Number} (hnan : n ≠ .nan) (hn : n.isNegative = false) :
    n.IsAtLeastZero := by
  cases n with
  | nan => exact absurd rfl hnan
  | infinite s =>
    cases hn
    exact .inl rfl
  | finite s x =>
    cases hn
    cases hzero : x.isZero with
    | true =>
      right
      simp [equal, zero, hzero, show Magnitude.zero.isZero = true from rfl]
    | false =>
      left
      simpa [less, zero, show Magnitude.zero.scaled = 0 from rfl] using
        Nat.pos_of_ne_zero (Magnitude.scaled_ne_zero hzero)

theorem isAtLeastZero_clampBelow {n : Number} (hnan : n ≠ .nan) : n.clampBelow.IsAtLeastZero := by
  rw [clampBelow]
  split
  · exact .inr rfl
  · next hn => exact isAtLeastZero_of_isNegative hnan (Bool.eq_false_iff.2 hn)

theorem ofMagnitude_ne_nan (negative : Bool) (x : Option Magnitude) :
    ofMagnitude negative x ≠ .nan := by
  cases x <;> exact nofun

theorem isNegative_ofMagnitude (negative : Bool) (x : Option Magnitude) :
    (ofMagnitude negative x).isNegative = negative := by
  cases x <;> rfl

theorem ofDecimal_ne_nan (negative : Bool) (s : Nat) (place : Int) :
    ofDecimal negative s place ≠ .nan := by
  rw [ofDecimal]
  split
  · exact nofun
  · split
    · exact nofun
    · split
      · exact nofun
      · exact ofMagnitude_ne_nan _ _

end Number

theorem isAtLeastZero_contentLinesOf (v : Value) : (contentLinesOf v).IsAtLeastZero := by
  have hone : (Number.ofNat 1).IsAtLeastZero := by
    rw [Number.ofNat, Number.ofRatio]
    exact Number.isAtLeastZero_of_isNegative (Number.ofMagnitude_ne_nan _ _)
      (Number.isNegative_ofMagnitude _ _)
  rw [contentLinesOf.eq_def]
  split
  · next n =>
    split
    · next hfinite =>
      refine Number.isAtLeastZero_clampBelow ?_
      cases n with
      | finite s x => exact Number.ofMagnitude_ne_nan _ _
      | _ => cases hfinite
    · exact hone
  · split
    · exact Number.isAtLeastZero_clampBelow (Number.ofDecimal_ne_nan _ _ _)
    · exact hone
  · exact hone

/-! ## Proper nodes -/

/-- How a node comes to an icon that is no symbol or an empty one: by a type under the name of an
inherited function that the table of icons lists in vain, or by the value of its icon field, a map
that JSON leaves out or an object that something in it spells out by nothing. -/
inductive Node.LacksIcon [PureHost] (d : Definition) (type : Option Text) (icon : Value) :
    Icon → Prop where
  | underInherited {name : Text} (htype : type = some name)
      (hname : Icon.IsUnderInherited d.icons d.iconPacks name) :
      LacksIcon d type icon (.inherited (.function name))
  | leftOut (hicon : icon.IsLeftOut) : LacksIcon d type icon .missing
  | spelledEmpty (hobject : icon.isObject = true) (hinert : ¬icon.IsInert)
      (hspelled : icon.spelled = .ok []) : LacksIcon d type icon (.symbol [])

/-- What every node has that is made of a source of a base type. -/
structure Node.IsProper [PureHost] (d : Definition) (source : Value) (base : Option Text)
    (n : Node) : Prop where
  type : n.head.type ≠ .named []
  typeUndefined : n.head.type = .undefined →
    ∃ v, (d.fields.type.run source).outcome = .ok v ∧ v.IsLeftOut
  label : ∀ v, ((d.effectiveFields base).label.run source).outcome = .ok v → v.isNull = true →
    n.head.label = some (n.head.type.name?.getD (units "Unknown"))
  icon : n.head.icon.IsShown ∨ ∃ v,
    ((d.effectiveFields base).icon.run source).outcome = .ok v ∧
      Node.LacksIcon d n.head.type.name? v n.head.icon
  contentLines : n.head.contentLines.IsAtLeastZero
  extra : ∃ es, n.value.getField FieldName.extra.text = .ok (.mapping es)

namespace Definition

variable {d : Definition} {source : Value} {base : Option Text} {limit : Nat} {n m : Node}

theorem or_ne_nil {a b : Option Text} (ha : a ≠ some []) (hb : b ≠ some []) :
    a.or b ≠ some [] := by
  cases a with
  | none => exact hb
  | some t => exact ha

theorem exists_of_mem_collect {α β : Type} {operation : α → Run (Option β)} {as : List α}
    {bs : List β} {b : β} (h : (collect operation as).outcome = .ok bs) (hb : b ∈ bs) :
    ∃ a ∈ as, (operation a).outcome = .ok (some b) := by
  induction as generalizing bs with
  | nil =>
    cases h
    cases hb
  | cons a as ih =>
    rcases collect_cons_eq_ok.1 h with ⟨first, rest, hfirst, hrest, rfl⟩
    rcases List.mem_append.1 hb with hb | hb
    · rw [Option.mem_toList] at hb
      exact ⟨a, List.mem_cons_self, hb ▸ hfirst⟩
    · obtain ⟨c, hc, hconverted⟩ := ih hrest hb
      exact ⟨c, List.mem_cons_of_mem _ hc, hconverted⟩

/-- All sources that are converted one after the other are come upon, if none of them fails. -/
theorem mem_visitedAll {conversion : Value → Run (Option Node)} {visited : Value → List Value}
    {sources : List Value} {ns : List Node} {c v : Value}
    (h : (collect conversion sources).outcome = .ok ns) (hc : c ∈ sources) (hv : v ∈ visited c) :
    v ∈ visitedAll conversion visited sources := by
  induction sources generalizing ns with
  | nil => cases hc
  | cons a sources ih =>
    rcases collect_cons_eq_ok.1 h with ⟨first, rest, hfirst, hrest, rfl⟩
    rw [visitedAll, hfirst, List.mem_append]
    rcases List.mem_cons.1 hc with rfl | hc
    · exact .inl hv
    · exact .inr (ih hrest hc)

section Host

variable [PureHost]

/-- Every node of the tree that a source is converted to is itself what a source that is come upon
is converted to. -/
theorem exists_source_of_contains (h : (d.convertWithin limit source).outcome = .ok (some n))
    (hm : n.Contains m) :
    ∃ s ∈ d.visitedWithin limit source, ∃ room,
      (d.convertWithin room s).outcome = .ok (some m) := by
  induction limit generalizing source n with
  | zero => cases h
  | succ limit ih =>
    cases hm with
    | root => exact ⟨source, mem_visitedWithin_self d limit source, _, h⟩
    | @inside _ c _ hc hm =>
      rw [convertWithin_succ] at h
      rcases convertBy_eq_ok.1 h with ⟨-, h⟩ | ⟨head, sources, children, hread, hcollect, hn⟩
      · cases h
      · cases hn
        obtain ⟨v, hv, hconverted⟩ := exists_of_mem_collect hcollect hc
        obtain ⟨s, hs, room, hroom⟩ := ih hconverted hm
        exact ⟨s, mem_visitedWithin_of_mem hread (mem_visitedAll hcollect hv hs), room, hroom⟩

/-- A node has the head that is read from its source. -/
theorem readHead_of_convertWithin (h : (d.convertWithin limit source).outcome = .ok (some n)) :
    ∃ found, (d.foundType source).outcome = .ok found ∧
      (d.readHead source found).outcome = .ok n.head := by
  cases limit with
  | zero => cases h
  | succ limit =>
    rw [convertWithin_succ] at h
    rcases convertBy_eq_ok.1 h with ⟨-, h⟩ | ⟨head, sources, children, hread, -, hn⟩
    · cases h
    · cases hn
      rcases readNode_eq_some.1 hread with ⟨found, hfound, -, hhead, -⟩
      exact ⟨found, hfound, hhead⟩

/-! ## What is read for a node -/

theorem ne_nil_of_nodeTypeOf {v : Value} {found : NodeType} (h : nodeTypeOf v = .ok found) :
    found.name? ≠ some [] := by
  rcases Outcome.bind_eq_ok.1 h with ⟨_ | _ | ⟨u, us⟩, -, h⟩ <;> cases h
  · exact nofun
  · exact nofun
  · exact fun hnil => List.cons_ne_nil u us (Option.some.inj hnil)

/-- A type is undefined only if it is asked of a map that JSON leaves out. -/
theorem isLeftOut_of_nodeTypeOf {v : Value} (h : nodeTypeOf v = .ok .undefined) : v.IsLeftOut := by
  rcases Outcome.bind_eq_ok.1 h with ⟨_ | _ | _, ht, h⟩
  · exact Value.toText?_eq_none ht
  · cases h
  · cases h

theorem ne_nil_of_foundType {found : NodeType} (h : (d.foundType source).outcome = .ok found) :
    found.name? ≠ some [] := by
  rcases Run.bind_eq_ok.1 h with ⟨v, -, h⟩
  exact ne_nil_of_nodeTypeOf h

/-- Neither the type that an override finds nor its own name, nor the base type, is empty. -/
theorem ne_nil_of_nodeType {type : Option Text} (hbase : base ≠ some [])
    (h : (d.nodeType source base).outcome = .ok type) : type ≠ some [] := by
  rw [nodeType] at h
  cases hspec : (d.overridesFor base).bind (·.type) with
  | none =>
    rw [hspec] at h
    cases h
    exact hbase
  | some spec =>
    rw [hspec] at h
    rcases Run.bind_eq_ok.1 h with ⟨v, -, h⟩
    rcases Run.bind_eq_ok.1 h with ⟨found, hfound, h⟩
    obtain rfl := Except.ok.inj h
    refine or_ne_nil (or_ne_nil (ne_nil_of_nodeTypeOf hfound) ?_) hbase
    cases spec with
    | path t => cases t <;> simp
    | _ => simp

/-- A node has the name of its type, unless it has none: then the type is the one that is found. -/
theorem renamed_of_nodeType {found : NodeType} {type : Option Text}
    (h : (d.nodeType source found.name?).outcome = .ok type) :
    (found.renamed type).name? = type ∧
      (found.renamed type = .undefined → found = .undefined) := by
  cases type with
  | some t => exact ⟨rfl, nofun⟩
  | none =>
    refine ⟨?_, id⟩
    cases found with
    | null | undefined => rfl
    | named t =>
      rw [nodeType] at h
      split at h
      · cases h
      · rcases Run.bind_eq_ok.1 h with ⟨v, -, h⟩
        rcases Run.bind_eq_ok.1 h with ⟨again, -, h⟩
        have hnone := Except.ok.inj h
        rw [NodeType.name?, Option.or_some] at hnone
        cases hnone

/-- What is read from a source for the head of its node. -/
theorem of_readHead {head : Head} {found : NodeType}
    (h : (d.readHead source found).outcome = .ok head) :
    (head.type = .undefined → found = .undefined) ∧
      (d.nodeType source found.name?).outcome = .ok head.type.name? ∧
      (label source (d.effectiveFields found.name?) found.name? head.type.name?).outcome =
        .ok head.label ∧
      (d.icon source (d.effectiveFields found.name?) found.name? head.type.name?).outcome =
        .ok head.icon ∧
      ∃ v, ((d.effectiveFields found.name?).contentLines.run source).outcome = .ok v ∧
        contentLinesOf v = head.contentLines := by
  simp only [readHead, Run.bind_eq_ok] at h
  rcases h with ⟨type, htype, label, hlabel, icon, hicon, lines, hlines, location, -, extra, -, h⟩
  cases h
  obtain ⟨hname, hundefined⟩ := renamed_of_nodeType htype
  simp only [hname]
  exact ⟨hundefined, htype, hlabel, hicon, lines, Outcome.inContext_eq_ok.1 hlines, rfl⟩

theorem eq_of_label {fields : Fields} {type t : Option Text} {v : Value}
    (h : (label source fields base type).outcome = .ok t)
    (hv : (fields.label.run source).outcome = .ok v) (hnull : v.isNull = true) :
    t = some (type.getD (units "Unknown")) := by
  rcases Run.bind_eq_ok.1 h with ⟨w, hw, h⟩
  obtain rfl : v = w := Except.ok.inj (hv.symm.trans (Outcome.inContext_eq_ok.1 hw))
  rw [hnull] at h
  exact (Except.ok.inj h).symm

section Validator

variable [Validator] [LawfulValidator]

/-- The icon that is given in a field, or else that of the type. -/
theorem of_icon (hd : Invariant d) {fields : Fields} {type : Option Text} {i : Icon}
    (h : (d.icon source fields base type).outcome = .ok i) :
    i.IsShown ∨ ∃ v, (fields.icon.run source).outcome = .ok v ∧ Node.LacksIcon d type v i := by
  rcases Run.bind_eq_ok.1 h with ⟨v, hv, h⟩
  have hrun : (fields.icon.run source).outcome = .ok v := Outcome.inContext_eq_ok.1 hv
  have hresolve : ∀ {j}, Icon.resolve type d.icons d.iconPacks = .ok j →
      j.IsShown ∨ Node.LacksIcon d type v j := by
    intro j hj
    have hpacks : ∀ p ∈ d.iconPacks, p.HasSymbols := fun p hp =>
      IconPack.hasSymbols_of_safeParse (hd.iconPacks p hp)
    rcases Icon.of_resolve hpacks hd.iconNames hj with hshown | ⟨name, rfl, htype, hname⟩
    · exact .inl hshown
    · exact .inr (.underInherited htype hname)
  have hlacks : i.IsShown ∨ Node.LacksIcon d type v i := by
    split at h
    · exact hresolve h
    · exact hresolve h
    · exact hresolve h
    · next hundefined hnull hempty =>
      rcases Outcome.map_eq_ok.1 h with ⟨_ | t, ho, rfl⟩
      · exact .inr (.leftOut (Value.toText?_eq_none ho))
      · by_cases ht : t = []
        · subst ht
          rcases Value.toText?_eq_nil ho with habsent | rfl | ⟨hobject, hspelled, -⟩
          · cases v with
            | undefined => exact absurd rfl hundefined
            | null => exact absurd rfl hnull
            | _ => cases habsent
          · exact absurd rfl hempty
          · have hpresent : v.isNull = false := by
              cases v with
              | undefined | null => cases hobject
              | _ => rfl
            exact .inr (.spelledEmpty hobject
              (fun hinert => Value.toText?_ne_nil hinert hpresent hempty ho) hspelled)
        · exact .inl ⟨t, rfl, ht⟩
  exact hlacks.imp_right fun hicon => ⟨v, hrun, hicon⟩

/-- A node of a reachable definition, as it is made of its source. -/
theorem isProper_of_convertWithin (hd : Reachable d)
    (h : (d.convertWithin limit source).outcome = .ok (some n)) :
    ∃ base, (d.baseType source).outcome = .ok base ∧ n.IsProper d source base := by
  rcases readHead_of_convertWithin h with ⟨found, hfound, hhead⟩
  rcases of_readHead hhead with ⟨hundefined, htype, hlabel, hicon, lines, -, hlines⟩
  have hname := ne_nil_of_nodeType (ne_nil_of_foundType hfound) htype
  exact ⟨found.name?, baseType_of_foundType hfound, {
    type := fun hnil => hname (hnil ▸ rfl)
    typeUndefined := fun hnone => by
      obtain rfl := hundefined hnone
      rcases Run.bind_eq_ok.1 hfound with ⟨v, hv, hleftOut⟩
      exact ⟨v, Outcome.inContext_eq_ok.1 hv, isLeftOut_of_nodeTypeOf hleftOut⟩
    label := fun v => eq_of_label hlabel
    icon := of_icon hd.invariant hicon
    contentLines := hlines ▸ isAtLeastZero_contentLinesOf lines
    extra := by
      cases n
      exact ⟨_, rfl⟩ }⟩

/-- Every node of a tree that a reachable definition makes is the node of a source that the
conversion comes upon, and as such it has a type that is null or not empty, an icon that is not
empty, at least zero content lines, a mapping of extra data, and its type for a label where none is
given. The type has one exception, a type field with a map that JSON leaves out, and the icon has
three: a type under the name of an inherited function that the table of icons lists with an entry
which leads to no symbol, an icon field with a map that JSON leaves out, and one with an object that
something in it spells out by nothing. -/
theorem isProper_of_contains (hd : Reachable d)
    (h : (d.convertWithin limit source).outcome = .ok (some n)) (hm : n.Contains m) :
    ∃ s ∈ d.visitedWithin limit source, ∃ room base,
      (d.convertWithin room s).outcome = .ok (some m) ∧ (d.baseType s).outcome = .ok base ∧
        m.IsProper d s base := by
  obtain ⟨s, hs, room, hroom⟩ := exists_source_of_contains h hm
  obtain ⟨base, hbase, hproper⟩ := isProper_of_convertWithin hd hroom
  exact ⟨s, hs, room, base, hroom, hbase, hproper⟩

end Validator

end Host

open scoped SampleHost StandardValidator

/-- The text below a list, by the default definition. -/
theorem isProper_text_of_list :
    ∃ n m s room base, Reachable default ∧
      (default.convert (plainSource "list" [plainSource "text" []])).outcome = .ok (some n) ∧
      n.Contains m ∧ m = plainNode "text" "◦" [] ∧
      (default.convertWithin room s).outcome = .ok (some m) ∧ m.IsProper default s base := by
  have hconvert : (default.convert (plainSource "list" [plainSource "text" []])).outcome =
    .ok (some (plainNode "list" "☰" [plainNode "text" "◦" []])) := rfl
  have hcontains : (plainNode "list" "☰" [plainNode "text" "◦" []]).Contains
    (plainNode "text" "◦" []) := .inside List.mem_cons_self (.root _)
  obtain ⟨s, -, room, base, hroom, -, hproper⟩ :=
    isProper_of_contains .default hconvert hcontains
  exact ⟨_, _, s, room, base, .default, hconvert, hcontains, rfl, hroom, hproper⟩

/-- A definition that lists a type `constructor` with an empty entry gives it the inherited function
of this name for an icon. -/
theorem not_forall_isShown :
    ¬∀ (d : Definition) (source : Value) (n m : Node), Reachable d → source.isWellFormed = true →
      (d.convert source).outcome = .ok (some n) → n.Contains m → m.head.icon.IsShown := by
  intro h
  have hmerge : default.merge (.mapping [(Outline.iconsKey,
      .mapping [(units "constructor", .text [])])]) = .ok { default with
        icons := Icon.baseline ++ [(units "constructor", [])] } := rfl
  have hreachable := Reachable.merge .default (by decide) hmerge
  obtain ⟨t, ht, -⟩ := h _ (.mapping [(units "type", .ofString "constructor")]) _ _ hreachable
    (by decide) rfl (.root _)
  cases ht

end Definition

end TreeExtraction
