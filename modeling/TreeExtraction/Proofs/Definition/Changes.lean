import TreeExtraction.Proofs.Definition.Reachable
import TreeExtraction.Proofs.Text.Lookup

/-! # Changes to definitions

Merging a serialized definition is reading the changes that it asks for, which has nothing to do
with the definition they are for, and applying them. Changes are applied one after the other by
applying them together. Definitions that the same is looked up in are equivalent, whatever the order
of their tables.
-/

namespace TreeExtraction

/-! ## Equivalent definitions -/

/-- Whether two definitions have the same fields, icon packs and ignored types, and the same icons
and overrides under the same names. -/
structure Definition.Equivalent (d e : Definition) : Prop where
  fields : d.fields = e.fields
  icons : ∀ name, Table.get? d.icons name = Table.get? e.icons name
  iconPacks : d.iconPacks = e.iconPacks
  typeOverrides : ∀ nodeType,
    Table.get? d.typeOverrides nodeType = Table.get? e.typeOverrides nodeType
  ignoreTypes : ∀ nodeType, nodeType ∈ d.ignoreTypes ↔ nodeType ∈ e.ignoreTypes

/-! ## Layers of overrides -/

/-- Overrides with others on top of them. -/
def Overrides.andThen (o p : Overrides) : Overrides where
  label := p.label.or o.label
  type := p.type.or o.type
  children := p.children.or o.children
  icon := p.icon.or o.icon
  contentLines := p.contentLines.or o.contentLines
  sourceLocation := p.sourceLocation.or o.sourceLocation
  extra := p.extra.or o.extra

theorem Fields.overlay_overlay (f : Fields) (o p : Overrides) :
    (f.overlay o).overlay p = f.overlay (o.andThen p) := by
  simp [overlay, Overrides.andThen, Option.getD_or]

/-- What a serialized definition changes. -/
structure Changes where
  fields : Overrides
  icons : Table Text
  iconPacks : Option (List IconPack)
  typeOverrides : Table Overrides
  ignoreTypes : Option (List Text)

namespace Changes

open Definition (compileFields compileOverrides distinct)

/-- Reads the changes that a serialized definition asks for. -/
def read [PureHost] [Validator] (raw : Value) : Except Failure Changes :=
  match Validator.safeParse Outline.schema raw with
  | .ok o => do
    let fields ← compileFields o.fields none
    let typeOverrides ← compileOverrides (o.typeOverrides.getD [])
    let iconPacks ← o.iconPacks.mapM fun packs => packs.mapM fun p => IconPack.compile p.serialize
    return {
      fields
      icons := o.icons.getD []
      iconPacks
      typeOverrides
      ignoreTypes := o.ignoreTypes }
  | .error issues => .error (.spec (.definition issues))

/-- The definition with changes applied to it. -/
def apply (c : Changes) (d : Definition) : Definition where
  fields := d.fields.overlay c.fields
  icons := Table.merge d.icons c.icons
  iconPacks := c.iconPacks.getD d.iconPacks
  typeOverrides := c.typeOverrides.foldl (fun m e => Table.insert m e.1 e.2) d.typeOverrides
  ignoreTypes := (c.ignoreTypes.map distinct).getD d.ignoreTypes

/-- Changes with others after them. -/
def andThen (a b : Changes) : Changes where
  fields := a.fields.andThen b.fields
  icons := a.icons ++ b.icons
  iconPacks := b.iconPacks.or a.iconPacks
  typeOverrides := a.typeOverrides ++ b.typeOverrides
  ignoreTypes := b.ignoreTypes.or a.ignoreTypes

/-- Whether two changes do the same to every definition, but for the order of its tables. -/
structure Agree (a b : Changes) : Prop where
  fields : a.fields = b.fields
  icons : ∀ name, Table.last? a.icons name = Table.last? b.icons name
  iconPacks : a.iconPacks = b.iconPacks
  typeOverrides : ∀ nodeType,
    Table.last? a.typeOverrides nodeType = Table.last? b.typeOverrides nodeType
  ignoreTypes : a.ignoreTypes = b.ignoreTypes

variable {a b c : Changes} {d : Definition} {raw : Value}

theorem apply_andThen (a b : Changes) (d : Definition) :
    (a.andThen b).apply d = b.apply (a.apply d) := by
  simp only [apply, andThen, Fields.overlay_overlay, Table.merge_append, List.foldl_append,
    Option.getD_or, Option.map_or]

theorem Agree.apply (h : Agree a b) (d : Definition) : (a.apply d).Equivalent (b.apply d) where
  fields := by simp only [Changes.apply, h.fields]
  icons name := by simp only [Changes.apply, Table.get?_merge, h.icons]
  iconPacks := by simp only [Changes.apply, h.iconPacks]
  typeOverrides nodeType := by
    simp only [Changes.apply, Table.get?_foldl_insert, h.typeOverrides]
  ignoreTypes nodeType := by simp only [Changes.apply, h.ignoreTypes]

/-- Applying changes twice is applying them once. -/
theorem agree_andThen_self (c : Changes) : (c.andThen c).Agree c where
  fields := by simp [andThen, Overrides.andThen]
  icons name := by rw [andThen, Table.last?_append, Option.or_self]
  iconPacks := by simp [andThen]
  typeOverrides nodeType := by rw [andThen, Table.last?_append, Option.or_self]
  ignoreTypes := by simp [andThen]

variable [PureHost] [Validator]

/-- Merging is reading changes and applying them. -/
theorem merge_eq (d : Definition) (raw : Value) :
    d.merge raw = (fun c => apply c d) <$> read raw := by
  rw [Definition.merge, read]
  cases Validator.safeParse Outline.schema raw with
  | error issues => rfl
  | ok o =>
    simp only [Definition.mergeOutline]
    cases compileFields o.fields none with
    | error f => rfl
    | ok fields =>
      cases compileOverrides (o.typeOverrides.getD []) with
      | error f => rfl
      | ok overrides =>
        cases o.iconPacks.mapM fun packs => packs.mapM fun p => IconPack.compile p.serialize <;> rfl

theorem merge_eq_ok {d' : Definition} :
    d.merge raw = .ok d' ↔ ∃ c, read raw = .ok c ∧ c.apply d = d' := by
  rw [merge_eq, Outcome.map_eq_ok]

theorem read_eq_ok [LawfulValidator] :
    read raw = .ok c ↔ ∃ o, Validator.safeParse Outline.schema raw = .ok o ∧
      compileFields o.fields none = .ok c.fields ∧
      compileOverrides (o.typeOverrides.getD []) = .ok c.typeOverrides ∧
      o.icons.getD [] = c.icons ∧ o.iconPacks = c.iconPacks ∧ o.ignoreTypes = c.ignoreTypes := by
  rw [read]
  cases hread : Validator.safeParse Outline.schema raw with
  | error issues => simp
  | ok o =>
    simp only [Definition.mapM_iconPacks hread, Outcome.bind_eq_ok, Outcome.ok_bind]
    constructor
    · rintro ⟨fields, hfields, overrides, hoverrides, h⟩
      cases h
      exact ⟨o, rfl, hfields, hoverrides, rfl, rfl, rfl⟩
    · rintro ⟨_, ⟨⟩, hfields, hoverrides, hicons, hpacks, hignored⟩
      refine ⟨_, hfields, _, hoverrides, ?_⟩
      rw [hicons, hpacks, hignored]
      rfl

end Changes

end TreeExtraction
