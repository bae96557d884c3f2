import TreeExtraction.Definition.Selector
import TreeExtraction.Icon.Baseline

/-! # Definitions

A definition says how the fields of a node are extracted, for every node and by way of overrides
for nodes of a given type, which icons types have and which types are ignored. Definitions are
values: merging yields a new one.
-/

namespace TreeExtraction

structure Fields where
  label : Spec
  type : Spec
  children : Selector
  icon : Spec
  contentLines : Spec
  sourceLocation : Spec
  extra : Spec

structure Overrides where
  label : Option Spec := none
  type : Option Spec := none
  children : Option Selector := none
  icon : Option Spec := none
  contentLines : Option Spec := none
  sourceLocation : Option Spec := none
  extra : Option Spec := none

def Fields.overlay (base : Fields) (o : Overrides) : Fields where
  label := o.label.getD base.label
  type := o.type.getD base.type
  children := o.children.getD base.children
  icon := o.icon.getD base.icon
  contentLines := o.contentLines.getD base.contentLines
  sourceLocation := o.sourceLocation.getD base.sourceLocation
  extra := o.extra.getD base.extra

def Fields.all (f : Fields) : Overrides where
  label := some f.label
  type := some f.type
  children := some f.children
  icon := some f.icon
  contentLines := some f.contentLines
  sourceLocation := some f.sourceLocation
  extra := some f.extra

/-- How source values are read as nodes. -/
structure Definition where
  fields : Fields
  icons : Table Text
  iconPacks : List IconPack
  typeOverrides : Table Overrides
  ignoreTypes : List Text

namespace Definition

/-- The definition that reads label, type and children by these names, counts one line for each
node and has neither icons of its own nor locations nor extra data. -/
def default : Definition where
  fields := {
    label := .path (units "label")
    type := .path (units "type")
    children := .listed (.path (units "children"))
    icon := .literal .null
    contentLines := .literal (.number (.ofNat 1))
    sourceLocation := .literal .null
    extra := .literal (.mapping []) }
  icons := Icon.baseline
  iconPacks := []
  typeOverrides := []
  ignoreTypes := []

def isIgnored (d : Definition) (nodeType : Option Text) : Bool :=
  nodeType.any d.ignoreTypes.contains

def overridesFor (d : Definition) (nodeType : Option Text) : Option Overrides :=
  nodeType.bind (Table.get? d.typeOverrides)

def effectiveFields (d : Definition) (nodeType : Option Text) : Fields :=
  d.fields.overlay ((d.overridesFor nodeType).getD {})

end Definition

end TreeExtraction
