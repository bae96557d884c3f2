import TreeExtraction.Definition.Basic

/-! # Serialized definitions

A serialized definition is a mapping of field specifications, icons, icon packs, type overrides and
ignored types, each of which may be missing. It is read over an existing definition: fields, packs
and ignored types replace the old ones, icons are merged entry by entry, overrides type by type.
-/

namespace TreeExtraction

/-- Field specifications that have not been read, undefined where they are missing. -/
abbrev RawFields := FieldName → Value

/-- A serialized definition whose outline has been checked. -/
structure Outline where
  fields : RawFields
  icons : Option (Table Text)
  iconPacks : Option (List IconPack)
  typeOverrides : Option (Table RawFields)
  ignoreTypes : Option (List Text)

namespace Outline

def iconsKey : Text := units "icons"

def iconPacksKey : Text := units "icon_packs"

def typeOverridesKey : Text := units "type_overrides"

def ignoreTypesKey : Text := units "ignore_types"

section

variable [Validator]

open Validator

/-- Field specifications, any values, under the keys of some fields. -/
def rawFields : List FieldName → Shape Schema RawFields
  | [] => .done fun _ => .undefined
  | f :: fs =>
    .entry f.key (optional unknown) ((rawFields fs).map fun raw v g =>
      if g = f then v.getD .undefined else raw g)

def fieldShape : Shape Schema RawFields :=
  rawFields FieldName.all

def overridesSchema : Schema RawFields :=
  object fieldShape

/-- What a serialized definition holds beside the field specifications. -/
def settingsShape : Shape Schema (RawFields → Outline) :=
  .entry iconsKey (optional (record text text))
    (.entry iconPacksKey (optional (array IconPack.schema))
      (.entry typeOverridesKey (optional (record text overridesSchema))
        (.entry ignoreTypesKey (optional (array text))
          (.done fun ignoreTypes typeOverrides iconPacks icons fields =>
            { fields, icons, iconPacks, typeOverrides, ignoreTypes }))))

def schema : Schema Outline :=
  object ((fieldShape.both settingsShape).map fun (fields, outline) => outline fields)

end

end Outline

namespace Definition

/-- The context in which a field specification is read or written. -/
def fieldContext (f : FieldName) (nodeType : Option Text) : Context :=
  { field := some f.text, nodeType }

def compileField {α : Type} (compile : Value → Except Failure α) (raw : RawFields)
    (nodeType : Option Text) (f : FieldName) : Except Failure (Option α) :=
  match raw f with
  | .undefined => .ok none
  | v => inContext (fieldContext f nodeType) (some <$> compile v)

section

variable [PureHost] [Validator]

def compileFields (raw : RawFields) (nodeType : Option Text) : Except Failure Overrides := do
  let label ← compileField Spec.compile raw nodeType .label
  let type ← compileField Spec.compile raw nodeType .type
  let children ← compileField Selector.compile raw nodeType .children
  let icon ← compileField Spec.compile raw nodeType .icon
  let contentLines ← compileField Spec.compile raw nodeType .contentLines
  let sourceLocation ← compileField Spec.compile raw nodeType .sourceLocation
  let extra ← compileField Spec.compile raw nodeType .extra
  return { label, type, children, icon, contentLines, sourceLocation, extra }

def compileOverrides : Table RawFields → Except Failure (Table Overrides)
  | [] => .ok []
  | (nodeType, raw) :: rest => do
    let first ← compileFields raw (some nodeType)
    let others ← compileOverrides rest
    return (nodeType, first) :: others

end

/-- The texts of a list without repetitions, each at its first place. -/
def distinct (ts : List Text) : List Text :=
  (ts.foldl (fun seen t => if seen.contains t then seen else t :: seen) []).reverse

section

variable [PureHost] [Validator]

/-- The definition with a checked outline applied on top. Packs are read once more. -/
def mergeOutline (d : Definition) (o : Outline) : Except Failure Definition := do
  let fields ← compileFields o.fields none
  let overrides ← compileOverrides (o.typeOverrides.getD [])
  let packs ← o.iconPacks.mapM fun packs => packs.mapM fun p => IconPack.compile p.serialize
  return {
    fields := d.fields.overlay fields
    icons := Table.merge d.icons (o.icons.getD [])
    iconPacks := packs.getD d.iconPacks
    typeOverrides := overrides.foldl (fun m e => Table.insert m e.1 e.2) d.typeOverrides
    ignoreTypes := (o.ignoreTypes.map distinct).getD d.ignoreTypes }

/-- The definition with a serialized one applied on top. -/
def merge (d : Definition) (raw : Value) : Except Failure Definition :=
  match Validator.safeParse Outline.schema raw with
  | .ok o => d.mergeOutline o
  | .error issues => .error (.spec (.definition issues))

def compile (raw : Value) : Except Failure Definition :=
  default.merge raw

def require (raw : Value) : Except Failure Definition :=
  if raw.isNull then .error (.spec .noDefinition) else compile raw

end

def serializeField {α : Type} (serialize : α → Except Failure Value) (spec : Option α)
    (nodeType : Option Text) (f : FieldName) : Except Failure Entries :=
  match spec with
  | some s => inContext (fieldContext f nodeType) ((fun v => [(f.key, v)]) <$> serialize s)
  | none => .ok []

def serializeFields (o : Overrides) (nodeType : Option Text) : Except Failure Entries := do
  let label ← serializeField Spec.serialize o.label nodeType .label
  let type ← serializeField Spec.serialize o.type nodeType .type
  let children ← serializeField Selector.serialize o.children nodeType .children
  let icon ← serializeField Spec.serialize o.icon nodeType .icon
  let contentLines ← serializeField Spec.serialize o.contentLines nodeType .contentLines
  let sourceLocation ← serializeField Spec.serialize o.sourceLocation nodeType .sourceLocation
  let extra ← serializeField Spec.serialize o.extra nodeType .extra
  return label ++ type ++ children ++ icon ++ contentLines ++ sourceLocation ++ extra

def serializeOverrides : Table Overrides → Except Failure Entries
  | [] => .ok []
  | (nodeType, o) :: rest => do
    let first ← serializeFields o (some nodeType)
    let others ← serializeOverrides rest
    return (nodeType, .mapping first) :: others

def serialize (d : Definition) : Except Failure Value := do
  let fields ← serializeFields d.fields.all none
  let overrides ← serializeOverrides d.typeOverrides
  return .mapping (fields ++ [
    (Outline.iconsKey, .mapping (d.icons.map fun (name, t) => (name, .text t))),
    (Outline.iconPacksKey, .list (d.iconPacks.map IconPack.serialize)),
    (Outline.typeOverridesKey, .mapping (Table.ofList overrides)),
    (Outline.ignoreTypesKey, .list (d.ignoreTypes.map .text))])

end Definition

end TreeExtraction
