import TreeExtraction.Definition.Library
import TreeExtraction.Extraction.Pipeline
import TreeExtraction.Node.Basic
import TreeExtraction.Transform.Conversion
import TreeExtraction.Value.Depth

/-! # Conversion of source trees

A definition turns a source value into a node: type, label, icon, content lines, location and extra
data are extracted in this order, then the children are selected and converted one by one. Nodes of
ignored types are left out with everything below them. Errors name the field and the base type of
the node at which they arise.

Children need not be parts of the source, so a definition can describe an endless tree. Conversion
is bounded by a depth beyond that of the source and fails when it is exceeded.
-/

namespace TreeExtraction

def nodeTypeOf [PureHost] (v : Value) : Except Failure NodeType := do
  match ← v.toText? with
  | none => return .undefined
  | some [] => return .null
  | some t => return .named t

/-- A count of content lines: a finite number without its fraction or an integer text, at least
zero, and one for everything else. -/
def contentLinesOf (v : Value) : Number :=
  match v with
  | .number n => if n.isFinite then n.truncate.clampBelow else .ofNat 1
  | .text t =>
    match Conversion.readInteger (Text.trim t) with
    | some n => n.toNumber.clampBelow
    | none => .ofNat 1
  | _ => .ofNat 1

/-- Extra data: the entries of a mapping, or those of a map under the texts of their keys. -/
def extraOf [PureHost] (v : Value) : Except Failure Entries :=
  match v with
  | .undefined => .ok []
  | .null => .ok []
  | .mapping es _ => .ok es
  | .map es _ => do
    let named ← es.mapM fun (k, v) => do return (← (Value.ofKey k).spelled, v)
    return Table.ofList named
  | _ => .error (.structural (.extra v.kind))

namespace Definition

section

variable [PureHost]

def extractField (source : Value) (f : FieldName) (nodeType : Option Text) (spec : Spec) :
    Run Value :=
  (spec.run source).within (fieldContext f nodeType)

def foundType (d : Definition) (source : Value) : Run NodeType := do
  let v ← extractField source .type none d.fields.type
  .lift (nodeTypeOf v)

/-- The name of the type that is found in a source, by which overrides are looked up. -/
def baseType (d : Definition) (source : Value) : Run (Option Text) := do
  return (← d.foundType source).name?

/-- The name of the type of a node. An override may give a new one; the bare path of an override
that finds nothing is the new type itself. -/
def nodeType (d : Definition) (source : Value) (base : Option Text) : Run (Option Text) :=
  match (d.overridesFor base).bind (·.type) with
  | none => pure base
  | some spec => do
    let v ← extractField source .type base spec
    let found ← .lift (nodeTypeOf v)
    let named :=
      match spec with
      | .path t => if t.isEmpty then none else some t
      | _ => none
    return (found.name?.or named).or base

/-- The label of a node: the text of its field, which may be missing, or its type. -/
def label (source : Value) (fields : Fields) (base type : Option Text) : Run (Option Text) := do
  let v ← extractField source .label base fields.label
  if v.isNull then return some (type.getD (units "Unknown")) else .lift v.toText?

/-- The icon of a node: the text of its field, or the icon of its type. -/
def icon (d : Definition) (source : Value) (fields : Fields) (base type : Option Text) :
    Run Icon := do
  let v ← extractField source .icon base fields.icon
  match v with
  | .undefined => .lift (Icon.resolve type d.icons d.iconPacks)
  | .null => .lift (Icon.resolve type d.icons d.iconPacks)
  | .text [] => .lift (Icon.resolve type d.icons d.iconPacks)
  | _ => .lift (Icon.ofText? <$> v.toText?)

/-- Whether a value is a child by its type: the patterns select the base type that it has. -/
def isCandidate (d : Definition) (included excluded : List Text) (v : Value) : Run Bool :=
  if v.isObjectLike then do
    let found ← d.fields.type.run v
    match ← .lift (nodeTypeOf found) with
    | .named t => .lift (Selector.admits included excluded t)
    | _ => return false
  else return false

def candidates (d : Definition) (included excluded : List Text) : List Value → Run (List Value)
  | [] => pure []
  | v :: vs => do
    let keep ← d.isCandidate included excluded v
    let rest ← d.candidates included excluded vs
    return if keep then v :: rest else rest

/-- The values found in the fields of a source: the items of arrays, at the places that are not
empty, and every other value. -/
def scanned (fields : List (Text × Value)) : List Value :=
  fields.flatMap fun (_, v) =>
    match v with
    | .array vs _ => Value.present vs
    | v => [v]

def childSources (d : Definition) (source : Value) (fields : Fields) (base : Option Text) :
    Run (List Value) :=
  match fields.children with
  | .types included excluded =>
    Run.within (fieldContext .children base) do
      let found ← .lift source.listFields
      d.candidates included excluded (scanned found)
  | .listed spec => do
    let v ← extractField source .children base spec
    match v with
    | .undefined => return []
    | .null => return []
    | .array vs _ => return Value.reading vs
    | _ => .fail (.structural (.children v.kind) (fieldContext .children base))

/-- Runs an operation on each item and keeps what it yields. -/
def collect {α β : Type} (operation : α → Run (Option β)) : List α → Run (List β)
  | [] => pure []
  | a :: as => do
    let first ← operation a
    let rest ← collect operation as
    return first.toList ++ rest

/-- Converts a source whose tree is at most `limit` deep. -/
def convertWithin (d : Definition) : (limit : Nat) → Value → Run (Option Node)
  | 0, _ => .fail .outOfRange
  | limit + 1, source => do
    let found ← d.foundType source
    let base := found.name?
    if d.isIgnored base then return none
    let fields := d.effectiveFields base
    let type ← d.nodeType source base
    let label ← label source fields base type
    let icon ← d.icon source fields base type
    let lines ← extractField source .contentLines base fields.contentLines
    let location ← extractField source .sourceLocation base fields.sourceLocation
    let extra ← Run.within (fieldContext .extra base) do
      let v ← fields.extra.run source
      .lift (extraOf v)
    let sources ← d.childSources source fields base
    let children ← collect (d.convertWithin limit) sources
    return some (.node label (found.renamed type) icon (contentLinesOf lines) location.orNull extra
      children)

/-- How much deeper than its source a tree may be. -/
def depthMargin : Nat := 1024

/-- Converts a source; none if its type is ignored. -/
def convert (d : Definition) (source : Value) : Run (Option Node) :=
  d.convertWithin (source.depth + depthMargin) source

/-- Converts a source whose type must not be ignored. -/
def convertTree (d : Definition) (source : Value) : Run Node := do
  match ← d.convert source with
  | some n => return n
  | none => .fail (.structural .ignoredRoot)

end

end Definition

section

variable [PureHost] [Validator]

def adaptNode (source raw : Value) : Run (Option Node) := do
  let d ← .lift (Definition.require raw)
  d.convert source

/-- The definition that a value asks for: a name of a library, or a serialized definition. -/
def Library.resolve (l : Library) (raw : Value) : Except Failure Definition :=
  match raw with
  | .text name => l.get name
  | v => Definition.require v

/-- Converts a whole tree by a serialized definition or the name of a built-in one; by the default
definition if none is given. -/
def adaptTree (source raw : Value) : Run Node := do
  let d ←
    match raw with
    | .undefined => pure Definition.default
    | v => .lift (Library.withBuiltins.bind (·.resolve v))
  d.convertTree source

end

end TreeExtraction
