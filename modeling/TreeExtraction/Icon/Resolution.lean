import TreeExtraction.Icon.Baseline
import TreeExtraction.Value.Inherited

/-! # Icon resolution

The icon of a node type is looked up in a table of symbols and references `pack.icon`, then in the
default pack, which the entry under the empty name or the star names, then in the base pack and
last in the baseline table. Packs are searched by icon name and then by alias. Look-ups in tables
also find their inherited entries: an icon name that is inherited ends the search of a pack, an
inherited reference is an error, and one in the baseline table is the result.
-/

namespace TreeExtraction

/-- The icon of a node: a symbol, what the baseline table inherits, or none, as where the icon field
holds a map that has no text. -/
inductive Icon where
  | symbol (t : Text)
  | inherited (i : Inherited)
  | missing

def Icon.value : Icon → Value
  | .symbol t => .text t
  | .inherited i => i.value
  | .missing => .undefined

namespace Icon

def ofText? : Option Text → Icon
  | some t => .symbol t
  | none => .missing

/-- The symbol of a name in a pack, found by icon name or by alias. -/
def inPack? (name : Text) (p : IconPack) : Option Text :=
  match Table.lookUp p.icons name with
  | .own e => some e.symbol
  | .inherited _ => none
  | .absent => (p.icons.find? fun e => e.2.aliases.contains name).map (·.2.symbol)

/-- The pack of a name; the name of the base pack always means the base pack. -/
def findPack (name : Text) (packs : List IconPack) : Option IconPack :=
  if name == basePack.name then some basePack else packs.find? fun p => p.name == name

def filled? (icons : Table Text) (name : Text) : Option Text :=
  (Table.get? icons name).filter fun t => !t.isEmpty

def defaultPack (icons : Table Text) (packs : List IconPack) : Option IconPack :=
  ((filled? icons []).or (filled? icons [unit '*'])).bind fun name => findPack name packs

/-- The symbol of an icon name in the first of some packs that has the name or inherits it. -/
def inPacks? (name : Text) : List IconPack → Option Text
  | [] => none
  | p :: ps =>
    match Table.lookUp p.icons name with
    | .own e => some e.symbol
    | .inherited _ => none
    | .absent => inPacks? name ps

/-- The symbol of a reference: its pack, the default pack and the base pack are searched. -/
def followReference (reference : Text) (icons : Table Text) (packs : List IconPack) :
    Option Text :=
  let packName := reference.takeWhile (· != unit '.')
  let iconName := reference.drop (packName.length + 1)
  inPacks? iconName
    ((findPack packName packs).toList ++ (defaultPack icons packs).toList ++ [basePack])

/-- The symbol that the table gives for a type, directly or by reference. -/
def direct? (nodeType : Text) (icons : Table Text) (packs : List IconPack) :
    Except Failure (Option Text) :=
  match Table.lookUp icons nodeType with
  | .own [] => .ok none
  | .own reference =>
    if reference.any (· == unit '.') then .ok (followReference reference icons packs)
    else .ok (some reference)
  | .inherited _ => .error .unsupported
  | .absent => .ok none

/-- The icon that the default pack, the base pack and the baseline table give for a type. -/
def fallback (nodeType : Text) (icons : Table Text) (packs : List IconPack) : Icon :=
  match ((defaultPack icons packs).bind (inPack? nodeType)).or (inPack? nodeType basePack) with
  | some t => .symbol t
  | none =>
    match Table.lookUp baseline nodeType with
    | .own t => .symbol t
    | .inherited i => .inherited i
    | .absent => .symbol unknownSymbol

def resolve (nodeType : Option Text) (icons : Table Text) (packs : List IconPack) :
    Except Failure Icon :=
  match nodeType.getD [] with
  | [] => .ok (.symbol ((filled? icons unknownName).getD unknownSymbol))
  | t => do
    match ← direct? t icons packs with
    | some found => return .symbol found
    | none => return fallback t icons packs

end Icon

end TreeExtraction
