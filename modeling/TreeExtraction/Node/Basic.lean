import TreeExtraction.Icon.Resolution
import TreeExtraction.Value.Rendering

/-! # Nodes

The tree that a source is turned into. Each node has a label, possibly a type, an icon, a count of
content lines, a source location, extra data and children. The label is missing where its field
holds a map that has no text, and a type that is asked of such a map is undefined.
-/

namespace TreeExtraction

inductive NodeType where
  | named (name : Text)
  | null
  | undefined

namespace NodeType

def name? : NodeType → Option Text
  | .named name => some name
  | _ => none

/-- The type of a name, if there is one, or else the type that was there before. -/
def renamed (before : NodeType) (name : Option Text) : NodeType :=
  (name.map .named).getD before

def value : NodeType → Value
  | .named name => .text name
  | .null => .null
  | .undefined => .undefined

end NodeType

inductive Node where
  | node (label : Option Text) (type : NodeType) (icon : Icon) (contentLines : Number)
    (sourceLocation : Value) (extra : Entries) (children : List Node)

namespace Node

mutual

def value : Node → Value
  | .node label type icon contentLines sourceLocation extra children =>
    .mapping [(units "label", .textOrUndefined label),
      (units "type", type.value), (units "icon", icon.value),
      (units "contentLines", .number contentLines),
      (units "sourceLocation", sourceLocation), (units "extra", .mapping extra),
      (units "children", .list (values children))]

def values : List Node → List Value
  | [] => []
  | n :: ns => value n :: values ns

end

end Node

end TreeExtraction
