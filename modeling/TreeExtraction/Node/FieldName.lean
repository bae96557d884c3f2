import TreeExtraction.Text.Basic

/-! # Fields of a node

The seven fields that are extracted for each node. Every field has two spellings: one in error
contexts and views, one as a key of a serialized definition.
-/

namespace TreeExtraction

/-- The fields of a node, in the order in which they are read from a serialized definition. -/
inductive FieldName where
  | label
  | type
  | children
  | icon
  | contentLines
  | sourceLocation
  | extra
  deriving DecidableEq

namespace FieldName

def all : List FieldName :=
  [.label, .type, .children, .icon, .contentLines, .sourceLocation, .extra]

def text : FieldName → Text
  | .label => units "label"
  | .type => units "type"
  | .children => units "children"
  | .icon => units "icon"
  | .contentLines => units "contentLines"
  | .sourceLocation => units "sourceLocation"
  | .extra => units "extra"

def key : FieldName → Text
  | .contentLines => units "content_lines"
  | .sourceLocation => units "source_location"
  | f => f.text

end FieldName

end TreeExtraction
