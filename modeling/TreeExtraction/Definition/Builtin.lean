import TreeExtraction.Value.Basic
import TreeExtraction.Number.Rounding

/-! # Built-in definitions

Serialized definitions for syntax trees with the fields `type`, `children` and `value`: a plain one,
and one for documents that knows their node types.
-/

namespace TreeExtraction.Builtin

def entry (key : String) (v : Value) : Text × Value :=
  (units key, v)

def textEntry (key text : String) : Text × Value :=
  (units key, .ofString text)

def textArray (ts : List String) : Value :=
  .list (ts.map .ofString)

def number (n : Nat) : Value :=
  .number (.ofNat n)

def truncation (length : Nat) : Value :=
  .mapping [textEntry "name" "truncate", entry "max_length" (number length)]

def labelled (type : String) (label : Entries) : Text × Value :=
  entry type (.mapping [entry "label" (.mapping label)])

def plain : Value :=
  .mapping [
    entry "label" (.mapping [textEntry "path" "value", textEntry "fallback" "type"]),
    textEntry "type" "type",
    textEntry "children" "children",
    textEntry "source_location" "position",
    textEntry "extra" "data"]

def documentIcons : Entries := [
  textEntry "root" "⧉",
  textEntry "blockquote" "❝",
  textEntry "code" "𝒱",
  textEntry "thematicBreak" "—",
  textEntry "link" "↗",
  textEntry "image" "▣",
  textEntry "break" "↵"]

def documentOverrides : Entries := [
  labelled "root" [textEntry "default" "Document"],
  labelled "heading" [textEntry "path" "children[0].value", textEntry "default" "Heading"],
  labelled "list" [textEntry "default" "List"],
  labelled "link" [textEntry "path" "url"],
  labelled "image" [textEntry "path" "alt", textEntry "fallback" "url"],
  labelled "code" [textEntry "path" "value", entry "transform" (truncation 40)]]

def documentEntries : Entries := [
  entry "label" (.mapping [textEntry "path" "value", textEntry "fallback" "type",
    entry "transform" (truncation 60)]),
  textEntry "type" "type",
  textEntry "children" "children",
  textEntry "source_location" "position",
  textEntry "extra" "data",
  entry "icons" (.mapping documentIcons),
  entry "type_overrides" (.mapping documentOverrides),
  entry "ignore_types" (textArray ["yaml", "definition"])]

def document : Value :=
  .mapping documentEntries

def all : Table Value :=
  [entry "mdast" document, entry "unist" plain]

end TreeExtraction.Builtin
