import TreeExtraction.Icon.Pack

/-! # Baseline icons

The base pack, the table of its symbols and the symbol of an unknown type.
-/

namespace TreeExtraction.Icon

def named (name symbol : String) (aliases : List String) : Text × IconEntry :=
  (units name, ⟨units symbol, aliases.map units⟩)

def basePack : IconPack where
  name := units "base"
  icons := [
    named "document" "⧉" ["root", "doc"],
    named "session" "§" ["section"],
    named "heading" "⊤" ["header", "title"],
    named "paragraph" "¶" ["para", "p"],
    named "list" "☰" ["ul", "ol"],
    named "listItem" "•" ["li", "item"],
    named "verbatim" "𝒱" ["code", "codeBlock", "pre"],
    named "definition" "≔" [],
    named "text" "◦" [],
    named "textLine" "↵" ["line"],
    named "emphasis" "𝐼" ["em", "italic"],
    named "strong" "𝐁" ["bold"],
    named "inlineCode" "ƒ" ["codespan"],
    named "contentContainer" "⊡" ["container", "block"],
    named "dict" "\x7b\x7d" ["object", "map"],
    named "array" "[]" ["sequence"],
    named "str" "\"" ["string"],
    named "int" "#" ["integer"],
    named "float" "#" ["number"],
    named "bool" "?" ["boolean"],
    named "NoneType" "∅" ["null"],
    named "unknown" "?" []]

/-- The symbols of the base pack by name, the table that every definition starts from. -/
def baseline : Table Text :=
  basePack.icons.map fun (name, e) => (name, e.symbol)

def unknownName : Text := units "unknown"

def unknownSymbol : Text := units "?"

end TreeExtraction.Icon
