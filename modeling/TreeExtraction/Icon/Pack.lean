import TreeExtraction.Schema.Validator
import TreeExtraction.Text.Table

/-! # Icon packs

An icon pack has a name and a table of icons, each with a symbol and aliases. Names of packs and
icons are identifiers, and symbols are not empty.
-/

namespace TreeExtraction

structure IconEntry where
  symbol : Text
  aliases : List Text
  deriving DecidableEq

structure IconPack where
  name : Text
  icons : Table IconEntry
  deriving DecidableEq

namespace IconPack

def symbolKey : Text := units "icon"

def aliasesKey : Text := units "aliases"

def nameKey : Text := units "name"

def iconsKey : Text := units "icons"

section

variable [Validator]

open Validator

/-- A text that is an identifier; `subject` names it in the issue. -/
def identifier (subject : String) : Schema Text :=
  matching Text.isIdentifier (units subject ++ units " must be an identifier") text

def entrySchema : Schema IconEntry :=
  object (.entry symbolKey (minLength 1 text)
    (.entry aliasesKey (withDefault [] (array text))
      (.done fun aliases symbol => ⟨symbol, aliases⟩)))

def schema : Schema IconPack :=
  object (.entry nameKey (identifier "Icon pack name")
    (.entry iconsKey (record (identifier "Icon name") entrySchema)
      (.done fun icons name => ⟨name, icons⟩)))

def compile (raw : Value) : Except Failure IconPack :=
  (safeParse schema raw).mapError fun issues => .spec (.iconPack issues)

end

def serializeEntry (e : IconEntry) : Value :=
  .mapping [(symbolKey, .text e.symbol), (aliasesKey, .list (e.aliases.map .text))]

def serialize (p : IconPack) : Value :=
  .mapping [(nameKey, .text p.name),
    (iconsKey, .mapping (p.icons.map fun (name, e) => (name, serializeEntry e)))]

end IconPack

end TreeExtraction
