import TreeExtraction.Extraction.Stage
import TreeExtraction.Filter.Operator
import TreeExtraction.Schema.Issue
import TreeExtraction.Text.Quoted
import TreeExtraction.Transform.Name

/-! # Causes of errors

Everything that can be wrong with a path, a specification or a value, each cause with the data
that its wording needs. The wordings are in one place each: `PathProblem.message`,
`Mismatch.detail`, `SpecProblem.message` and `StructureProblem.message`.
-/

namespace TreeExtraction

def singleQuoted (t : Text) : Text :=
  unit '\'' :: (t ++ [unit '\''])

def commaList (ts : List Text) : Text :=
  Text.join (units ", ") ts

/-- Why a text is no path, with the position at which this is reported. -/
inductive PathProblem where
  | empty
  | unexpected (found : UInt16) (position : Nat)
  | noIdentifier (found : Option UInt16) (position : Nat)
  | openBracket (position : Nat)
  | noDigit (position : Nat)
  | indexRange (numeral : Text) (position : Nat)
  | openString (position : Nat)
  | emptyKey (position : Nat)
  | noBracket (found : UInt16) (position : Nat)
  deriving DecidableEq

namespace PathProblem

def position : PathProblem → Nat
  | .empty => 0
  | .unexpected _ p => p
  | .noIdentifier _ p => p
  | .openBracket p => p
  | .noDigit p => p
  | .indexRange _ p => p
  | .openString p => p
  | .emptyKey p => p
  | .noBracket _ p => p

def quotedUnit (u : UInt16) : Text :=
  singleQuoted [u]

def message : PathProblem → Text
  | .empty => units "Path expression cannot be empty"
  | .unexpected u p =>
    units "Unexpected character " ++ quotedUnit u ++ units " at position " ++ Text.ofNat p
  | .noIdentifier found p =>
    units "Expected identifier at position " ++ Text.ofNat p ++ units ", got " ++
      match found with
      | some u => quotedUnit u
      | none => units "end of input"
  | .openBracket p => units "Unclosed bracket opened at position " ++ Text.ofNat p
  | .noDigit p => units "Expected digit at position " ++ Text.ofNat p
  | .indexRange t p =>
    units "Invalid index " ++ singleQuoted t ++ units " at position " ++ Text.ofNat p
  | .openString p => units "Unclosed string starting at position " ++ Text.ofNat p
  | .emptyKey p => units "Empty key in bracket at position " ++ Text.ofNat p
  | .noBracket u p =>
    units "Expected ']' at position " ++ Text.ofNat p ++ units ", got " ++ quotedUnit u

end PathProblem

/-- A transform or an operator that met a value of the wrong kind. -/
inductive Mismatch where
  | input (operation expected actual : Text)
  | conversion (name expected valueText actual : Text)
  | fraction (code : UInt16) (number : Text)
  | textCode
  | numberCode (code : UInt16) (actual : Text)
  | substring (operator : Operator) (actual : Text)
  | incomparable (operator : Operator) (actual other : Text)

namespace Mismatch

def operation : Mismatch → Text
  | .input o _ _ => o
  | .conversion name _ _ _ => name
  | .fraction .. => units "format"
  | .textCode => units "format"
  | .numberCode .. => units "format"
  | .substring o _ => o.text
  | .incomparable o _ _ => o.text

def expected : Mismatch → Text
  | .input _ e _ => e
  | .conversion _ e _ _ => e
  | .fraction .. => units "integer"
  | .textCode => units "string"
  | .numberCode .. => units "number"
  | .substring .. => units "string"
  | .incomparable _ _ other => other

def actual : Mismatch → Text
  | .input _ _ a => a
  | .conversion _ _ _ a => a
  | .fraction .. => units "non-integer number"
  | .textCode => units "number"
  | .numberCode _ a => a
  | .substring _ a => a
  | .incomparable _ a _ => a

def detail : Mismatch → Text
  | .input o e a => o ++ units " requires " ++ e ++ units " input, got " ++ a
  | .conversion name _ t a =>
    name ++ units " conversion failed for value " ++ singleQuoted t ++ units " of kind " ++ a
  | .fraction c n =>
    units "format code " ++ singleQuoted [c] ++ units " requires an integer, got " ++ n
  | .textCode => units "format code 's' requires a string, got number"
  | .numberCode c a =>
    units "format code " ++ singleQuoted [c] ++ units " requires a number, got " ++ a
  | .substring o a =>
    o.text ++ units " against a string requires a string value, got " ++ a
  | .incomparable o a b => o.text ++ units " cannot compare " ++ a ++ units " with " ++ b

end Mismatch

inductive Connective where
  | and
  | or
  deriving DecidableEq

def Connective.text : Connective → Text
  | .and => units "and"
  | .or => units "or"

inductive SpecProblem where
  | keyQuotes (key : Text)
  | formatSyntax (specifier : Text)
  | signAlignment (kind : Text)
  | unknownTransform (name : Text)
  | transformKind (kind : Text)
  | transformName
  | transformParameters (name : Text) (issues : List Issue)
  | customTransform
  | listOperand (operator : Operator) (kind : Text)
  | textOperand (operator : Operator) (kind : Text)
  | patternOperand (kind : Text)
  | patternSyntax (pattern : Text)
  | unknownOperator (name : Text)
  | clauseList (connective : Connective) (kind : Text)
  | predicateKind (kind : Text)
  | mapKind (kind : Text)
  | mapKeys (keys : List Text)
  | mapTemplate
  | mapVariable (given : Text)
  | pathKind (stage : Stage) (kind : Text)
  | stageKeys (keys : List Text)
  | callable
  | literalText (text : Text)
  | literalStages
  | definition (issues : List Issue)
  | selector (issues : List Issue)
  | iconPack (issues : List Issue)
  | noDefinition
  | reservedName (name : Text)
  | unknownDefinition (name : Text) (available : List Text)

def SpecProblem.message : SpecProblem → Text
  | .keyQuotes k =>
    units "Key " ++ Text.quoted k ++
      units " contains both quote characters and cannot be written as a path"
  | .formatSyntax s => units "Invalid format specifier " ++ singleQuoted s
  | .signAlignment k => units "'=' alignment is not allowed for " ++ k ++ units " values"
  | .unknownTransform n =>
    units "Unknown transformation " ++ singleQuoted n ++ units ". Available: " ++
      commaList (TransformName.all.map TransformName.text)
  | .transformKind k => units "Invalid transformation specification of kind " ++ k
  | .transformName => units "Transformation mapping must include a 'name' field"
  | .transformParameters n is =>
    units "Invalid parameters for transformation " ++ singleQuoted n ++ units ": " ++
      Issue.describe (units "value") is
  | .customTransform => units "Custom transformation functions cannot be serialized"
  | .listOperand o k =>
    units "Operator " ++ singleQuoted o.text ++
      units " requires an array or string operand, got " ++ k
  | .textOperand o k =>
    units "Operator " ++ singleQuoted o.text ++ units " requires a string operand, got " ++ k
  | .patternOperand k => units "Operator 'matches' requires a pattern string, got " ++ k
  | .patternSyntax p =>
    units "Invalid pattern " ++ singleQuoted p ++ units " for operator 'matches'"
  | .unknownOperator n =>
    units "Unknown filter operator " ++ singleQuoted n ++ units ". Available: " ++
      commaList (Operator.all.map Operator.text)
  | .clauseList c k =>
    singleQuoted c.text ++ units " requires an array of predicates, got " ++ k
  | .predicateKind k => units "Filter predicate must be a mapping, got " ++ k
  | .mapKind k => units "Map specification must be a mapping, got " ++ k
  | .mapKeys ks => units "Unknown map specification keys: " ++ commaList ks
  | .mapTemplate => units "Map specification requires a 'template'"
  | .mapVariable v => units "Map variable must be an identifier, got " ++ singleQuoted v
  | .pathKind s k => singleQuoted s.text ++ units " must be a path string, got " ++ k
  | .stageKeys ks =>
    units "Unknown extraction keys: " ++ commaList ks ++ units ". Allowed: " ++
      commaList (Stage.all.map Stage.text)
  | .callable => units "Callable extraction specs cannot be serialized"
  | .literalText t =>
    units "Literal text " ++ singleQuoted t ++ units " would read back as a path"
  | .literalStages =>
    units "Literal mapping with extraction keys would read back as a structured spec"
  | .definition is => units "Invalid definition: " ++ Issue.describe (units "definition") is
  | .selector is => units "Invalid children selector: " ++ Issue.describe (units "definition") is
  | .iconPack is => units "Invalid icon pack: " ++ Issue.describe [] is
  | .noDefinition => units "A definition is required"
  | .reservedName n => units "Definition name " ++ singleQuoted n ++ units " is reserved"
  | .unknownDefinition n ns =>
    units "Unknown definition " ++ singleQuoted n ++ units ". Available: " ++ commaList ns

/-- Values that had to be sequences or mappings and were not. -/
inductive StructureProblem where
  | mapOver (kind : Text)
  | extra (kind : Text)
  | children (kind : Text)
  | ignoredRoot

def StructureProblem.message : StructureProblem → Text
  | .mapOver k => units "Cannot map over " ++ k ++ units " value; expected an array"
  | .extra k => units "extra must resolve to a mapping, got " ++ k
  | .children k => units "children must resolve to an array, got " ++ k
  | .ignoredRoot => units "Root node was ignored; its type is listed in ignore_types"

/-- The kinds of reports, with what each of them says beside its wording. -/
inductive ReportKind where
  | extraction
  | path (path : Text) (position : Nat)
  | keylessAccess
  | mismatch (operation expected actual : Text)
  | spec
  | structural

/-- The cause of a reported error. Functions of the host report errors in words of their own. -/
inductive Cause where
  | path (problem : PathProblem) (path : Text)
  | keylessAccess (key kind : Text)
  | mismatch (mismatch : Mismatch)
  | spec (problem : SpecProblem)
  | structural (problem : StructureProblem)
  | raised (kind : ReportKind) (detail : Text)

def Cause.detail : Cause → Text
  | .path .empty _ => PathProblem.empty.message
  | .path p t => p.message ++ units " in path " ++ singleQuoted t
  | .keylessAccess key kind =>
    units "Cannot access key " ++ singleQuoted key ++ units " on " ++ kind ++ units " value"
  | .mismatch m => m.detail
  | .spec p => p.message
  | .structural p => p.message
  | .raised _ detail => detail

end TreeExtraction
