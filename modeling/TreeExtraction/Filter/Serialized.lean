import TreeExtraction.Filter.Predicate
import TreeExtraction.Path.Reader
import TreeExtraction.Pattern.Reader

/-! # Serialized predicates

A predicate is serialized as a mapping. The keys `and`, `or` and `not` hold predicates, every other
key is a path with a condition: a mapping of operators to operands, or a value that the field must
equal. Several keys of one mapping are joined by `and`, in order.
-/

namespace TreeExtraction.Predicate

def negationKey : Text := units "not"

def checkOperand (o : Operator) (operand : Value) : Except Failure Unit :=
  let context : Context := { operator := some o.text }
  match o, operand with
  | .isIn, .array .. | .isIn, .text _ | .isNotIn, .array .. | .isNotIn, .text _ => .ok ()
  | .isIn, v | .isNotIn, v => .error (.spec (.listOperand o v.kind) context)
  | .startsWith, .text _ | .endsWith, .text _ | .contains, .text _ | .hasKind, .text _ => .ok ()
  | .startsWith, v | .endsWith, v | .contains, v | .hasKind, v =>
    .error (.spec (.textOperand o v.kind) context)
  | .matches, .text p =>
    if (Pattern.read p).isSome then .ok () else .error (.spec (.patternSyntax p) context)
  | .matches, v => .error (.spec (.patternOperand v.kind) context)
  | _, _ => .ok ()

def compileTests : List (Text × Value) → Except Failure (List Test)
  | [] => .ok []
  | (name, operand) :: es =>
    match Operator.ofText? name with
    | none => .error (.spec (.unknownOperator name) { operator := some name })
    | some o => do
      checkOperand o operand
      let others ← compileTests es
      return ⟨o, operand⟩ :: others

def compileCondition (raw : Value) : Except Failure Condition :=
  match raw with
  | .mapping es _ => .tests <$> compileTests es
  | v => .ok (.equals v)

/-- The operator by which a field tests scalar items, if its name is that of an operator which
accepts the value. -/
def selfOperator? (key : Text) (condition : Condition) : Option Operator :=
  match condition with
  | .equals v =>
    (Operator.ofText? key).filter fun o =>
      match checkOperand o v with
      | .ok _ => true
      | .error _ => false
  | .tests _ => none

def compileField (key : Text) (raw : Value) : Except Failure Predicate := do
  let _ ← Path.read key
  let condition ← compileCondition raw
  return .field key condition (selfOperator? key condition)

/-- One clause stands for itself, several are joined. -/
def joined : List Predicate → Predicate
  | [p] => p
  | ps => .all (ps.map some)

mutual

def compile : Value → Except Failure Predicate
  | .mapping es _ => joined <$> compileEntries es
  | v => .error (.spec (.predicateKind v.kind))

def compileEntries : List (Text × Value) → Except Failure (List Predicate)
  | [] => .ok []
  | (key, v) :: es => do
    let first ←
      if key == Connective.and.text then .all <$> compileClauses .and v
      else if key == Connective.or.text then .any <$> compileClauses .or v
      else if key == negationKey then .negation <$> compile v
      else compileField key v
    let others ← compileEntries es
    return first :: others

def compileClauses (c : Connective) : Value → Except Failure (List (Option Predicate))
  | .array vs _ => compileItems vs
  | v => .error (.spec (.clauseList c v.kind))

/-- Reads the predicates of an array, whose empty places stay empty. -/
def compileItems : List (Option Value) → Except Failure (List (Option Predicate))
  | [] => .ok []
  | none :: vs => do
    let others ← compileItems vs
    return none :: others
  | some v :: vs => do
    let first ← compile v
    let others ← compileItems vs
    return some first :: others

end

def serializeTests (ts : List Test) : Value :=
  .mapping (Table.ofList (ts.map fun t => (t.operator.text, t.operand)))

def serializeCondition : Condition → Value
  | .equals v => v
  | .tests ts => serializeTests ts

mutual

def serialize : Predicate → Value
  | .field path condition _ => .mapping [(path, serializeCondition condition)]
  | .all clauses => .mapping [(Connective.and.text, .array (serializeAll clauses) {})]
  | .any clauses => .mapping [(Connective.or.text, .array (serializeAll clauses) {})]
  | .negation clause => .mapping [(negationKey, serialize clause)]

def serializeAll : List (Option Predicate) → List (Option Value)
  | [] => []
  | none :: ps => none :: serializeAll ps
  | some p :: ps => some (serialize p) :: serializeAll ps

end

end TreeExtraction.Predicate
