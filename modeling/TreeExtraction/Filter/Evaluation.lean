import TreeExtraction.Filter.Predicate
import TreeExtraction.Number.Arithmetic
import TreeExtraction.Path.Evaluation
import TreeExtraction.Pattern.Matching
import TreeExtraction.Pattern.Reader
import TreeExtraction.Value.Equality
import TreeExtraction.Value.Rendering

/-! # Evaluating predicates

Operators test one value against an operand; predicates test an item from left to right and stop as
soon as the answer is known. Empty places in lists of clauses, operands and items are passed over.
Order is defined between numbers, between texts and between truth
values. Numbers are ordered by the sign of their difference, so nothing is ordered against
not-a-number, and an infinity is not ordered against itself.
-/

namespace TreeExtraction

/-- How a number stands to zero of either sign; not-a-number does not. -/
def Number.sign? : Number → Option Ordering
  | .nan => none
  | .infinite negative => some (if negative then .lt else .gt)
  | .finite negative x => some (if x.isZero then .eq else if negative then .lt else .gt)

/-- The order of two numbers: the sign of their difference, where it has one. -/
def Number.order (a b : Number) : Option Ordering :=
  (a.sub b).sign?

def Text.order (a b : Text) : Ordering :=
  if a == b then .eq else if before a b then .lt else .gt

def boolOrder (a b : Bool) : Ordering :=
  compare a.toNat b.toNat

namespace Operator

def context (o : Operator) : Context := { operator := some o.text }

def accepts (o : Operator) (order : Option Ordering) : Bool :=
  match o, order with
  | .gt, some .gt => true
  | .gte, some .gt => true
  | .gte, some .eq => true
  | .lt, some .lt => true
  | .lte, some .lt => true
  | .lte, some .eq => true
  | _, _ => false

def compareBy (o : Operator) (value operand : Value) : Except Failure Bool :=
  match value, operand with
  | .number a, .number b => .ok (o.accepts (a.order b))
  | .text a, .text b => .ok (o.accepts (some (Text.order a b)))
  | .bool a, .bool b => .ok (o.accepts (some (boolOrder a b)))
  | _, _ => .error (.mismatch (.incomparable o value.kind operand.kind) o.context)

/-- Whether a value is an item of an array or a part of a text. -/
def membership (o : Operator) (value operand : Value) : Except Failure Bool :=
  match operand with
  | .array candidates _ => .ok ((Value.present candidates).any value.equal)
  | .text whole =>
    match value with
    | .text part => .ok (Text.contains whole part)
    | _ => .error (.mismatch (.substring o value.kind) o.context)
  | _ =>
    .error (.mismatch (.input o.text (units "array or string operand") operand.kind) o.context)

def textOperand (o : Operator) (operand : Value) : Except Failure Text :=
  match operand with
  | .text t => .ok t
  | _ => .error (.mismatch (.input o.text (units "string operand") operand.kind) o.context)

/-- Whether the operand of a presence test asks for presence to hold as stated. -/
def asksFor (operand : Value) : Bool :=
  match operand with
  | .bool false => false
  | _ => true

section

variable [PureHost]

def evaluate (o : Operator) (value operand : Value) : Except Failure Bool :=
  match o with
  | .isIn => o.membership value operand
  | .isNotIn => (!·) <$> o.membership value operand
  | .startsWith => do
    let t ← value.toText
    return Text.startsWith t (← o.textOperand operand)
  | .endsWith => do
    let t ← value.toText
    return Text.endsWith t (← o.textOperand operand)
  | .contains => do
    let t ← value.toText
    return Text.contains t (← o.textOperand operand)
  | .matches => do
    let p ← o.textOperand operand
    match Pattern.read p with
    | some n => return Pattern.matchesIn n (← value.insertedText)
    | none => .error .badPattern
  | .eq => .ok (value.equal operand)
  | .ne => .ok !(value.equal operand)
  | .gt => o.compareBy value operand
  | .gte => o.compareBy value operand
  | .lt => o.compareBy value operand
  | .lte => o.compareBy value operand
  | .isNone => .ok (value.isNull == asksFor operand)
  | .isNotNone => .ok ((!value.isNull) == asksFor operand)
  | .hasKind =>
    match operand with
    | .text t => .ok (value.kind == t)
    | _ => .ok false

end

end Operator

namespace Predicate

variable [PureHost]

def runTests (path : Text) (value : Value) : List Test → Except Failure Bool
  | [] => .ok true
  | t :: ts => do
    let holds ← inContext { operator := some t.operator.text, path := some path }
      (t.operator.evaluate value t.operand)
    if holds then runTests path value ts else return false

/-- Tests the field of an item, or a scalar item itself. -/
def runField (item : Value) (path : Text) (condition : Condition) (selfOperator : Option Operator) :
    Except Failure Bool :=
  match condition, selfOperator with
  | .equals operand, some o =>
    if item.isScalar then o.evaluate item operand
    else do
      let value ← Path.extract item path
      return value.equal operand
  | .equals operand, none => do
    let value ← Path.extract item path
    return value.equal operand
  | .tests ts, _ => do
    let value ← Path.extract item path
    runTests path value ts

mutual

def evaluate (item : Value) : Predicate → Except Failure Bool
  | .field path condition selfOperator => runField item path condition selfOperator
  | .all clauses => evaluateAll item clauses
  | .any clauses => evaluateAny item clauses
  | .negation clause => (!·) <$> evaluate item clause

/-- Whether an item satisfies every predicate of a list; the first that fails decides. -/
def evaluateAll (item : Value) : List (Option Predicate) → Except Failure Bool
  | [] => .ok true
  | none :: ps => evaluateAll item ps
  | some p :: ps => do
    let holds ← evaluate item p
    if holds then evaluateAll item ps else return false

/-- Whether an item satisfies some predicate of a list; the first that holds decides. -/
def evaluateAny (item : Value) : List (Option Predicate) → Except Failure Bool
  | [] => .ok false
  | none :: ps => evaluateAny item ps
  | some p :: ps => do
    let holds ← evaluate item p
    if holds then return true else evaluateAny item ps

end

def filterItems (p : Predicate) : List Value → Except Failure (List Value)
  | [] => .ok []
  | v :: vs => do
    let keep ← p.evaluate v
    let rest ← p.filterItems vs
    return if keep then v :: rest else rest

def filterValue (p : Predicate) (items : Value) : Except Failure Value :=
  match items with
  | .array vs _ => .list <$> p.filterItems (Value.present vs)
  | _ => .error .unsupported

end Predicate

end TreeExtraction
