import TreeExtraction.Path.Step

/-! # Reading paths

A path is an attribute or an accessor in brackets, followed by attributes behind points and by
accessors; an accessor that leads the path is followed by a point only. Brackets hold an index, a
quoted key or a bare key, with blanks around it. Reading goes unit by unit, and every problem is
reported with a position.
-/

namespace TreeExtraction.Path

/-- The greatest magnitude of an index: the integers up to here are told apart by numbers. -/
def indexLimit : Nat := 0x1FFFFFFFFFFFFF

/-- What has been read: a result, the position behind it and the rest of the text. -/
structure Reading (α : Type) where
  result : α
  position : Nat
  rest : Text

def skipSpaces (p : Nat) (t : Text) : Nat × Text :=
  (p + (t.takeWhile isSpace).length, t.dropWhile isSpace)

def readIdentifier (p : Nat) : Text → Except PathProblem (Reading Text)
  | [] => .error (.noIdentifier none p)
  | u :: rest =>
    if Text.isIdentifierStart u then
      let name := u :: rest.takeWhile Text.isIdentifierPart
      .ok ⟨name, p + name.length, rest.dropWhile Text.isIdentifierPart⟩
    else .error (.noIdentifier (some u) p)

/-- Reads the digits of an index that starts at position `start`. -/
def readDigits (start : Nat) (negative : Bool) (p : Nat) (t : Text) :
    Except PathProblem (Reading Step) :=
  let ds := t.takeWhile Text.isDigit
  if ds.isEmpty then .error (.noDigit p)
  else if indexLimit < Text.toNat ds then
    .error (.indexRange (if negative then unit '-' :: ds else ds) start)
  else
    .ok ⟨.index (.ofRatio negative (Text.toNat ds) 1), p + ds.length, t.dropWhile Text.isDigit⟩

def readIndex (p : Nat) (t : Text) : Except PathProblem (Reading Step) :=
  match t with
  | [] => readDigits p false p []
  | u :: rest =>
    if u == unit '-' then readDigits p true (p + 1) rest else readDigits p false p (u :: rest)

/-- Reads the key behind an opening quote that stands at position `start`. -/
def readQuoted (start : Nat) (quote : UInt16) (t : Text) : Except PathProblem (Reading Step) :=
  match t.dropWhile (· != quote) with
  | [] => .error (.openString start)
  | _ :: rest =>
    let k := t.takeWhile (· != quote)
    .ok ⟨.key k, start + k.length + 2, rest⟩

def readBare (p : Nat) (t : Text) : Except PathProblem (Reading Step) :=
  let k := t.takeWhile isBareUnit
  if k.isEmpty then .error (.emptyKey p) else .ok ⟨.key k, p + k.length, t.dropWhile isBareUnit⟩

/-- Reads what stands in brackets that open at position `start`. -/
def readContent (start p : Nat) : Text → Except PathProblem (Reading Step)
  | [] => .error (.openBracket start)
  | u :: rest =>
    if isIndexStart u then readIndex p (u :: rest)
    else if isQuote u then readQuoted p u rest
    else readBare p (u :: rest)

/-- Passes the closing bracket of the one that opens at position `start`. -/
def readClose (start : Nat) (r : Reading Step) : Except PathProblem (Reading Step) :=
  match skipSpaces r.position r.rest with
  | (_, []) => .error (.openBracket start)
  | (p, u :: rest) =>
    if u == unit ']' then .ok ⟨r.result, p + 1, rest⟩ else .error (.noBracket u p)

/-- Reads an accessor whose opening bracket stands at position `start`, just before the text. -/
def readAccessor (start : Nat) (t : Text) : Except PathProblem (Reading Step) :=
  let (p, inner) := skipSpaces (start + 1) t
  (readContent start p inner).bind (readClose start)

/-- Reads the steps after the first one, at most `limit` of them. `mayIndex` tells whether an
accessor may follow at once. -/
def readSteps : (limit : Nat) → (mayIndex : Bool) → (p : Nat) → Text →
    Except PathProblem (List Step)
  | _, _, _, [] => .ok []
  | 0, _, p, u :: _ => .error (.unexpected u p)
  | limit + 1, mayIndex, p, u :: rest =>
    if u == unit '.' then do
      let r ← readIdentifier (p + 1) rest
      let others ← readSteps limit true r.position r.rest
      return .attribute r.result :: others
    else if mayIndex && u == unit '[' then do
      let r ← readAccessor p rest
      let others ← readSteps limit true r.position r.rest
      return r.result :: others
    else .error (.unexpected u p)

/-- The steps of a text that is not blank. -/
def readPath : Text → Except PathProblem (List Step)
  | [] => .error (.noIdentifier none 0)
  | u :: rest =>
    if u == unit '[' then do
      let r ← readAccessor 0 rest
      let others ← readSteps r.rest.length false r.position r.rest
      return r.result :: others
    else do
      let r ← readIdentifier 0 (u :: rest)
      let others ← readSteps r.rest.length true r.position r.rest
      return .attribute r.result :: others

def steps (t : Text) : Except PathProblem (List Step) :=
  if (Text.trim t).isEmpty then .error .empty else readPath t

def read (t : Text) : Except Failure (List Step) :=
  (steps t).mapError fun problem => .path problem t

end TreeExtraction.Path
