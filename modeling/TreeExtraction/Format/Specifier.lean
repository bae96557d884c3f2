import TreeExtraction.Number.Rounding
import TreeExtraction.Text.Digits

/-! # Format specifiers

A specifier is `[[fill]align][sign][#][0][width][grouping][.precision][type]`, every part optional.
`Specifier.read` takes the parts from left to right; each decision needs at most two units, because
no part can begin with a unit that a part before it would have taken. Width and precision are kept
as numbers of double precision. `Specifier.write` puts the parts in order again.
-/

namespace TreeExtraction.Format

/-- Where padding goes: behind the text, before it, around it, or between sign and digits. -/
inductive Alignment where
  | left
  | right
  | center
  | inside
  deriving DecidableEq

/-- What stands in front of a number that is not negative. -/
inductive Sign where
  | minus
  | plus
  | space
  deriving DecidableEq

inductive Grouping where
  | comma
  | underscore
  deriving DecidableEq

inductive Code where
  | text
  | decimal
  | fixed
  | fixedUpper
  | scientific
  | scientificUpper
  | general
  | generalUpper
  | percent
  | hex
  | hexUpper
  | octal
  | binary
  deriving DecidableEq

structure Specifier where
  padding : Option (Option UInt16 × Alignment)
  sign : Option Sign
  alternate : Bool
  zero : Bool
  width : Option Nat
  grouping : Option Grouping
  precision : Option Nat
  code : Option Code
  deriving DecidableEq

def Alignment.unit : Alignment → UInt16
  | .left => TreeExtraction.unit '<'
  | .right => TreeExtraction.unit '>'
  | .center => TreeExtraction.unit '^'
  | .inside => TreeExtraction.unit '='

def Alignment.ofUnit? (u : UInt16) : Option Alignment :=
  [left, right, center, inside].find? fun a => a.unit == u

def Sign.unit : Sign → UInt16
  | .minus => TreeExtraction.unit '-'
  | .plus => TreeExtraction.unit '+'
  | .space => TreeExtraction.unit ' '

def Sign.ofUnit? (u : UInt16) : Option Sign :=
  [minus, plus, space].find? fun s => s.unit == u

def Grouping.unit : Grouping → UInt16
  | .comma => TreeExtraction.unit ','
  | .underscore => TreeExtraction.unit '_'

def Grouping.ofUnit? (u : UInt16) : Option Grouping :=
  [comma, underscore].find? fun g => g.unit == u

namespace Code

def all : List Code :=
  [text, decimal, fixed, fixedUpper, scientific, scientificUpper, general, generalUpper, percent,
    hex, hexUpper, octal, binary]

def unit : Code → UInt16
  | .text => TreeExtraction.unit 's'
  | .decimal => TreeExtraction.unit 'd'
  | .fixed => TreeExtraction.unit 'f'
  | .fixedUpper => TreeExtraction.unit 'F'
  | .scientific => TreeExtraction.unit 'e'
  | .scientificUpper => TreeExtraction.unit 'E'
  | .general => TreeExtraction.unit 'g'
  | .generalUpper => TreeExtraction.unit 'G'
  | .percent => TreeExtraction.unit '%'
  | .hex => TreeExtraction.unit 'x'
  | .hexUpper => TreeExtraction.unit 'X'
  | .octal => TreeExtraction.unit 'o'
  | .binary => TreeExtraction.unit 'b'

def ofUnit? (u : UInt16) : Option Code :=
  all.find? fun c => c.unit == u

def needsInteger : Code → Bool
  | .decimal | .hex | .hexUpper | .octal | .binary => true
  | _ => false

def isUpper : Code → Bool
  | .fixedUpper | .scientificUpper | .generalUpper | .hexUpper => true
  | _ => false

end Code

namespace Specifier

/-- Takes the alignment, with a fill if the second unit is the alignment. -/
def takePadding : Text → Option (Option UInt16 × Alignment) × Text
  | [] => (none, [])
  | [u] =>
    match Alignment.ofUnit? u with
    | some a => (some (none, a), [])
    | none => (none, [u])
  | u :: v :: rest =>
    match Alignment.ofUnit? v with
    | some a => (some (some u, a), rest)
    | none =>
      match Alignment.ofUnit? u with
      | some a => (some (none, a), v :: rest)
      | none => (none, u :: v :: rest)

/-- Takes the first unit if it stands for a part. -/
def takeUnit {α : Type} (part : UInt16 → Option α) : Text → Option α × Text
  | [] => (none, [])
  | u :: rest =>
    match part u with
    | some a => (some a, rest)
    | none => (none, u :: rest)

def takeFlag (flag : UInt16) (t : Text) : Bool × Text :=
  let (found, rest) := takeUnit (fun u => if u == flag then some () else none) t
  (found.isSome, rest)

/-- What stands for a count that is infinite in double precision; it is the length of no text. -/
def boundless : Nat := Nat.pow 2 1024

/-- A count as it is kept: the number of double precision that is nearest to it. -/
def kept (n : Nat) : Nat :=
  ((Magnitude.ofRatio n 1).map Magnitude.whole).getD boundless

def takeDigits (t : Text) : Option Nat × Text :=
  let ds := t.takeWhile Text.isDigit
  (if ds.isEmpty then none else some (kept (Text.toNat ds)), t.dropWhile Text.isDigit)

def takePrecision : Text → Option Nat × Text
  | [] => (none, [])
  | u :: rest =>
    if u == unit '.' then
      match takeDigits rest with
      | (some n, after) => (some n, after)
      | (none, _) => (none, u :: rest)
    else (none, u :: rest)

/-- Reads a specifier, none if something is left over. -/
def read (t : Text) : Option Specifier :=
  let (padding, t) := takePadding t
  let (sign, t) := takeUnit Sign.ofUnit? t
  let (alternate, t) := takeFlag (unit '#') t
  let (zero, t) := takeFlag (unit '0') t
  let (width, t) := takeDigits t
  let (grouping, t) := takeUnit Grouping.ofUnit? t
  let (precision, t) := takePrecision t
  let (code, t) := takeUnit Code.ofUnit? t
  if t.isEmpty then some ⟨padding, sign, alternate, zero, width, grouping, precision, code⟩
  else none

def part {α : Type} (f : α → Text) (a : Option α) : Text :=
  (a.map f).getD []

def write (s : Specifier) : Text :=
  part (fun (fill, align) => part (fun u => [u]) fill ++ [align.unit]) s.padding ++
    part (fun g => [g.unit]) s.sign ++
    (if s.alternate then [unit '#'] else []) ++
    (if s.zero then [unit '0'] else []) ++
    part Text.ofNat s.width ++
    part (fun g => [g.unit]) s.grouping ++
    part (fun n => unit '.' :: Text.ofNat n) s.precision ++
    part (fun c => [c.unit]) s.code

/-- The alignment asked for; the zero flag asks for padding between sign and digits. -/
def alignment? (s : Specifier) : Option Alignment :=
  match s.padding with
  | some (_, a) => some a
  | none => if s.zero then some .inside else none

/-- The unit of the padding: the fill, a zero for the zero flag without an alignment, or a
space. -/
def fillUnit (s : Specifier) : UInt16 :=
  match s.padding with
  | some (some u, _) => u
  | some (none, _) => unit ' '
  | none => if s.zero then unit '0' else unit ' '

def leastLength (s : Specifier) : Nat :=
  s.width.getD 0

def positiveSign (s : Specifier) : Text :=
  match s.sign with
  | some .plus => [unit '+']
  | some .space => [unit ' ']
  | _ => []

end Specifier

end TreeExtraction.Format
