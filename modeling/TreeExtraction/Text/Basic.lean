/-! # Text as sixteen-bit units

A text is a list of UTF-16 code units. Surrogates may stand alone, so every list of units is a
text: lengths, positions and slices count units, and order is the order of the units. Code points
are a view of a text: `codePoints` splits it, and `flatten_codePoints` says that nothing is lost.
-/

namespace TreeExtraction

/-- A text: its UTF-16 code units, in order. -/
abbrev Text := List UInt16

/-- The one or two units of a code point. -/
def Text.encode (c : Nat) : Text :=
  if c < 0x10000 then [c.toUInt16]
  else [(0xD800 + (c - 0x10000) / 0x400).toUInt16, (0xDC00 + (c - 0x10000) % 0x400).toUInt16]

/-- The units of a string of characters. -/
def units (s : String) : Text :=
  s.toList.flatMap fun c => Text.encode c.toNat

/-- The unit of a character below `U+10000`. -/
def unit (c : Char) : UInt16 :=
  c.toNat.toUInt16

namespace Text

/-- Units that lead a surrogate pair. -/
def isLeading (u : UInt16) : Bool :=
  0xD800 ≤ u && u ≤ 0xDBFF

/-- Units that close a surrogate pair. -/
def isTrailing (u : UInt16) : Bool :=
  0xDC00 ≤ u && u ≤ 0xDFFF

/-- The code points of a text, each as its own units; a surrogate without its partner counts as
one code point. -/
def codePoints : Text → List Text
  | [] => []
  | [u] => [[u]]
  | u :: v :: rest =>
    if isLeading u && isTrailing v then [u, v] :: codePoints rest
    else [u] :: codePoints (v :: rest)

/-- The code points of a text, put side by side, are the text. -/
theorem flatten_codePoints (t : Text) : (codePoints t).flatten = t := by
  fun_induction codePoints t <;> simp_all

/-- The number of a code point given by its units. -/
def scalar : Text → Nat
  | [u, v] => 0x10000 + (u.toNat - 0xD800) * 0x400 + (v.toNat - 0xDC00)
  | [u] => u.toNat
  | _ => 0

/-- White space and line ends. -/
def isBlank (u : UInt16) : Bool :=
  (0x09 ≤ u && u ≤ 0x0D) || u == 0x20 || u == 0xA0 || u == 0x1680 ||
    (0x2000 ≤ u && u ≤ 0x200A) || u == 0x2028 || u == 0x2029 || u == 0x202F || u == 0x205F ||
    u == 0x3000 || u == 0xFEFF

def trimStart (t : Text) : Text :=
  t.dropWhile isBlank

def trimEnd (t : Text) : Text :=
  (t.reverse.dropWhile isBlank).reverse

/-- A text without the blanks at its two ends. -/
def trim (t : Text) : Text :=
  trimEnd (trimStart t)

def startsWith (t start : Text) : Bool :=
  start.isPrefixOf t

def endsWith (t ending : Text) : Bool :=
  ending.isSuffixOf t

/-- Whether a text holds another as a run of consecutive units. -/
def contains (t part : Text) : Bool :=
  part.isPrefixOf t ||
    match t with
    | [] => false
    | _ :: rest => contains rest part

/-- The order of texts: the first unit that differs decides, and a text comes before its
extensions. -/
def before (a b : Text) : Bool :=
  decide (a < b)

def sort (ts : List Text) : List Text :=
  ts.mergeSort fun a b => !before b a

def join (separator : Text) (ts : List Text) : Text :=
  (ts.intersperse separator).flatten

def isDigit (u : UInt16) : Bool :=
  unit '0' ≤ u && u ≤ unit '9'

/-- Letters of the basic alphabet and the underscore. -/
def isIdentifierStart (u : UInt16) : Bool :=
  (unit 'A' ≤ u && u ≤ unit 'Z') || (unit 'a' ≤ u && u ≤ unit 'z') || u == unit '_'

/-- Letters of the basic alphabet, decimal digits and the underscore. -/
def isIdentifierPart (u : UInt16) : Bool :=
  isIdentifierStart u || isDigit u

/-- Whether a text is an identifier: a letter or underscore, then letters, digits and
underscores. -/
def isIdentifier : Text → Bool
  | [] => false
  | u :: rest => isIdentifierStart u && rest.all isIdentifierPart

end Text

end TreeExtraction
