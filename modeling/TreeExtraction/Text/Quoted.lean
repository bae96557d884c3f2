import TreeExtraction.Text.Digits

/-! # Quoted text

A text between double quotes as it stands in a structure that is written out. Quotes, backslashes
and control units are escaped, and so is a surrogate that stands alone; everything else stands for
itself.
-/

namespace TreeExtraction.Text

def hexEscape (u : UInt16) : Text :=
  units "\\u" ++ padZeros 4 (ofNatBase 16 u.toNat)

/-- A unit that is no part of a surrogate pair, escaped where it has to be. -/
def escapeUnit (u : UInt16) : Text :=
  if u == unit '"' then units "\\\""
  else if u == unit '\\' then units "\\\\"
  else if u == 0x08 then units "\\b"
  else if u == 0x0C then units "\\f"
  else if u == unit '\n' then units "\\n"
  else if u == unit '\r' then units "\\r"
  else if u == unit '\t' then units "\\t"
  else if u < 0x20 || isLeading u || isTrailing u then hexEscape u
  else [u]

/-- A code point, escaped where it has to be. -/
def escapePoint : Text → Text
  | [u] => escapeUnit u
  | pair => pair

/-- The text between double quotes, with escapes. -/
def quoted (t : Text) : Text :=
  unit '"' :: ((codePoints t).flatMap escapePoint ++ [unit '"'])

end TreeExtraction.Text
