import TreeExtraction.Pattern.Basic
import TreeExtraction.Text.Digits

/-! # Escapes

What a backslash stands for in a pattern. Outside names a code is one unit: an octal number, two or
four hexadecimal digits, or a control letter. In names it is a code point: four hexadecimal digits,
two such escapes that form a surrogate pair, or any number of digits in braces.
-/

namespace TreeExtraction.Pattern

/-- A part of a pattern with the text behind it. -/
structure Read (α : Type) where
  result : α
  rest : Text

def isOctal (u : UInt16) : Bool :=
  unit '0' ≤ u && u ≤ unit '7'

/-- An octal code of up to three digits below 256; the text begins with an octal digit. -/
def readOctal (t : Text) : Read UInt16 :=
  let ds := t.takeWhile isOctal
  let count := if Text.toNat (ds.take 1) < 4 then 3 else 2
  let ds := ds.take count
  ⟨(Text.ofDigits 8 (ds.map Text.digitValue)).toUInt16, t.drop ds.length⟩

def hexValue? (u : UInt16) : Option Nat :=
  if Text.isDigit u then some (Text.digitValue u)
  else if unit 'a' ≤ u && u ≤ unit 'f' then some ((u - unit 'a').toNat + 10)
  else if unit 'A' ≤ u && u ≤ unit 'F' then some ((u - unit 'A').toNat + 10)
  else none

/-- A code of exactly `count` hexadecimal digits. -/
def readHex? (count : Nat) (t : Text) : Option (Read Nat) :=
  let ds := (t.take count).filterMap hexValue?
  if ds.length = count then some ⟨Text.ofDigits 16 ds, t.drop count⟩ else none

def isLetter (u : UInt16) : Bool :=
  (unit 'A' ≤ u && u ≤ unit 'Z') || (unit 'a' ≤ u && u ≤ unit 'z')

def classOfEscape? (u : UInt16) : Option ClassItem :=
  if u == unit 'd' then some (.digits false)
  else if u == unit 'D' then some (.digits true)
  else if u == unit 'w' then some (.words false)
  else if u == unit 'W' then some (.words true)
  else if u == unit 's' then some (.blanks false)
  else if u == unit 'S' then some (.blanks true)
  else none

/-- The unit of an escape that stands for one unit; the text begins behind the backslash. Where the
backslash stands for itself, nothing behind it is taken. -/
def readUnitEscape (inClass : Bool) : Text → Read UInt16
  | [] => ⟨unit '\\', []⟩
  | u :: rest =>
    let hex (count : Nat) : Read UInt16 :=
      ((readHex? count rest).map fun r => ⟨r.result.toUInt16, r.rest⟩).getD ⟨u, rest⟩
    if u == unit 'f' then ⟨0x0C, rest⟩
    else if u == unit 'n' then ⟨0x0A, rest⟩
    else if u == unit 'r' then ⟨0x0D, rest⟩
    else if u == unit 't' then ⟨0x09, rest⟩
    else if u == unit 'v' then ⟨0x0B, rest⟩
    else if u == unit 'c' then
      match rest with
      | l :: after =>
        if isLetter l || (inClass && isWordUnit l) then ⟨l % 32, after⟩
        else ⟨unit '\\', u :: rest⟩
      | [] => ⟨unit '\\', u :: rest⟩
    else if isOctal u then readOctal (u :: rest)
    else if u == unit 'x' then hex 2
    else if u == unit 'u' then hex 4
    else ⟨u, rest⟩

def greatestCodePoint : Nat := 0x10FFFF

/-- A code point in braces; the text begins behind the opening one. -/
def readBracedCodePoint? (t : Text) : Option (Read Nat) :=
  let ds := (t.takeWhile (· != unit '\x7d')).map hexValue?
  let c := Text.ofDigits 16 (ds.filterMap id)
  match t.drop ds.length with
  | [] => none
  | _ :: rest =>
    if !ds.isEmpty && ds.all (·.isSome) && c ≤ greatestCodePoint then some ⟨c, rest⟩ else none

/-- The unit of an escape of four digits that closes a surrogate pair, with the text behind it. -/
def readTrailingEscape? : Text → Option (Read Nat)
  | b :: l :: digits => do
    if b == unit '\\' && l == unit 'u' then
      let r ← readHex? 4 digits
      if Text.isTrailing r.result.toUInt16 then some r else none
    else none
  | _ => none

/-- The code point of an escape; the text begins behind the backslash and its letter. -/
def readCodePoint? : Text → Option (Read Nat)
  | [] => none
  | u :: rest =>
    if u == unit '\x7b' then readBracedCodePoint? rest
    else do
      let r ← readHex? 4 (u :: rest)
      if Text.isLeading r.result.toUInt16 then
        match readTrailingEscape? r.rest with
        | some s => some ⟨Text.scalar [r.result.toUInt16, s.result.toUInt16], s.rest⟩
        | none => some r
      else some r

end TreeExtraction.Pattern
