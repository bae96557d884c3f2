import TreeExtraction.Pattern.Escape
import TreeExtraction.Text.Identifier

/-! # Names of groups

A name in angle brackets is an identifier. Its code points are written as they are, in one or two
units, or as escapes.
-/

namespace TreeExtraction.Pattern

/-- A code point of a name or its closing bracket. -/
def readNamePoint? : Text → Option (Read Nat)
  | [] => none
  | [u] => if u == unit '\\' then none else some ⟨u.toNat, []⟩
  | u :: v :: rest =>
    if u == unit '\\' then
      if v == unit 'u' then readCodePoint? rest else none
    else if Text.isLeading u && Text.isTrailing v then some ⟨Text.scalar [u, v], rest⟩
    else some ⟨u.toNat, v :: rest⟩

/-- The code points of a name of at most `limit` code points from one on, up to the closing
bracket, and the text behind it. -/
def readNameFrom? (isFirst : Bool) : (limit : Nat) → Text → Option (Read Text)
  | 0, _ => none
  | limit + 1, t => do
    let p ← readNamePoint? t
    if !isFirst && p.result == '>'.toNat then some ⟨[], p.rest⟩
    else if if isFirst then Identifier.isStart p.result else Identifier.isPart p.result then
      let others ← readNameFrom? false limit p.rest
      some ⟨Text.encode p.result ++ others.result, others.rest⟩
    else none

/-- A name; the text begins behind the opening bracket. -/
def readName? (t : Text) : Option (Read Text) :=
  readNameFrom? true (t.length + 1) t

end TreeExtraction.Pattern
