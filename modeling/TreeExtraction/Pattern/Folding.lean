import TreeExtraction.Text.Casing

/-! # Letter case of units

Two units differ at most in letter case if they have the same upper case. A unit whose upper case
is several units, or which would come from outside the basic alphabet into it, has none but itself.
-/

namespace TreeExtraction.Pattern

/-- The unit that stands for all those that differ from a unit in letter case only. -/
def fold (u : UInt16) : UInt16 :=
  match Casing.upperOf u.toNat with
  | [c] => if 0x10000 ≤ c || (0x80 ≤ u.toNat && c < 0x80) then u else c.toUInt16
  | _ => u

/-- Whether two units are the same, or differ in letter case only where that does not count. -/
def agree (caseless : Bool) (u v : UInt16) : Bool :=
  u == v || (caseless && fold u == fold v)

/-- The units that a shift maps to a unit. -/
def sourceOf? (k : UInt16) (s : Casing.Shift) : Option UInt16 :=
  let c := ((k.toNat : Int) - s.distance).toNat
  if s.covers c && c < 0x10000 then some c.toUInt16 else none

/-- The units that differ from a unit in letter case only. -/
def variants (u : UInt16) : List UInt16 :=
  (fold u :: Casing.upperShifts.filterMap (sourceOf? (fold u))).filter (fold · == fold u)

end TreeExtraction.Pattern
