import TreeExtraction.Pattern.Escape

/-! # Modes

Modes change the meaning of a part of a pattern: letter case does not count, starts and ends are
those of lines, and a point matches line ends too. A pattern begins with none of them unless it is
read in others. Letters between the question mark and the colon of a group switch modes on for that
group and, behind a dash, off.
-/

namespace TreeExtraction.Pattern

structure Modes where
  caseless : Bool
  byLine : Bool
  anyUnit : Bool

def Modes.initial : Modes := ⟨false, false, false⟩

def isModeLetter (u : UInt16) : Bool :=
  u == unit 'i' || u == unit 'm' || u == unit 's'

def Modes.switch (m : Modes) (isOn : Bool) (letters : Text) : Modes :=
  let value (letter : Char) (current : Bool) : Bool :=
    if letters.any (· == unit letter) then isOn else current
  ⟨value 'i' m.caseless, value 'm' m.byLine, value 's' m.anyUnit⟩

def areDistinct : Text → Bool
  | [] => true
  | u :: rest => rest.all (· != u) && areDistinct rest

/-- Reads the switches of a group up to its colon; the text begins behind the question mark. No mode
is switched twice, and a dash stands beside at least one letter. -/
def Modes.read? (m : Modes) (t : Text) : Option (Read Modes) :=
  let on := t.takeWhile isModeLetter
  match t.dropWhile isModeLetter with
  | [] => none
  | u :: rest =>
    if u == unit ':' then
      if areDistinct on then some ⟨m.switch true on, rest⟩ else none
    else if u == unit '-' then
      let off := rest.takeWhile isModeLetter
      match rest.dropWhile isModeLetter with
      | [] => none
      | c :: body =>
        if c == unit ':' && areDistinct (on ++ off) && !(on ++ off).isEmpty then
          some ⟨(m.switch true on).switch false off, body⟩
        else none
    else none

end TreeExtraction.Pattern
