import TreeExtraction.Text.Basic

/-! # Issues of serialized data

What a check of serialized data finds wrong: the keys and positions that lead to it, and its
wording.
-/

namespace TreeExtraction

structure Issue where
  place : List Text
  message : Text

namespace Issue

/-- The wording of an issue with its place; `whole` names the place of one with the data as a
whole. -/
def text (whole : Text) (i : Issue) : Text :=
  (if i.place.isEmpty then whole else Text.join [unit '.'] i.place) ++ units ": " ++ i.message

def within (key : Text) (i : Issue) : Issue :=
  ⟨key :: i.place, i.message⟩

def describe (whole : Text) (is : List Issue) : Text :=
  Text.join (units "; ") (is.map (text whole))

end Issue

end TreeExtraction
