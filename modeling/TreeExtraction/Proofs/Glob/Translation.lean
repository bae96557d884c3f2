import TreeExtraction.Proofs.Glob.Language

/-! # Search patterns of glob patterns

The search pattern of a glob pattern is put together from those of its pieces, and it is read as one
part for each piece between the conditions for the start and the end of the text. Neither a unit
that stands for itself nor a member of a set takes on a meaning of its own there.
-/

namespace TreeExtraction.Glob

open Pattern

/-- The members of a set in a search pattern, one text for each. -/
def memberTexts (negated : Bool) : Text → List Text
  | [] => []
  | first :: others =>
    (if negated = false ∧ first = unit '^' then [unit '\\', first] else escapeMember first) ::
      others.map escapeMember

namespace Piece

/-- The search pattern of a piece. -/
def text : Piece → Text
  | .star => units ".*"
  | .any => units "."
  | .literal u => escape u
  | .set negated members =>
    unit '[' :: (if negated then [unit '^'] else []) ++
      ((memberTexts negated members).flatten ++ [unit ']'])

/-- The part of a search pattern that a piece is read as. -/
def node : Piece → Node
  | .star => .repetition 0 none true 1 1 .anyUnit
  | .any => .anyUnit
  | .literal u => .literal false u
  | .set negated members =>
    .oneOf false negated ((ranges members).map fun r => .range r.1 r.2)

end Piece

/-! ## Writing -/

section Writing

variable {negated : Bool} {members body rest t : Text} {ps : List Piece}

theorem translateFrom_append :
    translateFrom body.length (body ++ t) = translateFrom 0 t := by
  induction body with
  | nil => rfl
  | cons u body ih => simpa [translateFrom] using ih

theorem translateSet_eq (h : IsBody negated members body) :
    translateSet body = (Piece.set negated members).text := by
  cases h with
  | @plain first others hfirst hothers =>
    by_cases hescaped : first = unit '\\' ∨ first = unit ']'
    · have hmark : first ≠ unit '^' := by
        rintro rfl
        revert hescaped
        decide
      have hfirst : escapeMember first = [unit '\\', first] := if_pos (by simpa using hescaped)
      have hbackslash : unit '\\' ≠ unit '!' ∧ unit '\\' ≠ unit '^' := by decide
      simp [translateSet, Piece.text, memberTexts, hfirst, hmark, hbackslash, List.flatMap]
    · have hfirst' : escapeMember first = [first] := if_neg (by simpa using hescaped)
      by_cases hmark : first = unit '^'
      · subst hmark
        simp [translateSet, Piece.text, memberTexts, hfirst, hfirst', List.flatMap]
      · simp [translateSet, Piece.text, memberTexts, hfirst, hfirst', hmark, List.flatMap]
  | @negated first others hothers =>
    have hmark : escapeMember (unit '!') = [unit '!'] := by decide
    simp [translateSet, Piece.text, memberTexts, hmark, List.flatMap]

theorem translateFrom_eq (h : Reads t ps) : translateFrom 0 t = ps.flatMap Piece.text := by
  induction h with
  | nil => rfl
  | star _ ih => rw [List.flatMap_cons, ← ih]; rfl
  | any _ ih => rw [List.flatMap_cons, ← ih]; rfl
  | @set negated members body rest t ps hbody ht _ ih =>
    have hskip : translateFrom (body.length + 1) t = translateFrom 0 rest := by
      have hcut : t = (body ++ [unit ']']) ++ rest := by simp [ht]
      have hlength : body.length + 1 = (body ++ [unit ']']).length := by simp
      rw [hlength, hcut, translateFrom_append]
    have hfound : setBody? t = some body := by rw [ht, setBody?_of_isBody hbody]
    have hbracket : unit '[' ≠ unit '*' ∧ unit '[' ≠ unit '?' := by decide
    rw [List.flatMap_cons, ← ih, ← translateSet_eq hbody, ← hskip]
    simp [translateFrom, hbracket, hfound]
  | bracket hopen _ ih =>
    have hbracket : unit '[' ≠ unit '*' ∧ unit '[' ≠ unit '?' := by decide
    rw [List.flatMap_cons, ← ih]
    simp [translateFrom, hbracket, setBody?_of_not_closesSet hopen, Piece.text]
    decide
  | literal hstar hany hbracket _ ih =>
    rw [List.flatMap_cons, ← ih]
    simp [translateFrom, hstar, hany, hbracket, Piece.text]

end Writing

end TreeExtraction.Glob
