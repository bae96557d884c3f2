import Mathlib.Data.List.Forall2
import TreeExtraction.Proofs.Glob.Translation

/-! # Reading the search pattern of a glob pattern

The reader of search patterns takes what a piece of a glob pattern is written as for one part. The
members of a set are read as its ranges, and the pattern is refused if one of them runs backwards.
No piece begins with a repetition mark, so the star of a piece is all there is behind a point.
-/

namespace TreeExtraction.Glob

open Pattern

/-! ## Sets -/

section Classes

variable {info : Census} {limit : Nat} {u v : UInt16} {w x rest t members : Text}
  {ws : List Text} {negated : Bool}

/-- How a unit can be written in a class. -/
inductive IsWritten : UInt16 → Text → Prop
  | plain {u : UInt16} : u ≠ unit '\\' → u ≠ unit ']' → IsWritten u [u]
  | escaped {u : UInt16} : u ∈ units "\\]^" → IsWritten u [unit '\\', u]

theorem isWritten_escapeMember (u : UInt16) : IsWritten u (escapeMember u) := by
  unfold escapeMember
  split
  next h =>
    refine .escaped ?_
    rw [Bool.or_eq_true, beq_iff_eq, beq_iff_eq] at h
    obtain rfl | rfl := h
    · decide
    · decide
  next h =>
    simp only [Bool.or_eq_true, beq_iff_eq, not_or] at h
    exact .plain h.1 h.2

theorem forall₂_memberTexts (negated : Bool) (members : Text) :
    List.Forall₂ IsWritten members (memberTexts negated members) := by
  cases members with
  | nil => exact .nil
  | cons first others =>
    refine .cons ?_ ?_
    · split
      next h => exact .escaped (by rw [h.2]; decide)
      next => exact isWritten_escapeMember first
    · rw [List.forall₂_map_right_iff]
      exact List.forall₂_same.2 fun u _ => isWritten_escapeMember u

/-- A written unit does not close the class. -/
theorem IsWritten.exists_cons (h : IsWritten u w) : ∃ v x, w = v :: x ∧ v ≠ unit ']' := by
  cases h with
  | plain _ hbracket => exact ⟨u, [], rfl, hbracket⟩
  | escaped _ => exact ⟨unit '\\', [u], rfl, by decide⟩

theorem readClassAtom_append (h : IsWritten u w) :
    readClassAtom info (w ++ t) = some ⟨.one u, t⟩ := by
  cases h with
  | plain hbackslash _ => simp [readClassAtom, hbackslash]
  | escaped hu =>
    have hunits : units "\\]^" = [unit '\\', unit ']', unit '^'] := by decide
    rw [hunits] at hu
    simp only [List.mem_cons, List.not_mem_nil, or_false] at hu
    obtain rfl | rfl | rfl := hu <;> rfl

/-- Whether the rest of a class makes no range of the unit before it. -/
def EndsMember (t : Text) : Prop :=
  ∀ e after, t = unit '-' :: e :: after → e = unit ']'

theorem endsMember_bracket : EndsMember (unit ']' :: t) := by
  intro e after h
  exact absurd (List.cons.inj h).1 (by decide)

theorem IsWritten.endsMember (h : IsWritten u w) (hu : u ≠ unit '-') : EndsMember (w ++ t) := by
  intro e after ht
  cases h with
  | plain => exact absurd (List.cons.inj ht).1 hu
  | escaped => exact absurd (List.cons.inj ht).1 (by decide)

theorem IsWritten.endsMember_bracket (h : IsWritten u w) : EndsMember (w ++ unit ']' :: t) := by
  intro e after ht
  cases h with
  | plain => exact (List.cons.inj (List.cons.inj ht).2).1.symm
  | escaped => exact absurd (List.cons.inj ht).1 (by decide)

theorem IsWritten.eq_dash (h : IsWritten (unit '-') w) : w = [unit '-'] := by
  cases h with
  | plain => rfl
  | escaped hu => exact absurd hu (by decide)

theorem readClass_member (h : IsWritten u w) (ht : EndsMember t) :
    readClass info (limit + 1) (w ++ t) =
      (readClass info limit t).map fun r => ⟨.range u u :: r.result, r.rest⟩ := by
  obtain ⟨v, x, hw, hv⟩ := h.exists_cons
  have hatom : readClassAtom info (v :: (x ++ t)) = some ⟨.one u, t⟩ := by
    rw [← List.cons_append, ← hw, readClassAtom_append h]
  rw [hw, List.cons_append, readClass, if_neg (by simpa using hv), hatom]
  match t, ht with
  | [], _ | [_], _ =>
    simp only [Option.bind_eq_bind, Option.bind_some, Option.map_eq_bind]
    rfl
  | d :: e :: after, ht =>
    have hends : (d == unit '-' && e != unit ']') = false := by
      rw [Bool.and_eq_false_imp, beq_iff_eq, bne_eq_false_iff_eq]
      rintro rfl
      exact ht e after rfl
    simp only [Option.bind_eq_bind, Option.bind_some, Option.map_eq_bind, hends]
    rfl

theorem readClass_range (hu : IsWritten u w) (hv : IsWritten v x) :
    readClass info (limit + 1) (w ++ unit '-' :: (x ++ t)) =
      if v < u then none
      else (readClass info limit t).map fun r => ⟨.range u v :: r.result, r.rest⟩ := by
  obtain ⟨d, w', hw, hd⟩ := hu.exists_cons
  obtain ⟨e, x', hx, he⟩ := hv.exists_cons
  have hfirst : readClassAtom info (d :: (w' ++ unit '-' :: (e :: (x' ++ t)))) =
      some ⟨.one u, unit '-' :: e :: (x' ++ t)⟩ := by
    rw [← List.cons_append, ← hw, readClassAtom_append hu]
  have hlast : readClassAtom info (e :: (x' ++ t)) = some ⟨.one v, t⟩ := by
    rw [← List.cons_append, ← hx, readClassAtom_append hv]
  have hgoes : (unit '-' == unit '-' && e != unit ']') = true := by simpa using he
  rw [hw, hx, List.cons_append, List.cons_append, readClass, if_neg (by simpa using hd), hfirst]
  simp only [Option.bind_eq_bind, Option.bind_some, hgoes, if_true, hlast]
  split
  · simp
  · simp only [Option.map_eq_bind]
    rfl

/-- The members of a set are read as its ranges, unless one of them runs backwards. -/
theorem readClass_append (h : List.Forall₂ IsWritten members ws) (hlimit : members.length < limit) :
    readClass info limit (ws.flatten ++ unit ']' :: rest) =
      if areForward (ranges members) then
        some ⟨(ranges members).map fun r => .range r.1 r.2, rest⟩
      else none := by
  -- The induction follows the ranges: a range takes one of the limit, although it is three members.
  obtain ⟨limit, rfl⟩ : ∃ n, limit = n + 1 := ⟨limit - 1, by omega⟩
  fun_induction ranges members generalizing ws limit with
  | case1 =>
    cases h
    simp [readClass]
  | case2 u =>
    obtain ⟨limit, rfl⟩ : ∃ n, limit = n + 1 := ⟨limit - 1, by simp at hlimit; omega⟩
    obtain _ | ⟨hu, _ | _⟩ := h
    simp [readClass_member hu endsMember_bracket, readClass]
  | case3 u v =>
    obtain ⟨limit, rfl⟩ : ∃ n, limit = n + 2 := ⟨limit - 2, by simp at hlimit; omega⟩
    obtain _ | ⟨hu, _ | ⟨hv, _ | _⟩⟩ := h
    simp [readClass_member hu hv.endsMember_bracket, readClass_member hv endsMember_bracket,
      readClass]
  | case4 u v members ih =>
    simp only [List.length_cons] at hlimit
    obtain ⟨limit, rfl⟩ : ∃ n, limit = n + 1 := ⟨limit - 1, by omega⟩
    obtain _ | @⟨_, w, _, _, hu, _ | @⟨_, y, _, _, hd, _ | @⟨_, x, _, ws, hv, hmembers⟩⟩⟩ := h
    obtain rfl := hd.eq_dash
    have htext : (w :: [unit '-'] :: x :: ws).flatten ++ unit ']' :: rest =
        w ++ unit '-' :: (x ++ (ws.flatten ++ unit ']' :: rest)) := by simp
    rw [htext, readClass_range hu hv, ih hmembers limit (by omega)]
    split
    next hlt => simp [UInt16.not_le.2 hlt]
    next hle => cases hrest : areForward (ranges members) <;> simp [hrest, UInt16.not_lt.1 hle]
  | case5 u d v members hd ih =>
    simp only [List.length_cons] at hlimit
    obtain _ | @⟨_, w, _, ws, hu, hmembers⟩ := h
    have hends : EndsMember (ws.flatten ++ unit ']' :: rest) := by
      obtain _ | ⟨hd', _⟩ := hmembers
      rw [List.flatten_cons, List.append_assoc]
      exact hd'.endsMember hd
    have htext : (w :: ws).flatten ++ unit ']' :: rest =
        w ++ (ws.flatten ++ unit ']' :: rest) := by simp
    obtain ⟨limit, rfl⟩ : ∃ n, limit = n + 1 := ⟨limit - 1, by omega⟩
    rw [htext, readClass_member hu hends, ih hmembers limit (by simp; omega)]
    cases hrest : areForward (ranges (d :: v :: members)) <;> simp [hrest]

end Classes

/-! ## Pieces -/

section Parts

variable {info : Census} {limit : Nat} {finished : Finished} {current : Node} {u : UInt16}
  {rest t members : Text} {negated : Bool} {p : Piece} {ps : List Piece}

theorem readMark_cons (hu : u ∉ units "*+?\x7b") : readMark (u :: t) = none := by
  have hmarks : units "*+?\x7b" = [unit '*', unit '+', unit '?', unit '\x7b'] := by decide
  rw [hmarks] at hu
  simp only [List.mem_cons, List.not_mem_nil, or_false, not_or] at hu
  simp [readMark, hu]

theorem mem_special_iff :
    u ∈ special ↔ u = unit '.' ∨ u = unit '*' ∨ u = unit '+' ∨ u = unit '?' ∨ u = unit '^' ∨
      u = unit '$' ∨ u = unit '\x7b' ∨ u = unit '\x7d' ∨ u = unit '(' ∨ u = unit ')' ∨
      u = unit '|' ∨ u = unit '[' ∨ u = unit ']' ∨ u = unit '\\' ∨ u = unit '/' := by
  have hspecial : special = [unit '.', unit '*', unit '+', unit '?', unit '^', unit '$',
    unit '\x7b', unit '\x7d', unit '(', unit ')', unit '|', unit '[', unit ']', unit '\\',
    unit '/'] := by decide
  simp only [hspecial, List.mem_cons, List.not_mem_nil, or_false]

theorem mem_special_of_mem_marks (hu : u ∈ units "*+?\x7b") : u ∈ special := by
  have hmarks : (units "*+?\x7b").all (fun v => decide (v ∈ special)) = true := by decide
  simpa using List.all_eq_true.1 hmarks u hu

theorem readMark_piece (p : Piece) : readMark (p.text ++ t) = none := by
  cases p with
  | star => exact readMark_cons (by decide)
  | any => exact readMark_cons (by decide)
  | literal u =>
    rw [Piece.text, escape]
    split
    next => exact readMark_cons (by decide)
    next hu => exact readMark_cons (mt mem_special_of_mem_marks hu)
  | set negated members => exact readMark_cons (by decide)

theorem applyMark_of_none {openedBefore : Nat} {q : Progress} (h : readMark q.rest = none) :
    applyMark openedBefore q = some q := by
  rw [applyMark, h]

theorem applyMark_star (hrest : readMark rest = none) :
    applyMark 0 ⟨.anyUnit, true, unit '*' :: rest, .empty⟩ =
      some ⟨Piece.star.node, true, rest, .empty⟩ := by
  have hmark : readMark (unit '*' :: rest) = some (0, none, rest) := rfl
  rw [applyMark, hmark]
  cases rest with
  | nil => rfl
  | cons u rest =>
    have hlazy : u ≠ unit '?' := by
      rintro rfl
      cases hrest
    simp [hlazy, Piece.node, Groups.empty]

/-- Goes on behind a part that may have a repetition mark. -/
def goOn (info : Census) (limit : Nat) (finished : Finished) (current : Node)
    (part : Option Progress) : Option Progress :=
  part.bind fun q => (applyMark 0 q).bind fun q =>
    readAlternatives info limit modes finished (.sequence current q.node) q.groups q.rest

theorem goOn_some {node : Node} {repeatable : Bool} (hrest : readMark rest = none) :
    goOn info limit finished current (some ⟨node, repeatable, rest, .empty⟩) =
      readAlternatives info limit modes finished (.sequence current node) .empty rest := by
  rw [goOn, Option.bind_some, applyMark_of_none hrest]
  rfl

theorem readEscape_special (hu : u ∈ special) :
    readEscape info modes .empty (u :: rest) = some ⟨.literal false u, true, rest, .empty⟩ := by
  rw [mem_special_iff] at hu
  obtain rfl | rfl | rfl | rfl | rfl | rfl | rfl | rfl | rfl | rfl | rfl | rfl | rfl | rfl | rfl :=
    hu <;> rfl

theorem readAlternatives_unit (hu : u ∉ special) :
    readAlternatives info (limit + 1) modes finished current .empty (u :: rest) =
      goOn info limit finished current (some ⟨.literal false u, true, rest, .empty⟩) := by
  have hmark : readMark (u :: rest) = none := readMark_cons (mt mem_special_of_mem_marks hu)
  simp only [mem_special_iff, not_or] at hu
  simp only [readAlternatives, beq_iff_eq, hu, if_false, hmark, Option.isSome_none,
    Bool.false_eq_true]
  rfl

theorem readAlternatives_escape :
    readAlternatives info (limit + 1) modes finished current .empty (escape u ++ rest) =
      goOn info limit finished current (some ⟨.literal false u, true, rest, .empty⟩) := by
  rw [escape]
  split
  next hu =>
    rw [← readEscape_special hu]
    rfl
  next hu => exact readAlternatives_unit hu

theorem readAlternatives_negatedClass :
    readAlternatives info (limit + 1) modes finished current .empty
        (unit '[' :: unit '^' :: t) =
      goOn info limit finished current ((readClass info (t.length + 1) t).map fun r =>
        ⟨.oneOf false true r.result, true, r.rest, .empty⟩) :=
  rfl

theorem readAlternatives_class (hu : u ≠ unit '^') :
    readAlternatives info (limit + 1) modes finished current .empty (unit '[' :: u :: t) =
      goOn info limit finished current ((readClass info ((u :: t).length + 1) (u :: t)).map
        fun r => ⟨.oneOf false false r.result, true, r.rest, .empty⟩) := by
  -- The reader takes the mark of negation off first; what is left is given a name here.
  have hread : ∀ body, (if u == unit '^' then (true, t) else (false, u :: t)) = body →
      readAlternatives info (limit + 1) modes finished current .empty (unit '[' :: u :: t) =
        goOn info limit finished current ((readClass info (body.2.length + 1) body.2).map
          fun r => ⟨.oneOf false body.1 r.result, true, r.rest, .empty⟩) := by
    rintro _ rfl
    rfl
  exact hread (false, u :: t) (if_neg (by simpa using hu))

/-- The members of a set that is not negated do not begin with the mark of negation. -/
theorem exists_memberTexts_cons (rest members : Text) :
    ∃ u x, (memberTexts false members).flatten ++ unit ']' :: rest = u :: x ∧ u ≠ unit '^' := by
  cases members with
  | nil => exact ⟨unit ']', rest, rfl, by decide⟩
  | cons first others =>
    rw [memberTexts, List.flatten_cons]
    split
    next => exact ⟨unit '\\', _, rfl, by decide⟩
    next hfirst =>
      rw [escapeMember]
      split
      next => exact ⟨unit '\\', _, rfl, by decide⟩
      next => exact ⟨first, _, rfl, by simpa using hfirst⟩

theorem length_lt_of_forall₂ {members : Text} {ws : List Text}
    (h : List.Forall₂ IsWritten members ws) :
    members.length < (ws.flatten ++ unit ']' :: rest).length + 1 := by
  induction h with
  | nil => simp
  | cons hw _ ih =>
    obtain ⟨v, x, rfl, -⟩ := hw.exists_cons
    simp only [List.length_cons, List.flatten_cons, List.length_append] at ih ⊢
    omega

theorem map_readClass_append :
    ((readClass info (((memberTexts negated members).flatten ++ unit ']' :: rest).length + 1)
        ((memberTexts negated members).flatten ++ unit ']' :: rest)).map fun r =>
      (⟨.oneOf false negated r.result, true, r.rest, .empty⟩ : Progress)) =
    if (Piece.set negated members).isInOrder then
      some ⟨(Piece.set negated members).node, true, rest, .empty⟩
    else none := by
  have hwritten := forall₂_memberTexts negated members
  rw [readClass_append hwritten (length_lt_of_forall₂ hwritten), Piece.isInOrder]
  split <;> rfl

theorem readAlternatives_set :
    readAlternatives info (limit + 1) modes finished current .empty
        ((Piece.set negated members).text ++ rest) =
      goOn info limit finished current
        (if (Piece.set negated members).isInOrder then
          some ⟨(Piece.set negated members).node, true, rest, .empty⟩
        else none) := by
  cases negated with
  | true =>
    have htext : (Piece.set true members).text ++ rest =
        unit '[' :: unit '^' :: ((memberTexts true members).flatten ++ unit ']' :: rest) := by
      simp [Piece.text]
    rw [htext, readAlternatives_negatedClass, map_readClass_append]
  | false =>
    have htext : (Piece.set false members).text ++ rest =
        unit '[' :: ((memberTexts false members).flatten ++ unit ']' :: rest) := by
      simp [Piece.text]
    obtain ⟨u, x, hmembers, hu⟩ := exists_memberTexts_cons rest members
    rw [htext, hmembers, readAlternatives_class hu, ← hmembers, map_readClass_append]

/-- One piece is read as one part. -/
theorem readAlternatives_piece (hrest : readMark rest = none) :
    readAlternatives info (limit + 1) modes finished current .empty (p.text ++ rest) =
      if p.isInOrder then
        readAlternatives info limit modes finished (.sequence current p.node) .empty rest
      else none := by
  cases p with
  | star =>
    have hread : readAlternatives info (limit + 1) modes finished current .empty
        (Piece.star.text ++ rest) =
      goOn info limit finished current (some ⟨.anyUnit, true, unit '*' :: rest, .empty⟩) := rfl
    rw [hread, goOn, Option.bind_some, applyMark_star hrest]
    rfl
  | any =>
    have hread : readAlternatives info (limit + 1) modes finished current .empty
        (Piece.any.text ++ rest) =
      goOn info limit finished current (some ⟨.anyUnit, true, rest, .empty⟩) := rfl
    rw [hread, goOn_some hrest]
    rfl
  | literal u =>
    rw [Piece.text, readAlternatives_escape, goOn_some hrest]
    rfl
  | set negated members =>
    rw [readAlternatives_set]
    split
    next h => exact goOn_some hrest
    next h => rfl

/-! ## Whole patterns -/

/-- Puts the parts of pieces behind what has been read. -/
def chain (current : Node) (ps : List Piece) : Node :=
  ps.foldl (fun n p => .sequence n p.node) current

theorem readMark_pieces : readMark (ps.flatMap Piece.text ++ [unit '$']) = none := by
  cases ps with
  | nil => rfl
  | cons p ps =>
    rw [List.flatMap_cons, List.append_assoc]
    exact readMark_piece p

theorem readAlternatives_pieces (hlimit : ps.length + 1 < limit) :
    readAlternatives info limit modes (.start .empty) current .empty
        (ps.flatMap Piece.text ++ [unit '$']) =
      if ps.all (·.isInOrder) then
        some ⟨.sequence (chain current ps) .textEnd, true, [], .empty⟩
      else none := by
  induction ps generalizing limit current with
  | nil =>
    obtain ⟨limit, rfl⟩ : ∃ n, limit = n + 2 := ⟨limit - 2, by simp at hlimit; omega⟩
    rfl
  | cons p ps ih =>
    obtain ⟨limit, rfl⟩ : ∃ n, limit = n + 1 := ⟨limit - 1, by omega⟩
    rw [List.flatMap_cons, List.append_assoc, readAlternatives_piece readMark_pieces,
      List.all_cons]
    cases hp : p.isInOrder with
    | true =>
      rw [if_pos rfl, Bool.true_and, ih (by simp at hlimit; omega)]
      rfl
    | false => rfl

theorem resolve_piece (p : Piece) : p.node.resolve [] = some p.node := by
  cases p <;> rfl

theorem resolve_chain (h : current.resolve [] = some current) :
    (chain current ps).resolve [] = some (chain current ps) := by
  induction ps generalizing current with
  | nil => exact h
  | cons p ps ih =>
    refine ih ?_
    rw [Node.resolve, h, resolve_piece]
    rfl

theorem Piece.text_ne_nil (p : Piece) : p.text ≠ [] := by
  cases p with
  | star => decide
  | any => decide
  | literal u =>
    rw [Piece.text, escape]
    split
    · exact List.cons_ne_nil _ _
    · exact List.cons_ne_nil _ _
  | set negated members => exact List.cons_ne_nil _ _

theorem length_le_flatMap_text (ps : List Piece) : ps.length ≤ (ps.flatMap Piece.text).length := by
  induction ps with
  | nil => exact Nat.zero_le _
  | cons p ps ih =>
    have hp : 0 < p.text.length := List.length_pos_iff.2 p.text_ne_nil
    rw [List.flatMap_cons, List.length_append, List.length_cons]
    omega

/-- A pattern is read as the chain of its pieces, unless one of its ranges runs backwards. -/
theorem expression?_eq (h : Reads t ps) :
    expression? t =
      if ps.all (·.isInOrder) then
        some (.sequence (chain (.sequence .nothing .textStart) ps) .textEnd)
      else none := by
  have htext : translate t = unit '^' :: (ps.flatMap Piece.text ++ [unit '$']) := by
    rw [translate, translateFrom_eq h, List.cons_append]
  have hstart : ∀ info limit, readAlternatives info (limit + 1) modes (.start .empty) .nothing
      .empty (translate t) =
    readAlternatives info limit modes (.start .empty) (.sequence .nothing .textStart) .empty
      (ps.flatMap Piece.text ++ [unit '$']) := by
    intro info limit
    have hmark : readMark (ps.flatMap Piece.text ++ [unit '$']) = none := readMark_pieces
    rw [htext, ← goOn_some hmark]
    exact rfl
  have hlimit : ps.length + 1 < (translate t).length := by
    have hlength := length_le_flatMap_text ps
    simp only [htext, List.length_cons, List.length_append]
    omega
  rw [expression?, readIn, hstart, readAlternatives_pieces hlimit]
  split
  next =>
    have hresolve : (chain (.sequence .nothing .textStart) ps).resolve [] =
      some (chain (.sequence .nothing .textStart) ps) := resolve_chain rfl
    simp [Groups.empty, Node.resolve, hresolve]
  next => rfl

end Parts

end TreeExtraction.Glob
