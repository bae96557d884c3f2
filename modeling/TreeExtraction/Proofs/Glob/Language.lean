import TreeExtraction.Glob
import TreeExtraction.Proofs.Text.Splitting

/-! # The language of glob patterns

A pattern is read from left to right as pieces, of which each describes units of its own kind, and a
text matches if it is cut into parts that its pieces describe one by one. Every pattern has exactly
one reading: a set ends at the first closing bracket behind its first member.
-/

namespace TreeExtraction.Glob

/-- A piece of a pattern. -/
inductive Piece where
  | star
  | any
  | literal (u : UInt16)
  | set (negated : Bool) (members : Text)
  deriving DecidableEq

/-- The ranges of the members of a set, from left to right. A dash between two units makes a range
of them, any other unit is a range of its own. -/
def ranges : Text → List (UInt16 × UInt16)
  | [] => []
  | [u] => [(u, u)]
  | [u, v] => [(u, u), (v, v)]
  | u :: d :: v :: rest =>
    if d = unit '-' then (u, v) :: ranges rest else (u, u) :: ranges (d :: v :: rest)

/-- Whether ranges run forwards. -/
def areForward (rs : List (UInt16 × UInt16)) : Bool :=
  rs.all fun r => r.1 ≤ r.2

@[simp] theorem areForward_nil : areForward [] = true := rfl

@[simp] theorem areForward_cons (r : UInt16 × UInt16) (rs : List (UInt16 × UInt16)) :
    areForward (r :: rs) = (decide (r.1 ≤ r.2) && areForward rs) := rfl

/-- Whether the ranges of a piece run forwards. -/
def Piece.isInOrder : Piece → Bool
  | .set _ members => areForward (ranges members)
  | _ => true

/-- Whether a unit lies in one of the ranges of a set. -/
def IsMember (u : UInt16) (members : Text) : Prop :=
  ∃ r ∈ ranges members, r.1 ≤ u ∧ u ≤ r.2

/-- What stands between the brackets of a set. The first member can be any unit, a closing bracket
too; only an exclamation mark there would negate the set. -/
inductive IsBody : (negated : Bool) → (members body : Text) → Prop
  | plain {first : UInt16} {others : Text} :
    first ≠ unit '!' → unit ']' ∉ others → IsBody false (first :: others) (first :: others)
  | negated {first : UInt16} {others : Text} :
    unit ']' ∉ others → IsBody true (first :: others) (unit '!' :: first :: others)

/-- Whether a set whose opening bracket comes just before the text is closed in it. -/
def ClosesSet (t : Text) : Prop :=
  ∃ negated members body rest, IsBody negated members body ∧ t = body ++ unit ']' :: rest

/-- A pattern with its pieces. -/
inductive Reads : Text → List Piece → Prop
  | nil : Reads [] []
  | star {t : Text} {ps : List Piece} : Reads t ps → Reads (unit '*' :: t) (.star :: ps)
  | any {t : Text} {ps : List Piece} : Reads t ps → Reads (unit '?' :: t) (.any :: ps)
  | set {negated : Bool} {members body rest t : Text} {ps : List Piece} :
    IsBody negated members body → t = body ++ unit ']' :: rest → Reads rest ps →
      Reads (unit '[' :: t) (.set negated members :: ps)
  | bracket {t : Text} {ps : List Piece} :
    ¬ClosesSet t → Reads t ps → Reads (unit '[' :: t) (.literal (unit '[') :: ps)
  | literal {u : UInt16} {t : Text} {ps : List Piece} :
    u ≠ unit '*' → u ≠ unit '?' → u ≠ unit '[' → Reads t ps → Reads (u :: t) (.literal u :: ps)

/-- Whether pieces describe a text as a whole. -/
inductive Describes : List Piece → Text → Prop
  | nil : Describes [] []
  | star {run t : Text} {ps : List Piece} : Describes ps t → Describes (.star :: ps) (run ++ t)
  | any {u : UInt16} {t : Text} {ps : List Piece} :
    Describes ps t → Describes (.any :: ps) (u :: t)
  | literal {u : UInt16} {t : Text} {ps : List Piece} :
    Describes ps t → Describes (.literal u :: ps) (u :: t)
  | set {negated : Bool} {members : Text} {u : UInt16} {t : Text} {ps : List Piece} :
    (IsMember u members ↔ negated = false) → Describes ps t →
      Describes (.set negated members :: ps) (u :: t)

/-- Whether a pattern has a range that runs backwards. -/
def HasReversedRange (pattern : Text) : Prop :=
  ∃ ps, Reads pattern ps ∧ ∃ p ∈ ps, p.isInOrder = false

/-! ## Where a set ends -/

section Bodies

variable {negated negated' : Bool} {members members' body lead inner rest s t : Text}

theorem all_ne_of_not_mem {u : UInt16} (h : u ∉ t) : t.all (· != u) = true :=
  List.all_eq_true.2 fun v hv => by simpa using ne_of_mem_of_not_mem hv h

theorem setBody?_append (lead inner : Text)
    (hlead : openingLength (lead ++ (inner ++ unit ']' :: rest)) = lead.length)
    (hinner : unit ']' ∉ inner) :
    setBody? (lead ++ (inner ++ unit ']' :: rest)) = some (lead ++ inner) := by
  have htake : (inner ++ unit ']' :: rest).takeWhile (· != unit ']') = inner :=
    Text.takeWhile_append (all_ne_of_not_mem hinner) (by simp)
  rw [setBody?, hlead, List.drop_left, htake, List.take_left, if_neg]
  simp only [List.length_append, List.length_cons]
  omega

theorem setBody?_eq_none (hlead : openingLength (lead ++ s) = lead.length) (hs : unit ']' ∉ s) :
    setBody? (lead ++ s) = none := by
  have htake : s.takeWhile (· != unit ']') = s :=
    List.takeWhile_eq_self_iff.2 (List.all_eq_true.1 (all_ne_of_not_mem hs))
  rw [setBody?, hlead, List.drop_left, htake, if_pos (by simp)]

theorem setBody?_of_isBody (h : IsBody negated members body) :
    setBody? (body ++ unit ']' :: rest) = some body := by
  cases h with
  | @plain first others hfirst hothers =>
    by_cases hbracket : first = unit ']'
    · subst hbracket
      exact setBody?_append [unit ']'] others (by cases others <;> rfl) hothers
    · have hmembers : unit ']' ∉ first :: others :=
        List.not_mem_cons_of_ne_of_not_mem (Ne.symm hbracket) hothers
      refine setBody?_append [] (first :: others) ?_ hmembers
      cases others <;> simp [openingLength, hfirst, hbracket]
  | @negated first others hothers =>
    by_cases hbracket : first = unit ']'
    · subst hbracket
      exact setBody?_append [unit '!', unit ']'] others rfl hothers
    · have hmembers : unit ']' ∉ first :: others :=
        List.not_mem_cons_of_ne_of_not_mem (Ne.symm hbracket) hothers
      refine setBody?_append [unit '!'] (first :: others) ?_ hmembers
      simp [openingLength, hbracket]

/-- The units at the start of a set that cannot close it, with what stands in the set if it is
closed behind them. -/
theorem exists_lead (t : Text) :
    ∃ lead s, t = lead ++ s ∧ openingLength t = lead.length ∧
      ∀ inner rest, s = inner ++ unit ']' :: rest → unit ']' ∉ inner →
        ∃ negated members, IsBody negated members (lead ++ inner) := by
  -- A set has a first member: where its leading units hold none, no closing bracket follows them.
  have first_inner {u : UInt16} {s inner rest : Text} (hu : u ≠ unit ']')
      (hs : u :: s = inner ++ unit ']' :: rest) : ∃ others, inner = u :: others := by
    cases inner with
    | nil => exact absurd (List.cons.inj hs).1 hu
    | cons v others => exact ⟨others, by rw [(List.cons.inj hs).1]⟩
  cases t with
  | nil => exact ⟨[], [], rfl, rfl, fun inner rest hs => by simp at hs⟩
  | cons u t =>
    by_cases hmark : u = unit '!'
    · subst hmark
      cases t with
      | nil => exact ⟨[unit '!'], [], rfl, rfl, fun inner rest hs => by simp at hs⟩
      | cons v t =>
        by_cases hbracket : v = unit ']'
        · subst hbracket
          exact ⟨[unit '!', unit ']'], t, rfl, rfl, fun inner rest _ hinner =>
            ⟨true, _, .negated hinner⟩⟩
        · refine ⟨[unit '!'], v :: t, rfl, by simp [openingLength, hbracket], ?_⟩
          intro inner rest hs hinner
          obtain ⟨others, rfl⟩ := first_inner hbracket hs
          exact ⟨true, _, .negated (List.not_mem_of_not_mem_cons hinner)⟩
    · by_cases hbracket : u = unit ']'
      · subst hbracket
        refine ⟨[unit ']'], t, rfl, by cases t <;> rfl, fun inner rest _ hinner => ?_⟩
        exact ⟨false, _, .plain hmark hinner⟩
      · refine ⟨[], u :: t, rfl, by cases t <;> simp [openingLength, hmark, hbracket], ?_⟩
        intro inner rest hs hinner
        obtain ⟨others, rfl⟩ := first_inner hbracket hs
        exact ⟨false, _, .plain hmark (List.not_mem_of_not_mem_cons hinner)⟩

theorem setBody?_of_not_closesSet (h : ¬ClosesSet t) : setBody? t = none := by
  obtain ⟨lead, s, rfl, hlead, hbody⟩ := exists_lead t
  refine setBody?_eq_none hlead fun hs => h ?_
  obtain ⟨inner, rest, rfl, hinner⟩ := List.eq_append_cons_of_mem hs
  obtain ⟨negated, members, hset⟩ := hbody inner rest rfl hinner
  exact ⟨negated, members, lead ++ inner, rest, hset, by rw [List.append_assoc]⟩

theorem IsBody.unique (h : IsBody negated members body) (h' : IsBody negated' members' body) :
    negated = negated' ∧ members = members' := by
  cases h with
  | plain hfirst _ =>
    cases h' with
    | plain => exact ⟨rfl, rfl⟩
    | negated => exact absurd rfl hfirst
  | negated =>
    cases h' with
    | plain hfirst => exact absurd rfl hfirst
    | negated => exact ⟨rfl, rfl⟩

end Bodies

/-! ## The one reading of a pattern -/

section Readings

variable {u : UInt16} {t : Text} {ps qs : List Piece}

theorem exists_reads (t : Text) : ∃ ps, Reads t ps := by
  -- A set takes many units at once, so the induction is on the length.
  induction hlength : t.length using Nat.strong_induction_on generalizing t with
  | _ n ih =>
    subst hlength
    cases t with
    | nil => exact ⟨[], .nil⟩
    | cons u t =>
      obtain ⟨qs, hqs⟩ := ih t.length (by simp) t rfl
      by_cases hstar : u = unit '*'
      · subst hstar
        exact ⟨_, .star hqs⟩
      · by_cases hany : u = unit '?'
        · subst hany
          exact ⟨_, .any hqs⟩
        · by_cases hbracket : u = unit '['
          · subst hbracket
            by_cases hset : ClosesSet t
            · obtain ⟨negated, members, body, rest, hbody, rfl⟩ := hset
              obtain ⟨qs, hqs⟩ := ih rest.length (by simp; omega) rest rfl
              exact ⟨_, .set hbody rfl hqs⟩
            · exact ⟨_, .bracket hset hqs⟩
          · exact ⟨_, .literal hstar hany hbracket hqs⟩

theorem Reads.unique (h : Reads t ps) (h' : Reads t qs) : ps = qs := by
  induction h generalizing qs with
  | nil =>
    cases h'
    rfl
  | star _ ih =>
    cases h' with
    | star h' => rw [ih h']
    | literal hstar => exact absurd rfl hstar
  | any _ ih =>
    cases h' with
    | any h' => rw [ih h']
    | literal _ hany => exact absurd rfl hany
  | @set negated members body rest t ps hbody ht _ ih =>
    cases h' with
    | @set negated' members' body' rest' _ qs hbody' ht' h' =>
      obtain rfl : body = body' := by
        have hfound : setBody? (body ++ unit ']' :: rest) = some body := setBody?_of_isBody hbody
        rw [← ht, ht', setBody?_of_isBody hbody'] at hfound
        exact (Option.some.inj hfound).symm
      obtain ⟨rfl, rfl⟩ := hbody.unique hbody'
      obtain rfl : rest = rest' := (List.cons.inj (List.append_cancel_left (ht.symm.trans ht'))).2
      rw [ih h']
    | bracket hopen => exact absurd ⟨negated, members, body, rest, hbody, ht⟩ hopen
    | literal _ _ hbracket => exact absurd rfl hbracket
  | bracket hopen _ ih =>
    cases h' with
    | set hbody ht => exact absurd ⟨_, _, _, _, hbody, ht⟩ hopen
    | bracket _ h' => rw [ih h']
    | literal _ _ hbracket => exact absurd rfl hbracket
  | literal hstar hany hbracket _ ih =>
    cases h' with
    | star => exact absurd rfl hstar
    | any => exact absurd rfl hany
    | set => exact absurd rfl hbracket
    | bracket => exact absurd rfl hbracket
    | literal _ _ _ h' => rw [ih h']

theorem hasReversedRange_iff (h : Reads t ps) :
    HasReversedRange t ↔ ∃ p ∈ ps, p.isInOrder = false := by
  constructor
  · rintro ⟨qs, hqs, hreversed⟩
    rwa [h.unique hqs]
  · exact fun hreversed => ⟨ps, h, hreversed⟩

end Readings

end TreeExtraction.Glob
