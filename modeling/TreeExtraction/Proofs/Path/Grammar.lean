import TreeExtraction.Path.Reader
import TreeExtraction.Proofs.Text.Splitting

/-! # The grammar of paths

Derivation trees of path texts, one type for each rule of the grammar:

  * `path := accessor ('.' part)* | part ('.' part)*`
  * `part := identifier accessor*`
  * `accessor := '[' ws* (number | quoted | bare) ws* ']'`

A tree has a text and denotes steps. No text has two trees.
-/

namespace TreeExtraction.Path

/-- What stands in brackets. A number is a minus sign that may be missing and digits, and its value
lies in the range of indexes. A quoted key does not hold its quote. -/
inductive Content where
  | number (negative : Bool) (digits : Text) (nonempty : digits ≠ [])
    (decimal : digits.all Text.isDigit = true) (inRange : Text.toNat digits ≤ indexLimit)
  | quoted (quote : UInt16) (key : Text) (isQuote : isQuote quote = true)
    (inside : key.all (· != quote) = true)
  | bare (key : Text) (standsBare : isBareKey key = true)

/-- An accessor: content in brackets, with blanks around it. -/
structure Accessor where
  before : Text
  content : Content
  after : Text
  before_spaces : before.all isSpace = true
  after_spaces : after.all isSpace = true

/-- A part: an identifier and the accessors behind it. -/
structure Part where
  name : Text
  accessors : List Accessor
  isIdentifier : Text.isIdentifier name = true

/-- A path: an accessor or a part, and further parts behind points. -/
inductive Derivation where
  | accessor (first : Accessor) (parts : List Part)
  | part (first : Part) (parts : List Part)

/-- The minus sign of a number. -/
def sign (negative : Bool) : Text :=
  if negative then [unit '-'] else []

namespace Content

/-- The text of the content. -/
def text : Content → Text
  | number negative digits _ _ _ => sign negative ++ digits
  | quoted quote key _ _ => quote :: (key ++ [quote])
  | bare key _ => key

/-- The step that the content denotes. -/
def step : Content → Step
  | number negative digits _ _ _ => .index (.ofRatio negative (Text.toNat digits) 1)
  | quoted _ key _ _ => .key key
  | bare key _ => .key key

end Content

/-- The text of an accessor. -/
def Accessor.text (a : Accessor) : Text :=
  bracketed (a.before ++ (a.content.text ++ a.after))

/-- The step of an accessor. -/
def Accessor.step (a : Accessor) : Step :=
  a.content.step

/-- Accessors side by side. -/
def accessorText (as : List Accessor) : Text :=
  as.flatMap Accessor.text

/-- The text of a part. -/
def Part.text (p : Part) : Text :=
  p.name ++ accessorText p.accessors

/-- The steps of a part. -/
def Part.steps (p : Part) : List Step :=
  .attribute p.name :: p.accessors.map Accessor.step

/-- Parts, each behind a point. -/
def partText (ps : List Part) : Text :=
  ps.flatMap fun p => unit '.' :: p.text

namespace Derivation

/-- The text that a tree derives. -/
def text : Derivation → Text
  | accessor a ps => a.text ++ partText ps
  | part p ps => p.text ++ partText ps

/-- The steps that a tree denotes. -/
def steps : Derivation → List Step
  | accessor a ps => a.step :: ps.flatMap Part.steps
  | part p ps => p.steps ++ ps.flatMap Part.steps

end Derivation

/-! ## Classes of units -/

theorem isBareUnit_of_isDigit {u : UInt16} (h : Text.isDigit u = true) : isBareUnit u = true := by
  cases hb : isBareUnit u with
  | true => rfl
  | false =>
    simp only [isBareUnit, isSpace, Bool.and_eq_false_iff, bne_eq_false_iff_eq,
      Bool.not_eq_false', Bool.or_eq_true, beq_iff_eq] at hb
    rcases hb with rfl | (rfl | rfl) | rfl <;> exact absurd h (by decide)

theorem isSpace_of_isIndexStart {u : UInt16} (h : isIndexStart u = true) : isSpace u = false := by
  cases hs : isSpace u with
  | false => rfl
  | true =>
    simp only [isSpace, Bool.or_eq_true, beq_iff_eq] at hs
    rcases hs with (rfl | rfl) | rfl <;> exact absurd h (by decide)

theorem isSpace_of_isQuote {u : UInt16} (h : isQuote u = true) : isSpace u = false := by
  simp only [isQuote, Bool.or_eq_true, beq_iff_eq] at h
  rcases h with rfl | rfl <;> decide

theorem isIndexStart_of_isQuote {u : UInt16} (h : isQuote u = true) : isIndexStart u = false := by
  simp only [isQuote, Bool.or_eq_true, beq_iff_eq] at h
  rcases h with rfl | rfl <;> decide

theorem isSpace_of_isBareUnit {u : UInt16} (h : isBareUnit u = true) : isSpace u = false := by
  simp only [isBareUnit, Bool.and_eq_true, Bool.not_eq_true'] at h
  exact h.2

theorem all_of_isBareKey {k : Text} (h : isBareKey k = true) : k.all isBareUnit = true := by
  cases k with
  | nil => rfl
  | cons u k =>
    simp only [isBareKey, Bool.and_eq_true] at h
    exact h.2

/-- Behind blanks and a closing bracket no bare key goes on. -/
theorem stops_isBareUnit {s : Text} (hs : s.all isSpace = true) (t : Text) :
    Text.stops isBareUnit (s ++ unit ']' :: t) = true := by
  cases s with
  | nil => rfl
  | cons u s =>
    simp only [List.all_cons, Bool.and_eq_true] at hs
    simp [isBareUnit, hs.1]

/-! ## Uniqueness -/

namespace Content

/-- The first unit of content tells its kind and is no blank. -/
theorem exists_text_eq_cons (c : Content) : ∃ u rest, c.text = u :: rest ∧ isSpace u = false ∧
    match c with
    | number negative .. => isIndexStart u = true ∧ (u == unit '-') = negative
    | quoted quote .. => isIndexStart u = false ∧ isQuote u = true ∧ u = quote
    | bare .. => isIndexStart u = false ∧ isQuote u = false := by
  cases c with
  | number negative digits nonempty decimal _ =>
    rcases List.exists_cons_of_ne_nil nonempty with ⟨d, rest, rfl⟩
    simp only [List.all_cons, Bool.and_eq_true] at decimal
    cases negative with
    | true => exact ⟨unit '-', d :: rest, rfl, by decide, by decide, rfl⟩
    | false =>
      have hstart : isIndexStart d = true := by simp [isIndexStart, decimal.1]
      refine ⟨d, rest, rfl, isSpace_of_isIndexStart hstart, hstart, ?_⟩
      rw [beq_eq_false_iff_ne]
      rintro rfl
      exact absurd decimal.1 (by decide)
  | quoted quote key h _ =>
    exact ⟨quote, _, rfl, isSpace_of_isQuote h, isIndexStart_of_isQuote h, h, rfl⟩
  | bare key h =>
    cases key with
    | nil => cases h
    | cons u rest =>
      simp only [isBareKey, Bool.and_eq_true, Bool.not_eq_true', List.all_cons] at h
      exact ⟨u, rest, rfl, isSpace_of_isBareUnit h.2.1, h.1.1, h.1.2⟩

theorem stops_isSpace (c : Content) (t : Text) : Text.stops isSpace (c.text ++ t) = true := by
  rcases c.exists_text_eq_cons with ⟨u, rest, h, hu, -⟩
  simp [h, hu]

/-- Content is determined by a text that starts with it, unless a bare key may go on. -/
theorem append_inj {c e : Content} {t s : Text} (ht : Text.stops isBareUnit t = true)
    (hs : Text.stops isBareUnit s = true) (h : c.text ++ t = e.text ++ s) : c = e ∧ t = s := by
  rcases c.exists_text_eq_cons with ⟨u, rest, hu, -, hc⟩
  rcases e.exists_text_eq_cons with ⟨v, rest', hv, -, he⟩
  have huv : u = v := by
    rw [hu, hv] at h
    exact (List.cons.inj h).1
  subst huv
  cases c with
  | number negative digits nonempty decimal inRange =>
    cases e with
    | number negative' digits' nonempty' decimal' inRange' =>
      obtain rfl : negative = negative' := hc.2.symm.trans he.2
      simp only [text, List.append_assoc, List.append_cancel_left_eq] at h
      obtain ⟨rfl, rfl⟩ := Text.append_inj_of_stops decimal decimal'
        (Text.stops_of_imp (fun _ => isBareUnit_of_isDigit) ht)
        (Text.stops_of_imp (fun _ => isBareUnit_of_isDigit) hs) h
      exact ⟨rfl, rfl⟩
    | quoted quote key isQuote inside => exact absurd hc.1 (by simp [he.1])
    | bare key standsBare => exact absurd hc.1 (by simp [he.1])
  | quoted quote key isQuote inside =>
    cases e with
    | number negative digits nonempty decimal inRange => exact absurd he.1 (by simp [hc.1])
    | quoted quote' key' isQuote' inside' =>
      obtain rfl : quote = quote' := hc.2.2.symm.trans he.2.2
      simp only [text, List.cons_append, List.append_assoc, List.nil_append, List.cons.injEq,
        true_and] at h
      rcases Text.append_inj_of_stops inside inside' (by simp) (by simp) h with ⟨rfl, hrest⟩
      exact ⟨rfl, (List.cons.inj hrest).2⟩
    | bare key standsBare => exact absurd hc.2.1 (by simp [he.2])
  | bare key standsBare =>
    cases e with
    | number negative digits nonempty decimal inRange => exact absurd he.1 (by simp [hc.1])
    | quoted quote key isQuote inside => exact absurd he.2.1 (by simp [hc.2])
    | bare key' standsBare' =>
      obtain ⟨rfl, rfl⟩ := Text.append_inj_of_stops (all_of_isBareKey standsBare)
        (all_of_isBareKey standsBare') ht hs h
      exact ⟨rfl, rfl⟩

end Content

/-- An accessor is determined by a text that starts with it. -/
theorem Accessor.append_inj {a b : Accessor} {t s : Text} (h : a.text ++ t = b.text ++ s) :
    a = b ∧ t = s := by
  cases a with
  | mk before content after before_spaces after_spaces =>
  cases b with
  | mk before' content' after' before_spaces' after_spaces' =>
  simp only [text, bracketed, List.cons_append, List.append_assoc, List.nil_append,
    List.cons.injEq, true_and] at h
  obtain ⟨rfl, hinner⟩ := Text.append_inj_of_stops before_spaces before_spaces'
    (content.stops_isSpace _) (content'.stops_isSpace _) h
  obtain ⟨rfl, hafter⟩ := Content.append_inj (stops_isBareUnit after_spaces t)
    (stops_isBareUnit after_spaces' s) hinner
  rcases Text.append_inj_of_stops after_spaces after_spaces' rfl rfl hafter with ⟨rfl, hclose⟩
  exact ⟨rfl, (List.cons.inj hclose).2⟩

/-- Whether an accessor does not follow. -/
def endsAccessors (t : Text) : Bool :=
  Text.stops (· == unit '[') t

theorem accessorText_append_inj {as bs : List Accessor} {t s : Text}
    (ht : endsAccessors t = true) (hs : endsAccessors s = true)
    (h : accessorText as ++ t = accessorText bs ++ s) : as = bs ∧ t = s := by
  induction as generalizing bs with
  | nil =>
    cases bs with
    | nil => exact ⟨rfl, h⟩
    | cons b bs =>
      subst h
      cases ht
  | cons a as ih =>
    cases bs with
    | nil =>
      subst h
      cases hs
    | cons b bs =>
      simp only [accessorText, List.flatMap_cons, List.append_assoc] at h
      rcases Accessor.append_inj h with ⟨rfl, hrest⟩
      rcases ih hrest with ⟨rfl, rfl⟩
      exact ⟨rfl, rfl⟩

theorem endsAccessors_partText (ps : List Part) : endsAccessors (partText ps) = true := by
  cases ps with
  | nil => rfl
  | cons p ps => rfl

theorem stops_isIdentifierPart_partText (ps : List Part) :
    Text.stops Text.isIdentifierPart (partText ps) = true := by
  cases ps with
  | nil => rfl
  | cons p ps => exact (by decide : (!Text.isIdentifierPart (unit '.')) = true)

theorem stops_isIdentifierPart_accessorText (as : List Accessor) (ps : List Part) :
    Text.stops Text.isIdentifierPart (accessorText as ++ partText ps) = true := by
  cases as with
  | nil => exact stops_isIdentifierPart_partText ps
  | cons a as => exact (by decide : (!Text.isIdentifierPart (unit '[')) = true)

theorem all_of_isIdentifier {t : Text} (h : Text.isIdentifier t = true) :
    t.all Text.isIdentifierPart = true := by
  cases t with
  | nil => rfl
  | cons u t =>
    simp only [Text.isIdentifier, Bool.and_eq_true] at h
    simp [Text.isIdentifierPart, h.1] at h ⊢
    exact h

/-- A part is determined by a text in which only further parts follow it. -/
theorem Part.append_inj {p q : Part} {ps qs : List Part}
    (h : p.text ++ partText ps = q.text ++ partText qs) : p = q ∧ partText ps = partText qs := by
  cases p with
  | mk name accessors isIdentifier =>
  cases q with
  | mk name' accessors' isIdentifier' =>
  simp only [text, List.append_assoc] at h
  obtain ⟨rfl, hbehind⟩ := Text.append_inj_of_stops (all_of_isIdentifier isIdentifier)
    (all_of_isIdentifier isIdentifier') (stops_isIdentifierPart_accessorText _ _)
    (stops_isIdentifierPart_accessorText _ _) h
  obtain ⟨rfl, hparts⟩ := accessorText_append_inj (endsAccessors_partText ps)
    (endsAccessors_partText qs) hbehind
  exact ⟨rfl, hparts⟩

theorem partText_injective : Function.Injective partText := by
  intro ps qs h
  induction ps generalizing qs with
  | nil =>
    cases qs with
    | nil => rfl
    | cons q qs => cases h
  | cons p ps ih =>
    cases qs with
    | nil => cases h
    | cons q qs =>
      simp only [partText, List.flatMap_cons, List.cons_append, List.cons.injEq, true_and] at h
      rcases Part.append_inj h with ⟨rfl, hrest⟩
      rw [ih hrest]

/-- The first unit of a part is no opening bracket. -/
theorem Part.exists_text_eq_cons (p : Part) :
    ∃ u rest, p.text = u :: rest ∧ Text.isIdentifierStart u = true ∧ (u == unit '[') = false := by
  cases p with
  | mk name accessors isIdentifier =>
  cases name with
  | nil => cases isIdentifier
  | cons u name =>
    simp only [Text.isIdentifier, Bool.and_eq_true] at isIdentifier
    refine ⟨u, _, rfl, isIdentifier.1, ?_⟩
    rw [beq_eq_false_iff_ne]
    rintro rfl
    exact absurd isIdentifier.1 (by decide)

/-- No text has two derivations. -/
theorem Derivation.text_injective : Function.Injective Derivation.text := by
  intro d e h
  cases d with
  | accessor a ps =>
    cases e with
    | accessor b qs =>
      rcases Accessor.append_inj h with ⟨rfl, hparts⟩
      rw [partText_injective hparts]
    | part q qs =>
      rcases q.exists_text_eq_cons with ⟨u, rest, hq, -, hu⟩
      simp only [text, Accessor.text, bracketed, hq, List.cons_append, List.cons.injEq] at h
      rw [← h.1] at hu
      cases hu
  | part p ps =>
    cases e with
    | accessor b qs =>
      rcases p.exists_text_eq_cons with ⟨u, rest, hp, -, hu⟩
      simp only [text, Accessor.text, bracketed, hp, List.cons_append, List.cons.injEq] at h
      rw [h.1] at hu
      cases hu
    | part q qs =>
      rcases Part.append_inj h with ⟨rfl, hparts⟩
      rw [partText_injective hparts]

end TreeExtraction.Path
