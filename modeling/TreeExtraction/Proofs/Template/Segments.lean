import Mathlib.Data.List.Infix
import TreeExtraction.Template

/-! # Segments of a text

A placeholder begins at the first opening that is left of a text and ends at the first closing brace
behind it. An opening without a closing brace behind it is plain text, with all that follows. So a
text is cut into segments in one way only, and a single scan finds it.
-/

namespace TreeExtraction

/-- A placeholder as it is written. -/
def placeholder (expression : Text) : Text :=
  placeholderOpening ++ expression ++ [unit '\x7d']

/-- Whether a text has an opening with a closing brace somewhere behind it. -/
def HoldsPlaceholder (t : Text) : Prop :=
  ∃ before rest, t = before ++ placeholderOpening ++ rest ∧ unit '\x7d' ∈ rest

variable {t before rest l e passed : Text}

/-! ## The first opening -/

/-- A text with an opening has a first one: there is none before it, and all others lie behind. -/
theorem exists_first_opening (h : placeholderOpening <:+: t) :
    ∃ before rest, t = before ++ placeholderOpening ++ rest ∧ ¬placeholderOpening <:+: before ∧
      ∀ before' rest', t = before' ++ placeholderOpening ++ rest' → rest' <:+ rest := by
  induction t with
  | nil => simp [placeholderOpening] at h
  | cons u t ih =>
    by_cases hstart : placeholderOpening <+: u :: t
    · obtain ⟨rest, hrest⟩ := hstart
      refine ⟨[], rest, hrest.symm, by simp [placeholderOpening], fun before' rest' h' => ?_⟩
      have hlength : rest'.length ≤ rest.length := by
        have hcut := congrArg List.length (hrest.trans h')
        simp only [List.length_append] at hcut
        omega
      exact List.suffix_of_suffix_length_le ⟨_, h'.symm⟩ ⟨_, hrest⟩ hlength
    · have hinside := (List.infix_cons_iff.1 h).resolve_left hstart
      obtain ⟨before, rest, rfl, hbefore, hfirst⟩ := ih hinside
      refine ⟨u :: before, rest, rfl, fun hinfix => ?_, fun before' rest' h' => ?_⟩
      · rcases List.infix_cons_iff.1 hinfix with hstarts | hinfix
        · refine hstart (hstarts.trans ?_)
          simp [List.prefix_append]
        · exact hbefore hinfix
      · cases before' with
        | nil => exact absurd ⟨rest', h'.symm⟩ hstart
        | cons v before' =>
          rw [List.cons_append, List.cons_append] at h'
          exact hfirst before' rest' (List.cons.inj h').2

namespace Segments

/-- The text that segments are cut from. -/
def text (s : Segments) : Text :=
  s.pieces.flatMap (fun p => p.1 ++ placeholder p.2) ++ s.tail

/-- Whether the placeholders are those that are met from left to right. -/
structure IsLeftmost (s : Segments) : Prop where
  literal : ∀ p ∈ s.pieces, ¬placeholderOpening <:+: p.1
  expression : ∀ p ∈ s.pieces, unit '\x7d' ∉ p.2
  tail : ¬HoldsPlaceholder s.tail

/-! ## The scan -/

/-- The scan passes over literal text. -/
theorem scan_literal_append (h : ¬placeholderOpening <:+: passed.reverse ++ l) :
    scan (.literal passed) (l ++ rest) = scan (.literal (l.reverse ++ passed)) rest := by
  induction l generalizing passed with
  | nil => rfl
  | cons u l ih =>
    have hstep : scan (.literal passed) (u :: (l ++ rest)) =
        scan (.literal (u :: passed)) (l ++ rest) := by
      cases passed with
      | nil => rw [scan]
      | cons d before =>
        rw [scan, if_neg]
        intro hopening
        rw [Bool.and_eq_true, beq_iff_eq, beq_iff_eq] at hopening
        refine h ⟨before.reverse, l, ?_⟩
        simp [placeholderOpening, hopening.1, hopening.2]
    rw [List.cons_append, hstep, ih (by simpa using h)]
    simp

theorem scan_literal_opening (passed rest : Text) :
    scan (.literal passed) (placeholderOpening ++ rest) = scan (.expression passed []) rest := by
  have hdollar : (unit '$' == unit '\x7b') = false := by decide
  rw [placeholderOpening, List.cons_append, List.cons_append, List.nil_append, scan.eq_def]
  cases passed with
  | nil => simp [scan]
  | cons d before => simp [scan, hdollar]

/-- An expression ends at the first closing brace. -/
theorem scan_expression_append (h : unit '\x7d' ∉ e) :
    scan (.expression l passed) (e ++ unit '\x7d' :: rest) =
      (scan (.literal []) rest).push l.reverse (passed.reverse ++ e) := by
  induction e generalizing passed with
  | nil => simp [scan]
  | cons u e ih =>
    rw [List.mem_cons, not_or] at h
    rw [List.cons_append, scan, if_neg (by simpa using Ne.symm h.1), ih h.2]
    simp

/-- Without a closing brace there is no placeholder. -/
theorem scan_expression_open (h : unit '\x7d' ∉ e) : scan (.expression l passed) e =
    ⟨[], l.reverse ++ placeholderOpening ++ (passed.reverse ++ e)⟩ := by
  induction e generalizing passed with
  | nil => simp [scan]
  | cons u e ih =>
    rw [List.mem_cons, not_or] at h
    rw [scan, if_neg (by simpa using Ne.symm h.1), ih h.2]
    simp

theorem ofText_piece (hl : ¬placeholderOpening <:+: l) (he : unit '\x7d' ∉ e) :
    ofText (l ++ placeholder e ++ rest) = (ofText rest).push l e := by
  have hcut : l ++ placeholder e ++ rest =
      l ++ (placeholderOpening ++ (e ++ unit '\x7d' :: rest)) := by simp [placeholder]
  rw [ofText, hcut, scan_literal_append (by simpa using hl), scan_literal_opening,
    scan_expression_append he, ofText]
  simp

theorem ofText_of_not_holds (h : ¬HoldsPlaceholder t) : ofText t = ⟨[], t⟩ := by
  by_cases hopening : placeholderOpening <:+: t
  · obtain ⟨before, rest, rfl, hbefore, -⟩ := exists_first_opening hopening
    have hrest : unit '\x7d' ∉ rest := fun hmem => h ⟨before, rest, rfl, hmem⟩
    rw [ofText, List.append_assoc, scan_literal_append (by simpa using hbefore),
      scan_literal_opening, scan_expression_open hrest]
    simp
  · have hscan : scan (.literal []) (t ++ []) = scan (.literal t.reverse) [] := by
      rw [scan_literal_append (by simpa using hopening), List.append_nil]
    rw [List.append_nil] at hscan
    rw [ofText, hscan]
    simp [scan]

/-! ## The one way to cut a text -/

theorem ofText_text {s : Segments} (h : s.IsLeftmost) : ofText s.text = s := by
  rcases s with ⟨pieces, tail⟩
  induction pieces with
  | nil => exact ofText_of_not_holds h.tail
  | cons p pieces ih =>
    have hrest : ofText (text ⟨pieces, tail⟩) = ⟨pieces, tail⟩ :=
      ih ⟨fun q hq => h.literal q (List.mem_cons_of_mem _ hq),
        fun q hq => h.expression q (List.mem_cons_of_mem _ hq), h.tail⟩
    have hcut : text ⟨p :: pieces, tail⟩ = p.1 ++ placeholder p.2 ++ text ⟨pieces, tail⟩ := by
      simp [text]
    rw [hcut, ofText_piece (h.literal p List.mem_cons_self) (h.expression p List.mem_cons_self),
      hrest]
    rfl

theorem exists_isLeftmost (t : Text) : ∃ s : Segments, s.text = t ∧ s.IsLeftmost := by
  induction hlength : t.length using Nat.strong_induction_on generalizing t with
  | h n ih =>
    by_cases hholds : HoldsPlaceholder t
    · obtain ⟨before', rest', ht, hclosing⟩ := hholds
      obtain ⟨before, rest, rfl, hbefore, hfirst⟩ := exists_first_opening ⟨before', rest', ht.symm⟩
      have hmem : unit '\x7d' ∈ rest := (hfirst before' rest' ht).mem hclosing
      obtain ⟨e, rest, rfl, he⟩ := List.eq_append_cons_of_mem hmem
      have hshorter : rest.length < n := by
        simp only [List.length_append, List.length_cons] at hlength
        omega
      obtain ⟨s, hs, hleftmost⟩ := ih rest.length hshorter rest rfl
      refine ⟨s.push before e, ?_, ?_, ?_, hleftmost.tail⟩
      · simp [text, push, placeholder, ← hs]
      · exact List.forall_mem_cons.2 ⟨hbefore, hleftmost.literal⟩
      · exact List.forall_mem_cons.2 ⟨he, hleftmost.expression⟩
    · exact ⟨⟨[], t⟩, rfl, nofun, nofun, hholds⟩

/-- The scan cuts a text in the one way in which it can be cut from left to right. -/
theorem isLeftmost_iff {s : Segments} : s.text = t ∧ s.IsLeftmost ↔ s = ofText t := by
  constructor
  · rintro ⟨rfl, h⟩
    exact (ofText_text h).symm
  · rintro rfl
    obtain ⟨s, rfl, h⟩ := exists_isLeftmost t
    rw [ofText_text h]
    exact ⟨rfl, h⟩

theorem pieces_ofText_ne_nil : (ofText t).pieces ≠ [] ↔ HoldsPlaceholder t := by
  rw [← not_iff_not, not_not]
  constructor
  · intro hpieces
    obtain ⟨htext, hleftmost⟩ := isLeftmost_iff.2 (rfl : ofText t = ofText t)
    have htail : (ofText t).tail = t := by simpa [text, hpieces] using htext
    exact htail ▸ hleftmost.tail
  · intro h
    rw [ofText_of_not_holds h]

instance (t : Text) : Decidable (HoldsPlaceholder t) :=
  decidable_of_iff _ pieces_ofText_ne_nil

/-- The expression of a text that is one placeholder and nothing else. -/
def whole? : Segments → Option Text
  | ⟨[([], expression)], []⟩ => some expression
  | _ => none

theorem whole?_ofText : (ofText t).whole? = some e ↔ t = placeholder e ∧ unit '\x7d' ∉ e := by
  constructor
  · intro h
    obtain ⟨htext, hleftmost⟩ := isLeftmost_iff.2 (rfl : ofText t = ofText t)
    rw [whole?.eq_def] at h
    split at h
    · next expression hcut =>
      cases h
      rw [hcut] at htext hleftmost
      exact ⟨by simpa [text] using htext.symm, hleftmost.expression _ (List.mem_singleton_self _)⟩
    · cases h
  · rintro ⟨rfl, he⟩
    have hcut : (⟨[([], e)], []⟩ : Segments) = ofText (placeholder e) := by
      refine isLeftmost_iff.1 ⟨by simp [text], ?_, ?_, ?_⟩
      · simp [placeholderOpening]
      · simpa using he
      · simp [HoldsPlaceholder, placeholderOpening]
    rw [← hcut, whole?]

end Segments

end TreeExtraction
