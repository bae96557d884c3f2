import Mathlib.Data.List.TakeWhile
import TreeExtraction.Text.Basic

/-! # Runs of units at the start of a text

A run of units of one class, followed by a unit of another class or by the end of the text, is cut
off as a whole. So a text splits into such a run and the rest in one way only.
-/

namespace TreeExtraction.Text

/-- Whether a text does not go on with a unit of a class. -/
def stops (p : UInt16 → Bool) (t : Text) : Bool :=
  t.head?.all fun u => !p u

variable {p q : UInt16 → Bool} {s t s' t' : Text}

@[simp] theorem stops_nil : stops p [] = true := rfl

@[simp] theorem stops_cons {u : UInt16} : stops p (u :: t) = !p u := rfl

theorem stops_dropWhile : stops p (t.dropWhile p) = true := by
  induction t with
  | nil => rfl
  | cons u t ih =>
    rw [List.dropWhile_cons]
    split
    · exact ih
    · next h => simpa using h

/-- Where a larger class stops, a smaller one does. -/
theorem stops_of_imp (h : ∀ u, q u = true → p u = true) (ht : stops p t = true) :
    stops q t = true := by
  cases t with
  | nil => rfl
  | cons u t =>
    simp only [stops_cons, Bool.not_eq_true'] at ht ⊢
    cases hq : q u with
    | false => rfl
    | true => rw [h u hq] at ht; cases ht

theorem takeWhile_append (hs : s.all p = true) (ht : stops p t = true) :
    (s ++ t).takeWhile p = s := by
  rw [List.takeWhile_append_of_pos (List.all_eq_true.1 hs)]
  cases t with
  | nil => simp
  | cons u t => simp_all

theorem dropWhile_append (hs : s.all p = true) (ht : stops p t = true) :
    (s ++ t).dropWhile p = t := by
  rw [List.dropWhile_append_of_pos (List.all_eq_true.1 hs)]
  cases t with
  | nil => rfl
  | cons u t => simp_all

/-- A run and what follows it are determined by the text. -/
theorem append_inj_of_stops (hs : s.all p = true) (hs' : s'.all p = true) (ht : stops p t = true)
    (ht' : stops p t' = true) (h : s ++ t = s' ++ t') : s = s' ∧ t = t' := by
  constructor
  · rw [← takeWhile_append hs ht, h, takeWhile_append hs' ht']
  · rw [← dropWhile_append hs ht, h, dropWhile_append hs' ht']

/-! ## Blanks -/

/-- A text that starts with no blank is not trimmed away. -/
theorem trim_cons_ne_nil {u : UInt16} (hu : isBlank u = false) (t : Text) :
    trim (u :: t) ≠ [] := by
  intro h
  have hstart : trimStart (u :: t) = u :: t := List.dropWhile_cons_of_neg (by simp [hu])
  rw [trim, hstart, trimEnd, List.reverse_eq_nil_iff, List.dropWhile_eq_nil_iff] at h
  have hblank := h u (by simp)
  rw [hu] at hblank
  cases hblank

/-- Whether a text is another one with blanks around it. -/
def Padded (core t : Text) : Prop :=
  ∃ before after, before.all isBlank = true ∧ after.all isBlank = true ∧
    t = before ++ (core ++ after)

theorem padded_trim (t : Text) : Padded (trim t) t := by
  refine ⟨t.takeWhile isBlank, ((trimStart t).reverse.takeWhile isBlank).reverse, ?_, ?_, ?_⟩
  · exact List.all_takeWhile
  · rw [List.all_reverse]
    exact List.all_takeWhile
  · rw [trim, trimEnd, ← List.reverse_append, List.takeWhile_append_dropWhile,
      List.reverse_reverse, trimStart, List.takeWhile_append_dropWhile]

/-- Trimming takes the blanks around a text without blanks away. -/
theorem trim_of_padded {core : Text} (hcore : ∀ u ∈ core, isBlank u = false) (h : Padded core t) :
    trim t = core := by
  obtain ⟨before, after, hbefore, hafter, rfl⟩ := h
  have hdrop {s : Text} (hs : ∀ u ∈ s, isBlank u = false) : s.dropWhile isBlank = s := by
    cases s with
    | nil => rfl
    | cons u s => rw [List.dropWhile_cons_of_neg (by simp [hs u])]
  have hstart : trimStart (before ++ (core ++ after)) = (core ++ after).dropWhile isBlank := by
    rw [trimStart, List.dropWhile_append_of_pos (List.all_eq_true.1 hbefore)]
  rw [trim, hstart, trimEnd]
  cases core with
  | nil =>
    have hnone : ([] ++ after).dropWhile isBlank = [] :=
      List.dropWhile_eq_nil_iff.2 (List.all_eq_true.1 hafter)
    rw [hnone]
    rfl
  | cons u core =>
    have hfirst : (u :: core ++ after).dropWhile isBlank = u :: core ++ after :=
      List.dropWhile_cons_of_neg (by simp [hcore u])
    have hbehind : ∀ v ∈ after.reverse, isBlank v = true := fun v hv =>
      List.all_eq_true.1 hafter v (List.mem_reverse.1 hv)
    rw [hfirst, List.reverse_append, List.dropWhile_append_of_pos hbehind,
      hdrop (fun v hv => hcore v (List.mem_reverse.1 hv)), List.reverse_reverse]

theorem isBlank_of_isIdentifierStart {u : UInt16} (h : isIdentifierStart u = true) :
    isBlank u = false := by
  simp only [isIdentifierStart, unit, Bool.or_eq_true, Bool.and_eq_true, decide_eq_true_eq,
    beq_iff_eq, UInt16.le_iff_toNat_le, ← UInt16.toNat_inj] at h
  simp only [isBlank, Bool.or_eq_false_iff, Bool.and_eq_false_iff, decide_eq_false_iff_not,
    beq_eq_false_iff_ne, ne_eq, UInt16.le_iff_toNat_le, ← UInt16.toNat_inj]
  simp at h ⊢
  omega

end TreeExtraction.Text
