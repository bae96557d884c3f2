import TreeExtraction.Proofs.Format.Notations
import TreeExtraction.Proofs.Number.Whole
import TreeExtraction.Proofs.Outcome

/-! # Integer parts

Every finite number has an integer part: digits in the radix of its code, before a point, an
exponent or a percent sign. These are decimal digits but in a hexadecimal number.
-/

namespace TreeExtraction.Format

open Outcome

variable {s : Specifier} {x : Magnitude} {body : Text}

/-! ## Digits of a code -/

/-- Whether a unit is a digit in the radix of a code. -/
def isDigitOf (c : Option Code) (u : UInt16) : Bool :=
  match c with
  | some .hex => Text.isDigit u || unit 'a' ≤ u && u ≤ unit 'f'
  | some .hexUpper => Text.isDigit u || unit 'A' ≤ u && u ≤ unit 'F'
  | some .octal => unit '0' ≤ u && u ≤ unit '7'
  | some .binary => u == unit '0' || u == unit '1'
  | _ => Text.isDigit u

/-- Whether a unit may stand behind the integer digits of a number. -/
def endsInteger (u : UInt16) : Bool :=
  u == unit '.' || u == unit 'e' || u == unit 'E' || u == unit '%'

/-- Whether a number without its mark has these digits before a point, an exponent or a percent
sign, in the radix of its code. Only an infinite percentage has none. -/
structure IsIntegerPart (c : Option Code) (digits tail : Text) : Prop where
  inRadix : digits.all (isDigitOf c) = true
  ends : (digits ≠ [] ∧ ∀ u ∈ tail.head?, isDigitOf c u = false ∧ endsInteger u = true) ∨
    (digits = [] ∧ tail = units "Infinity%")
  plain : ∀ g : Grouping, g.unit ∉ tail

theorem isDigit_of_endsInteger {u : UInt16} (h : endsInteger u = true) :
    Text.isDigit u = false := by
  simp only [endsInteger, Bool.or_eq_true, beq_iff_eq, or_assoc] at h
  rcases h with rfl | rfl | rfl | rfl <;> decide

theorem isDigitOf_grouping (c : Option Code) (g : Grouping) : isDigitOf c g.unit = false := by
  rcases c with _ | c
  · cases g <;> decide
  · cases g <;> cases c <;> decide

/-- Only hexadecimal digits are not decimal ones. -/
theorem isDigit_of_isDigitOf {c : Option Code} (hsmall : c ≠ some .hex)
    (hcapital : c ≠ some .hexUpper) {u : UInt16} (h : isDigitOf c u = true) :
    Text.isDigit u = true := by
  rw [isDigitOf.eq_def] at h
  split at h
  · exact absurd rfl hsmall
  · exact absurd rfl hcapital
  · rw [Bool.and_eq_true, decide_eq_true_eq, decide_eq_true_eq] at h
    rw [Text.isDigit, Bool.and_eq_true, decide_eq_true_eq, decide_eq_true_eq]
    exact ⟨h.1, UInt16.le_trans h.2 (by decide)⟩
  · rw [Bool.or_eq_true, beq_iff_eq, beq_iff_eq] at h
    rcases h with rfl | rfl <;> decide
  · exact h

namespace IsIntegerPart

variable {c : Option Code} {digits lead letters tail : Text}

theorem notMem_digits (h : IsIntegerPart c digits tail) (g : Grouping) : g.unit ∉ digits := by
  intro hmem
  have hdigit := List.all_eq_true.1 h.inRadix _ hmem
  rw [isDigitOf_grouping] at hdigit
  cases hdigit

theorem stops_tail (h : IsIntegerPart c digits tail) : Text.stops Text.isDigit tail = true := by
  rcases h.ends with ⟨-, htail⟩ | ⟨-, rfl⟩
  · cases tail with
    | nil => rfl
    | cons u tail =>
      rw [Text.stops_cons, isDigit_of_endsInteger (htail u rfl).2]
      rfl
  · decide

theorem letters_eq_nil (h : IsIntegerPart c (lead ++ letters) tail)
    (hsmall : c ≠ some .hex) (hcapital : c ≠ some .hexUpper)
    (hletters : Text.stops Text.isDigit letters = true) : letters = [] := by
  cases letters with
  | nil => rfl
  | cons u letters =>
    have hu := List.all_eq_true.1 h.inRadix u (by simp)
    rw [Text.stops_cons, isDigit_of_isDigitOf hsmall hcapital hu] at hletters
    cases hletters

/-- The digits of a whole number are all there is. -/
theorem of_nil (hne : digits ≠ []) (hdigits : digits.all (isDigitOf c) = true) :
    IsIntegerPart c digits [] :=
  ⟨hdigits, .inl ⟨hne, nofun⟩, fun _ => List.not_mem_nil⟩

theorem isNumeric_grouping (g : Grouping) : Conversion.isNumeric g.unit = false := by
  cases g <;> decide

theorem endsInteger_of_head? (l : Layout) {percent : Text}
    (hpercent : percent = [] ∨ percent = [unit '%']) :
    ∀ u ∈ (l.behind ++ percent).head?, endsInteger u = true := by
  intro u hu
  rw [List.head?_append] at hu
  cases hbehind : l.behind.head? with
  | some v =>
    rw [hbehind] at hu
    obtain rfl : v = u := Option.some.inj hu
    rcases l.head?_behind v hbehind with rfl | rfl | rfl <;> decide
  | none =>
    rw [hbehind] at hu
    rcases hpercent with rfl | rfl
    · cases hu
    · obtain rfl := Option.some.inj hu
      decide

/-- The digits before the point of a layout, whether or not a percent sign follows it. -/
theorem of_layout (hc : ∀ u, isDigitOf c u = Text.isDigit u) (l : Layout) {percent : Text}
    (hpercent : percent = [] ∨ percent = [unit '%']) :
    IsIntegerPart c l.whole (l.behind ++ percent) := by
  obtain ⟨hne, hdigits⟩ := Conversion.isDigits_iff.1 l.isRun
  refine ⟨?_, .inl ⟨hne, ?_⟩, ?_⟩
  · rw [← hdigits]
    exact congrArg (List.all l.whole) (funext hc)
  · intro u hu
    have hends := endsInteger_of_head? l hpercent u hu
    rw [hc]
    exact ⟨isDigit_of_endsInteger hends, hends⟩
  · intro g hmem
    rcases List.mem_append.1 hmem with hmem | hmem
    · have hnumeric := l.isNumeric_of_mem _ (List.mem_append_right _ hmem)
      rw [isNumeric_grouping] at hnumeric
      cases hnumeric
    · rcases hpercent with rfl | rfl
      · cases hmem
      · cases g <;> exact absurd hmem (by decide)

end IsIntegerPart

/-! ## Numbers of each code -/

/-- Whether a number without its mark has an integer part. -/
def HasIntegerPart (c : Option Code) (body : Text) : Prop :=
  ∃ digits tail, digits ++ tail = body ∧ IsIntegerPart c digits tail

theorem hasIntegerPart_of_layout {c : Option Code} (hc : ∀ u, isDigitOf c u = Text.isDigit u)
    (h : ∃ l : Layout, l.text = body) : HasIntegerPart c body := by
  obtain ⟨l, rfl⟩ := h
  refine ⟨l.whole, l.behind ++ [], ?_, .of_layout hc l (.inl rfl)⟩
  rw [List.append_nil]
  rfl

theorem all_ofNatBase {base : Nat} (hb : 2 ≤ base) {p : UInt16 → Bool}
    (hp : ∀ d < base, p (Text.digitUnit d) = true) (n : Nat) :
    (Text.ofNatBase base n).all p = true := by
  rw [Text.ofNatBase, List.all_map, List.all_eq_true]
  exact fun d hd => hp d (Text.digits_lt hb hd)

theorem ofNatBase_ne_nil {base : Nat} (hb : 2 ≤ base) (n : Nat) : Text.ofNatBase base n ≠ [] :=
  mt List.map_eq_nil_iff.1 (Text.digits_ne_nil hb n)

/-- Capital hexadecimal digits are the small ones, raised. -/
theorem toUpper_ofNatBase (n : Nat) :
    Text.toUpper (Text.ofNatBase 16 n) = (Text.ofNatBase 16 n).map Text.upperUnit := by
  have hlow : (Text.ofNatBase 16 n).all (fun u => decide (u.toNat < 128)) = true :=
    all_ofNatBase (by decide) (by decide) n
  exact Text.toUpper_of_lt fun u hu => of_decide_eq_true (List.all_eq_true.1 hlow u hu)

theorem exists_of_generalText {precision : Nat} (h : generalText x precision = .ok body) :
    ∃ l : Layout, l.text = body := by
  obtain ⟨-, rfl⟩ := withPlaces_eq_ok.1 h
  obtain ⟨l, -, htext⟩ := Layout.exists_generalText x (Nat.ne_of_gt (Nat.le_max_right precision 1))
  exact ⟨l.stripped.padded, htext⟩

/-- A percentage is not negative, and it is a number. -/
theorem exists_mul_hundred (x : Magnitude) :
    ∃ y, Number.mul (.finite false x) (.ofNat 100) = .ofMagnitude false y := by
  obtain ⟨y, hy, -⟩ := Number.exists_ofRatio_whole false (k := 100) (by norm_num)
  rw [Number.ofNat, hy]
  exact ⟨_, by rw [Number.mul, bne_self_eq_false]⟩

theorem hasIntegerPart_of_percentText {c : Option Code} {precision : Nat}
    (hc : ∀ u, isDigitOf c u = Text.isDigit u) (h : percentText x precision = .ok body) :
    HasIntegerPart c body := by
  obtain ⟨-, rfl⟩ := withPlaces_eq_ok.1 h
  obtain ⟨y, hy⟩ := exists_mul_hundred x
  rw [hy]
  cases y with
  | none => exact ⟨[], units "Infinity%", rfl, rfl, .inr ⟨rfl, rfl⟩, fun g => by cases g <;> decide⟩
  | some y =>
    obtain ⟨l, -, htext⟩ := Layout.exists_fixedText y precision
    refine ⟨l.whole, l.behind ++ [unit '%'], ?_, .of_layout hc l (.inr rfl)⟩
    rw [← List.append_assoc]
    exact congrArg (· ++ _) htext

theorem hasIntegerPart_of_ofNatBase {c : Option Code} {base : Nat} (hb : 2 ≤ base) (n : Nat)
    (hc : ∀ d < base, isDigitOf c (Text.digitUnit d) = true) :
    HasIntegerPart c (Text.ofNatBase base n) :=
  ⟨_, [], List.append_nil _, .of_nil (ofNatBase_ne_nil hb n) (all_ofNatBase hb hc n)⟩

theorem hasIntegerPart_of_hexUpper (n : Nat) :
    HasIntegerPart (some .hexUpper) (Text.toUpper (Text.ofNatBase 16 n)) := by
  have hdigits : ∀ d < 16, isDigitOf (some .hexUpper) (Text.upperUnit (Text.digitUnit d)) = true :=
    by decide
  rw [toUpper_ofNatBase]
  refine ⟨_, [], List.append_nil _, .of_nil ?_ ?_⟩
  · exact mt List.map_eq_nil_iff.1 (ofNatBase_ne_nil (by decide) n)
  · rw [List.all_map]
    exact all_ofNatBase (by decide) hdigits n

/-- Whatever the code, a number has an integer part. -/
theorem hasIntegerPart_of_magnitudeText (h : magnitudeText s x = .ok body) :
    HasIntegerPart s.code body := by
  have hfixed {count : Nat} : ∃ l : Layout, l.text = x.fixedText count :=
    (Layout.exists_fixedText x count).imp fun _ hl => hl.2
  have hscientific {count : Nat} : ∃ l : Layout, l.text = padExponent (x.scientificText count) :=
    Layout.exists_padded (Layout.exists_scientificText x count)
  have hshortest : ∃ l : Layout, l.text = padExponent x.toText :=
    Layout.exists_padded (Layout.exists_toText x)
  rw [magnitudeText.eq_def] at h
  split at h
  · next hcode =>
    cases h
    exact hcode ▸ hasIntegerPart_of_ofNatBase (by decide) _ (by decide)
  · next hcode =>
    obtain ⟨-, rfl⟩ := withPlaces_eq_ok.1 h
    exact hcode ▸ hasIntegerPart_of_layout (fun _ => rfl) hfixed
  · next hcode =>
    obtain ⟨-, rfl⟩ := withPlaces_eq_ok.1 h
    exact hcode ▸ hasIntegerPart_of_layout (fun _ => rfl) hfixed
  · next hcode =>
    obtain ⟨-, rfl⟩ := withPlaces_eq_ok.1 h
    exact hcode ▸ hasIntegerPart_of_layout (fun _ => rfl) hscientific
  · next hcode =>
    obtain ⟨-, rfl⟩ := withPlaces_eq_ok.1 h
    exact hcode ▸ hasIntegerPart_of_layout (fun _ => rfl) (Layout.exists_toUpper hscientific)
  · next hcode => exact hcode ▸ hasIntegerPart_of_layout (fun _ => rfl) (exists_of_generalText h)
  · next hcode =>
    obtain ⟨t, ht, rfl⟩ := map_eq_ok.1 h
    have hupper := Layout.exists_toUpper (exists_of_generalText ht)
    exact hcode ▸ hasIntegerPart_of_layout (fun _ => rfl) hupper
  · next hcode => exact hcode ▸ hasIntegerPart_of_percentText (fun _ => rfl) h
  · next hcode =>
    cases h
    exact hcode ▸ hasIntegerPart_of_ofNatBase (by decide) _ (by decide)
  · next hcode =>
    cases h
    exact hcode ▸ hasIntegerPart_of_hexUpper _
  · next hcode =>
    cases h
    exact hcode ▸ hasIntegerPart_of_ofNatBase (by decide) _ (by decide)
  · next hcode =>
    cases h
    exact hcode ▸ hasIntegerPart_of_ofNatBase (by decide) _ (by decide)
  · next hcode =>
    split at h
    · exact hcode ▸ hasIntegerPart_of_layout (fun _ => rfl) (exists_of_generalText h)
    · cases h
      exact hcode ▸ hasIntegerPart_of_layout (fun _ => rfl) hshortest
  · next hcode =>
    split at h
    · exact hcode ▸ hasIntegerPart_of_layout (fun _ => rfl) (exists_of_generalText h)
    · cases h
      exact hcode ▸ hasIntegerPart_of_layout (fun _ => rfl) hshortest

end TreeExtraction.Format
