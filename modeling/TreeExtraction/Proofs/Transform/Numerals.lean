import TreeExtraction.Proofs.Text.Splitting
import TreeExtraction.Transform.Conversion

/-! # The grammar of number texts

Number texts without the blanks around them, one type for each rule of the grammar:

  * `integer := sign digits`
  * `decimal := sign mantissa power?`
  * `mantissa := digits | digits '.' digit* | '.' digits`
  * `power := ('e' | 'E') sign digits`

where a sign may be missing and digits are one or more. A tree has a text and denotes a numeral.
The readers take the texts of the trees and no others.
-/

namespace TreeExtraction.Conversion

/-- A sign that may be missing. -/
inductive Sign where
  | missing
  | plus
  | minus

/-- Digits, with or without a point. -/
inductive Mantissa where
  | whole (digits : Text) (isRun : isDigits digits = true)
  | pointed (digits places : Text) (isRun : isDigits digits = true)
    (decimal : places.all Text.isDigit = true)
  | fraction (places : Text) (isRun : isDigits places = true)

/-- A power of ten. -/
structure Power where
  mark : UInt16
  sign : Sign
  digits : Text
  isMark : isExponentMark mark = true
  isRun : isDigits digits = true

/-- An integer text. -/
structure IntegerText where
  sign : Sign
  digits : Text
  isRun : isDigits digits = true

/-- A number text. -/
structure DecimalText where
  sign : Sign
  mantissa : Mantissa
  power : Option Power

namespace Sign

/-- The text of a sign. -/
def text : Sign → Text
  | missing => []
  | plus => [unit '+']
  | minus => [unit '-']

/-- Whether a sign is a minus. -/
def isMinus : Sign → Bool
  | minus => true
  | _ => false

end Sign

namespace Mantissa

/-- The digits before the point. -/
def before : Mantissa → Text
  | whole ds _ => ds
  | pointed ds _ _ _ => ds
  | fraction _ _ => []

/-- The digits behind the point. -/
def behind : Mantissa → Text
  | whole _ _ => []
  | pointed _ fs _ _ => fs
  | fraction fs _ => fs

/-- The text of a mantissa. -/
def text : Mantissa → Text
  | whole ds _ => ds
  | pointed ds fs _ _ => ds ++ unit '.' :: fs
  | fraction fs _ => unit '.' :: fs

end Mantissa

namespace Power

/-- The text of a power. -/
def text (p : Power) : Text :=
  p.mark :: (p.sign.text ++ p.digits)

/-- The exponent that a power denotes. -/
def exponent (p : Power) : Int :=
  if p.sign.isMinus then -(Text.toNat p.digits : Int) else Text.toNat p.digits

end Power

/-- The text of a power that may be missing. -/
def powerText (p : Option Power) : Text :=
  (p.map Power.text).getD []

/-- The exponent that a power denotes, zero if it is missing. -/
def exponentOf (p : Option Power) : Int :=
  (p.map Power.exponent).getD 0

namespace IntegerText

/-- The text that a tree derives. -/
def text (d : IntegerText) : Text :=
  d.sign.text ++ d.digits

/-- The numeral that a tree denotes. -/
def numeral (d : IntegerText) : Numeral :=
  ⟨d.sign.isMinus, Text.toNat d.digits, 0⟩

end IntegerText

namespace DecimalText

/-- The text that a tree derives. -/
def text (d : DecimalText) : Text :=
  d.sign.text ++ (d.mantissa.text ++ powerText d.power)

/-- The numeral that a tree denotes. -/
def numeral (d : DecimalText) : Numeral :=
  ⟨d.sign.isMinus, Text.toNat (d.mantissa.before ++ d.mantissa.behind),
    exponentOf d.power - d.mantissa.behind.length⟩

end DecimalText

/-- An integer text is a number text. -/
def IntegerText.decimal (d : IntegerText) : DecimalText :=
  ⟨d.sign, .whole d.digits d.isRun, none⟩

theorem IntegerText.text_decimal (d : IntegerText) : d.decimal.text = d.text := by
  simp [decimal, DecimalText.text, text, Mantissa.text, powerText]

theorem IntegerText.numeral_decimal (d : IntegerText) : d.decimal.numeral = d.numeral := by
  simp [decimal, DecimalText.numeral, numeral, Mantissa.before, Mantissa.behind, exponentOf]

variable {t after ds : Text} {n : Numeral} {e : Int}

/-! ## Classes of units -/

/-- Whether a unit is a sign. -/
def isSign (u : UInt16) : Bool :=
  u == unit '-' || u == unit '+'

/-- The point before a fraction. -/
def isPoint (u : UInt16) : Bool :=
  u == unit '.'

theorem isSign_of_isDigit {u : UInt16} (h : Text.isDigit u = true) : isSign u = false := by
  cases hs : isSign u with
  | false => rfl
  | true =>
    rw [isSign, Bool.or_eq_true, beq_iff_eq, beq_iff_eq] at hs
    rcases hs with rfl | rfl <;> exact absurd h (by decide)

theorem isMark_cases {u : UInt16} (h : isExponentMark u = true) : u = unit 'e' ∨ u = unit 'E' := by
  rwa [isExponentMark, Bool.or_eq_true, beq_iff_eq, beq_iff_eq] at h

theorem isDigits_iff : isDigits ds = true ↔ ds ≠ [] ∧ ds.all Text.isDigit = true := by
  rw [isDigits, Bool.and_eq_true, Bool.not_eq_true', List.isEmpty_eq_false_iff]

theorem stops_sign_digits (h : isDigits ds = true) (t : Text) :
    Text.stops isSign (ds ++ t) = true := by
  obtain ⟨hne, hall⟩ := isDigits_iff.1 h
  cases ds with
  | nil => exact absurd rfl hne
  | cons u ds =>
    have hu := List.all_eq_true.1 hall u List.mem_cons_self
    rw [List.cons_append, Text.stops_cons, isSign_of_isDigit hu]
    rfl

theorem stops_powerText {p : UInt16 → Bool} (he : p (unit 'e') = false) (hE : p (unit 'E') = false)
    (power : Option Power) : Text.stops p (powerText power) = true := by
  cases power with
  | none => rfl
  | some power =>
    have hmark : p power.mark = false := by
      rcases isMark_cases power.isMark with h | h <;> rw [h]
      · exact he
      · exact hE
    change (!p power.mark) = true
    rw [hmark]
    rfl

/-! ## Signs -/

theorem takeSign_append (s : Sign) (ht : Text.stops isSign t = true) :
    takeSign (s.text ++ t) = (s.isMinus, t) := by
  cases s with
  | missing =>
    cases t with
    | nil => rfl
    | cons u t =>
      rw [Text.stops_cons, isSign, Bool.not_eq_true', Bool.or_eq_false_iff] at ht
      simp [Sign.text, Sign.isMinus, takeSign, ht]
  | plus => rfl
  | minus => rfl

theorem exists_takeSign (t : Text) :
    ∃ s : Sign, s.text ++ (takeSign t).2 = t ∧ s.isMinus = (takeSign t).1 := by
  cases t with
  | nil => exact ⟨.missing, rfl, rfl⟩
  | cons u t =>
    rw [takeSign]
    split
    · next h => exact ⟨.minus, by rw [beq_iff_eq.1 h]; rfl, rfl⟩
    · split
      · next h => exact ⟨.plus, by rw [beq_iff_eq.1 h]; rfl, rfl⟩
      · exact ⟨.missing, rfl, rfl⟩

/-! ## Integers -/

theorem readInteger_text (d : IntegerText) : readInteger d.text = some d.numeral := by
  have hsign := takeSign_append d.sign (t := d.digits) (by
    simpa using stops_sign_digits d.isRun [])
  rw [readInteger, IntegerText.text, hsign]
  simp only
  rw [if_pos d.isRun]
  rfl

theorem exists_of_readInteger (h : readInteger t = some n) :
    ∃ d : IntegerText, d.text = t ∧ d.numeral = n := by
  obtain ⟨s, htext, hminus⟩ := exists_takeSign t
  rw [readInteger] at h
  simp only at h
  split at h
  · next hrun =>
    cases h
    exact ⟨⟨s, _, hrun⟩, htext, by rw [IntegerText.numeral, hminus]⟩
  · cases h

/-! ## Powers -/

theorem readExponent_powerText (p : Option Power) :
    readExponent (powerText p) = some (exponentOf p) := by
  cases p with
  | none => rfl
  | some p =>
    have hsign := takeSign_append p.sign (t := p.digits) (by
      simpa using stops_sign_digits p.isRun [])
    change readExponent (p.mark :: (p.sign.text ++ p.digits)) = some p.exponent
    rw [readExponent, if_pos p.isMark, hsign]
    simp only
    rw [if_pos p.isRun]
    rfl

theorem exists_of_readExponent (h : readExponent t = some e) :
    ∃ p, powerText p = t ∧ exponentOf p = e := by
  cases t with
  | nil =>
    cases h
    exact ⟨none, rfl, rfl⟩
  | cons u t =>
    obtain ⟨s, htext, hminus⟩ := exists_takeSign t
    rw [readExponent] at h
    split at h
    · next hmark =>
      simp only at h
      split at h
      · next hrun =>
        refine ⟨some ⟨u, s, _, hmark, hrun⟩, ?_, ?_⟩
        · exact congrArg (u :: ·) htext
        · rw [← hminus] at h
          exact Option.some.inj h
      · cases h
    · cases h

/-! ## Mantissas -/

theorem takeMantissa_text (m : Mantissa) (hdigit : Text.stops Text.isDigit after = true)
    (hpoint : Text.stops isPoint after = true) :
    takeMantissa (m.text ++ after) = (m.before, m.behind, after) := by
  have hpointed (ds : Text) {fs : Text} (hds : ds.all Text.isDigit = true)
      (hfs : fs.all Text.isDigit = true) :
      takeMantissa ((ds ++ unit '.' :: fs) ++ after) = (ds, fs, after) := by
    have hstop : Text.stops Text.isDigit (unit '.' :: (fs ++ after)) = true := rfl
    rw [List.append_assoc, List.cons_append, takeMantissa, Text.takeWhile_append hds hstop,
      Text.dropWhile_append hds hstop]
    simp only [BEq.rfl, if_true]
    rw [Text.takeWhile_append hfs hdigit, Text.dropWhile_append hfs hdigit]
  cases m with
  | whole ds hrun =>
    have hds := (isDigits_iff.1 hrun).2
    rw [Mantissa.text, takeMantissa, Text.takeWhile_append hds hdigit,
      Text.dropWhile_append hds hdigit]
    cases after with
    | nil => rfl
    | cons u after =>
      rw [Text.stops_cons, isPoint, Bool.not_eq_true'] at hpoint
      simp [hpoint, Mantissa.before, Mantissa.behind]
  | pointed ds fs hrun hfs => exact hpointed ds (isDigits_iff.1 hrun).2 hfs
  | fraction fs hrun => exact hpointed [] rfl (isDigits_iff.1 hrun).2

theorem all_isDigit_takeWhile (t : Text) : (t.takeWhile Text.isDigit).all Text.isDigit = true :=
  List.all_takeWhile

theorem exists_takeMantissa (hne : (takeMantissa t).1 ++ (takeMantissa t).2.1 ≠ []) :
    ∃ m : Mantissa, m.text ++ (takeMantissa t).2.2 = t ∧ m.before = (takeMantissa t).1 ∧
      m.behind = (takeMantissa t).2.1 := by
  generalize h : takeMantissa t = parts at hne ⊢
  have hsplit := t.takeWhile_append_dropWhile (p := Text.isDigit)
  have hdigits := all_isDigit_takeWhile t
  rw [takeMantissa] at h
  split at h
  · next hrest =>
    cases h
    rw [hrest] at hsplit
    rw [List.append_nil] at hne
    exact ⟨.whole _ (isDigits_iff.2 ⟨hne, hdigits⟩), hsplit, rfl, rfl⟩
  · next u rest hrest =>
    rw [hrest] at hsplit
    split at h
    · next hpoint =>
      cases h
      obtain rfl := beq_iff_eq.1 hpoint
      have hplaces := all_isDigit_takeWhile rest
      have hjoin := rest.takeWhile_append_dropWhile (p := Text.isDigit)
      -- Without digits before the point there are some behind it.
      by_cases hnone : t.takeWhile Text.isDigit = []
      · rw [hnone, List.nil_append] at hne hsplit
        refine ⟨.fraction _ (isDigits_iff.2 ⟨hne, hplaces⟩), ?_, hnone.symm, rfl⟩
        rw [Mantissa.text, List.cons_append, hjoin, hsplit]
      · refine ⟨.pointed _ _ (isDigits_iff.2 ⟨hnone, hdigits⟩) hplaces, ?_, rfl, rfl⟩
        rw [Mantissa.text, List.append_assoc, List.cons_append, hjoin, hsplit]
    · cases h
      rw [List.append_nil] at hne
      exact ⟨.whole _ (isDigits_iff.2 ⟨hne, hdigits⟩), hsplit, rfl, rfl⟩

theorem Mantissa.digits_ne_nil (m : Mantissa) : m.before ++ m.behind ≠ [] := by
  cases m with
  | whole ds hrun => exact List.append_ne_nil_of_left_ne_nil (isDigits_iff.1 hrun).1 _
  | pointed ds fs hrun _ => exact List.append_ne_nil_of_left_ne_nil (isDigits_iff.1 hrun).1 _
  | fraction fs hrun => exact (isDigits_iff.1 hrun).1

/-! ## Numbers -/

theorem stops_sign_mantissa (m : Mantissa) (t : Text) :
    Text.stops isSign (m.text ++ t) = true := by
  cases m with
  | whole ds hrun => exact stops_sign_digits hrun t
  | pointed ds fs hrun _ =>
    rw [Mantissa.text, List.append_assoc]
    exact stops_sign_digits hrun _
  | fraction fs hrun => rfl

theorem readDecimal_text (d : DecimalText) : readDecimal d.text = some d.numeral := by
  have hsign := takeSign_append d.sign (stops_sign_mantissa d.mantissa (powerText d.power))
  have hmantissa := takeMantissa_text d.mantissa (stops_powerText rfl rfl d.power)
    (stops_powerText rfl rfl d.power)
  have hsome : (d.mantissa.before ++ d.mantissa.behind).isEmpty = false :=
    List.isEmpty_eq_false_iff.2 d.mantissa.digits_ne_nil
  rw [readDecimal, DecimalText.text, hsign]
  simp only [hmantissa, hsome, Bool.false_eq_true, if_false, readExponent_powerText]
  rfl

theorem exists_of_readDecimal (h : readDecimal t = some n) :
    ∃ d : DecimalText, d.text = t ∧ d.numeral = n := by
  obtain ⟨s, htext, hminus⟩ := exists_takeSign t
  rw [readDecimal] at h
  simp only at h
  split at h
  · cases h
  · next hsome =>
    obtain ⟨e, hpower, hn⟩ := Option.map_eq_some_iff.1 h
    have hne : (takeMantissa (takeSign t).2).1 ++ (takeMantissa (takeSign t).2).2.1 ≠ [] := by
      rwa [List.isEmpty_iff] at hsome
    obtain ⟨m, hmantissa, hbefore, hbehind⟩ := exists_takeMantissa hne
    obtain ⟨p, hp, rfl⟩ := exists_of_readExponent hpower
    refine ⟨⟨s, m, p⟩, ?_, ?_⟩
    · rw [DecimalText.text, hp, hmantissa, htext]
    · rw [DecimalText.numeral, hbefore, hbehind, hminus, hn]

/-- What an integer text denotes, it denotes as a number text. -/
theorem readDecimal_of_readInteger (h : readInteger t = some n) : readDecimal t = some n := by
  obtain ⟨d, rfl, rfl⟩ := exists_of_readInteger h
  rw [← d.text_decimal, readDecimal_text, d.numeral_decimal]

/-! ## Blanks -/

/-- Units that number texts consist of. -/
def isNumeric (u : UInt16) : Bool :=
  Text.isDigit u || isSign u || isPoint u || isExponentMark u

theorem isBlank_of_isNumeric {u : UInt16} (h : isNumeric u = true) : Text.isBlank u = false := by
  simp only [isNumeric, Text.isDigit, isSign, isPoint, isExponentMark, unit, Bool.or_eq_true,
    Bool.and_eq_true, decide_eq_true_eq, beq_iff_eq, UInt16.le_iff_toNat_le,
    ← UInt16.toNat_inj] at h
  simp only [Text.isBlank, Bool.or_eq_false_iff, Bool.and_eq_false_iff, decide_eq_false_iff_not,
    beq_eq_false_iff_ne, ne_eq, UInt16.le_iff_toNat_le, ← UInt16.toNat_inj]
  simp at h ⊢
  omega

theorem all_isNumeric_digits (h : ds.all Text.isDigit = true) : ds.all isNumeric = true :=
  List.all_eq_true.2 fun u hu => by simp [isNumeric, List.all_eq_true.1 h u hu]

theorem Sign.all_isNumeric (s : Sign) : s.text.all isNumeric = true := by
  cases s <;> decide

theorem Mantissa.all_isNumeric (m : Mantissa) : m.text.all isNumeric = true := by
  have hpoint : isNumeric (unit '.') = true := by decide
  cases m with
  | whole ds hrun => exact all_isNumeric_digits (isDigits_iff.1 hrun).2
  | pointed ds fs hrun hfs =>
    rw [text, List.all_append, List.all_cons, hpoint, all_isNumeric_digits hfs,
      all_isNumeric_digits (isDigits_iff.1 hrun).2]
    rfl
  | fraction fs hrun =>
    rw [text, List.all_cons, hpoint, all_isNumeric_digits (isDigits_iff.1 hrun).2]
    rfl

theorem all_isNumeric_powerText (p : Option Power) : (powerText p).all isNumeric = true := by
  cases p with
  | none => rfl
  | some p =>
    have hmark : isNumeric p.mark = true := by simp [isNumeric, p.isMark]
    change (p.mark :: (p.sign.text ++ p.digits)).all isNumeric = true
    rw [List.all_cons, List.all_append, hmark, p.sign.all_isNumeric,
      all_isNumeric_digits (isDigits_iff.1 p.isRun).2]
    rfl

theorem DecimalText.isNumeric_of_mem (d : DecimalText) : ∀ u ∈ d.text, isNumeric u = true := by
  have hall : d.text.all isNumeric = true := by
    rw [text, List.all_append, List.all_append, d.sign.all_isNumeric, d.mantissa.all_isNumeric,
      all_isNumeric_powerText]
    rfl
  exact List.all_eq_true.1 hall

theorem DecimalText.isBlank_of_mem (d : DecimalText) : ∀ u ∈ d.text, Text.isBlank u = false :=
  fun u hu => isBlank_of_isNumeric (d.isNumeric_of_mem u hu)

theorem IntegerText.isBlank_of_mem (d : IntegerText) : ∀ u ∈ d.text, Text.isBlank u = false := by
  rw [← d.text_decimal]
  exact d.decimal.isBlank_of_mem

end TreeExtraction.Conversion
