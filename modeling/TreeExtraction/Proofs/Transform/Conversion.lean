import TreeExtraction.Proofs.Outcome
import TreeExtraction.Proofs.Text.LetterCase
import TreeExtraction.Proofs.Text.Table
import TreeExtraction.Proofs.Transform.Numerals
import TreeExtraction.Transform.Application
import TreeExtraction.Value.SampleHost

/-! # Converting texts to numbers

Which texts the transforms `int` and `float` take. An integer text is a number text, with the same
number, and a number text or a word for a number gives a number. The words are looked up among
inherited names too, so there are two more words, which give no number.
-/

namespace TreeExtraction

open Outcome

/-- Whether a failure reports a value of the wrong kind. -/
def Failure.IsMismatch (e : Failure) : Prop :=
  ∃ m c, e = .report (.mismatch m) c

namespace Conversion

/-- The words for numbers that have no digits. -/
def specialWords : List Text :=
  ["inf", "+inf", "-inf", "infinity", "+infinity", "-infinity", "nan"].map units

/-- The inherited names without capital letters. -/
def strayWords : List Text :=
  ["constructor", "__proto__"].map units

/-- Whether a text is an integer text with blanks around it. -/
def IsInteger (t : Text) : Prop :=
  ∃ d : IntegerText, Text.Padded d.text t

/-- Whether a text is a number text with blanks around it. -/
def IsDecimal (t : Text) : Prop :=
  ∃ d : DecimalText, Text.Padded d.text t

/-- Whether a text is one of some words, in letters of either case and with blanks around it. -/
def IsWordOf (ws : List Text) (t : Text) : Prop :=
  ∃ core, Text.Padded core t ∧ core.map Text.lowerUnit ∈ ws

variable {t word : Text} {ws : List Text}

/-! ## Readers and blanks -/

theorem isInteger_iff : IsInteger t ↔ ∃ n, readInteger (Text.trim t) = some n := by
  constructor
  · rintro ⟨d, hd⟩
    exact ⟨d.numeral, by rw [Text.trim_of_padded d.isBlank_of_mem hd, readInteger_text]⟩
  · rintro ⟨n, hn⟩
    obtain ⟨d, hd, -⟩ := exists_of_readInteger hn
    exact ⟨d, hd ▸ Text.padded_trim t⟩

theorem readDecimal_of_padded {d : DecimalText} (h : Text.Padded d.text t) :
    readDecimal (Text.trim t) = some d.numeral := by
  rw [Text.trim_of_padded d.isBlank_of_mem h, readDecimal_text]

theorem isDecimal_iff : IsDecimal t ↔ ∃ n, readDecimal (Text.trim t) = some n := by
  constructor
  · rintro ⟨d, hd⟩
    exact ⟨d.numeral, readDecimal_of_padded hd⟩
  · rintro ⟨n, hn⟩
    obtain ⟨d, hd, -⟩ := exists_of_readDecimal hn
    exact ⟨d, hd ▸ Text.padded_trim t⟩

/-! ## Words -/

theorem isBlank_lowerUnit {u : UInt16} (h : Text.isBlank u = true) :
    Text.isBlank (Text.lowerUnit u) = true := by
  have hkelvin : (u == Text.kelvinSign) = false := by
    rw [beq_eq_false_iff_ne]
    rintro rfl
    exact absurd h (by decide)
  have hcapital : Text.isCapital u = false := by
    rw [← Bool.not_eq_true]
    intro hc
    simp only [Text.isBlank, Text.isCapital, unit, Bool.or_eq_true, Bool.and_eq_true,
      decide_eq_true_eq, beq_iff_eq, UInt16.le_iff_toNat_le, ← UInt16.toNat_inj] at h hc
    simp at h hc
    omega
  rwa [Text.lowerUnit, hkelvin, hcapital, if_neg Bool.false_ne_true, if_neg Bool.false_ne_true]

/-- A text is one of some words if its lower case is, for words of basic units without blanks. -/
theorem isWordOf_iff
    (hwords : ∀ w ∈ ws, ∀ u ∈ w, u.toNat < 128 ∧ Text.isBlank u = false) :
    IsWordOf ws t ↔ Text.toLower (Text.trim t) ∈ ws := by
  constructor
  · rintro ⟨core, hcore, hword⟩
    have hblank : ∀ u ∈ core, Text.isBlank u = false := by
      intro u hu
      rw [← Bool.not_eq_true]
      intro h
      have hkept := (hwords _ hword _ (List.mem_map_of_mem hu)).2
      rw [isBlank_lowerUnit h] at hkept
      cases hkept
    rwa [Text.trim_of_padded hblank hcore,
      (Text.toLower_eq_iff fun u hu => (hwords _ hword u hu).1).2 rfl]
  · intro h
    refine ⟨Text.trim t, Text.padded_trim t, ?_⟩
    rwa [(Text.toLower_eq_iff fun u hu => (hwords _ h u hu).1).1 rfl]

theorem basic_of_all {ws : List Text}
    (h : (ws.all fun w => w.all fun u => decide (u.toNat < 128) && !Text.isBlank u) = true) :
    ∀ w ∈ ws, ∀ u ∈ w, u.toNat < 128 ∧ Text.isBlank u = false := by
  simpa using h

theorem specialWords_basic :
    ∀ w ∈ specialWords, ∀ u ∈ w, u.toNat < 128 ∧ Text.isBlank u = false :=
  basic_of_all (by decide +kernel)

theorem strayWords_basic :
    ∀ w ∈ strayWords, ∀ u ∈ w, u.toNat < 128 ∧ Text.isBlank u = false :=
  basic_of_all (by decide +kernel)

theorem inheritedFunctions_basic :
    ∀ w ∈ inheritedFunctions, ∀ u ∈ w, u.toNat < 128 ∧ Text.isBlank u = false :=
  basic_of_all (by decide +kernel)

theorem keys_words : Table.keys words = specialWords := by
  decide +kernel

theorem exists_lookUp_special (h : word ∈ specialWords) :
    ∃ n, lookUp word = some (.number n) := by
  rw [← keys_words] at h
  rw [lookUp, Table.lookUp]
  cases hget : Table.get? words word with
  | none => exact absurd h (Table.get?_eq_none_iff.1 hget)
  | some n => exact ⟨n, rfl⟩

theorem exists_lookUp_stray (h : word ∈ strayWords) :
    ∃ v, lookUp word = some v ∧ ∀ n, v ≠ .number n := by
  rw [strayWords, List.map_cons, List.map_singleton, List.mem_cons, List.mem_singleton] at h
  rcases h with rfl | rfl
  · exact ⟨(Inherited.function (units "constructor")).value, rfl, nofun⟩
  · exact ⟨Inherited.object.value, rfl, nofun⟩

/-- Of the inherited names only two are the lower case of a text, for the others hold capitals. -/
theorem toLower_mem_strayWords {i : Inherited} (h : Inherited.ofName? (Text.toLower t) = some i) :
    Text.toLower t ∈ strayWords := by
  have hcapital : ∀ name ∈ inheritedFunctions, (∀ u ∈ name, Text.isCapital u = false) →
      name ∈ strayWords := by
    have hall : (inheritedFunctions.all fun name =>
        name.any Text.isCapital || strayWords.contains name) = true := by decide +kernel
    intro name hname hnone
    have hcase := List.all_eq_true.1 hall name hname
    rw [List.any_eq_false.2 (by simpa using hnone), Bool.false_or] at hcase
    exact List.contains_iff_mem.1 hcase
  rw [Inherited.ofName?] at h
  split at h
  · next hname =>
    have hmem := List.contains_iff_mem.1 hname
    refine hcapital _ hmem fun u hu => ?_
    rw [← (Text.toLower_eq_iff fun u hu => (inheritedFunctions_basic _ hmem u hu).1).1 rfl] at hu
    obtain ⟨v, -, rfl⟩ := List.mem_map.1 hu
    exact Text.isCapital_lowerUnit v
  · split at h
    · next hparent =>
      rw [beq_iff_eq.1 hparent]
      decide
    · cases h

theorem lookUp_eq_none (hspecial : Text.toLower t ∉ specialWords)
    (hstray : Text.toLower t ∉ strayWords) : lookUp (Text.toLower t) = none := by
  have habsent : Table.get? words (Text.toLower t) = none :=
    Table.get?_eq_none_iff.2 (by rwa [keys_words])
  have hinherited : Inherited.ofName? (Text.toLower t) = none := by
    cases h : Inherited.ofName? (Text.toLower t) with
    | none => rfl
    | some i => exact absurd (toLower_mem_strayWords h) hstray
  rw [lookUp, Table.lookUp, habsent]
  simp only [hinherited]

theorem lowerUnit_ne_of_isNumeric {u : UInt16} (h : isNumeric u = true) :
    Text.lowerUnit u ≠ unit 'o' := by
  simp only [isNumeric, Text.isDigit, isSign, isPoint, isExponentMark, unit, Bool.or_eq_true,
    Bool.and_eq_true, decide_eq_true_eq, beq_iff_eq, UInt16.le_iff_toNat_le,
    ← UInt16.toNat_inj] at h
  rw [Text.lowerUnit, ne_eq, ← UInt16.toNat_inj]
  split
  · decide
  · split
    · next hcapital =>
      simp only [Text.isCapital, unit, Bool.and_eq_true, decide_eq_true_eq,
        UInt16.le_iff_toNat_le] at hcapital
      simp [unit] at h hcapital ⊢
      omega
    · simp [unit] at h ⊢
      omega

/-- A stray word holds a letter that no number text holds. -/
theorem not_isDecimal_of_stray (h : IsWordOf strayWords t) : ¬IsDecimal t := by
  rintro ⟨d, hd⟩
  have hletter : ∀ w ∈ strayWords, unit 'o' ∈ w := by decide
  have hword := (isWordOf_iff strayWords_basic).1 h
  have hspelled := (Text.toLower_eq_iff fun u hu => (strayWords_basic _ hword u hu).1).1 rfl
  rw [Text.trim_of_padded d.isBlank_of_mem hd] at hword hspelled
  have ho := hletter _ hword
  rw [← hspelled] at ho
  obtain ⟨u, hu, hlower⟩ := List.mem_map.1 ho
  exact lowerUnit_ne_of_isNumeric (d.isNumeric_of_mem u hu) hlower

/-! ## The conversions -/

section

variable [PureHost]

theorem failed_text (name expected : String) (t : Text) {α : Type} :
    (failed name expected (.text t) : Except Failure α) =
      .error (.mismatch (.conversion (units name) (units expected) t (Value.text t).kind)
        { transform := some (units name) }) := rfl

/-- What the text of a decimal, a word or anything else converts to. -/
theorem toFloat_text (t : Text) :
    toFloat (.text t) =
      match readDecimal (Text.trim t), lookUp (Text.toLower (Text.trim t)) with
      | some n, _ => .ok (.number n.toNumber)
      | none, some found => .ok found
      | none, none => failed "float" "number-like" (.text t) := by
  rw [toFloat]
  cases readDecimal (Text.trim t) with
  | some n => rfl
  | none => cases lookUp (Text.toLower (Text.trim t)) <;> rfl

theorem toFloat_of_padded {d : DecimalText} (h : Text.Padded d.text t) :
    toFloat (.text t) = .ok (.number d.numeral.toNumber) := by
  rw [toFloat_text, readDecimal_of_padded h]

theorem exists_toFloat_special (h : IsWordOf specialWords t) :
    ∃ n, toFloat (.text t) = .ok (.number n) := by
  rw [toFloat_text]
  cases hread : readDecimal (Text.trim t) with
  | some n => exact ⟨_, rfl⟩
  | none =>
    obtain ⟨n, hn⟩ := exists_lookUp_special ((isWordOf_iff specialWords_basic).1 h)
    rw [hn]
    exact ⟨n, rfl⟩

theorem exists_toFloat_stray (h : IsWordOf strayWords t) :
    ∃ v, toFloat (.text t) = .ok v ∧ ∀ n, v ≠ .number n := by
  rw [toFloat_text]
  cases hread : readDecimal (Text.trim t) with
  | some n => exact absurd (isDecimal_iff.2 ⟨n, hread⟩) (not_isDecimal_of_stray h)
  | none =>
    obtain ⟨v, hv, hnumber⟩ := exists_lookUp_stray ((isWordOf_iff strayWords_basic).1 h)
    rw [hv]
    exact ⟨v, rfl, hnumber⟩

/-- Every other text is refused. -/
theorem exists_toFloat_error (hdecimal : ¬IsDecimal t) (hspecial : ¬IsWordOf specialWords t)
    (hstray : ¬IsWordOf strayWords t) :
    ∃ m c, toFloat (.text t) = .error (.report (.mismatch m) c) := by
  have hread : readDecimal (Text.trim t) = none := by
    cases hread : readDecimal (Text.trim t) with
    | none => rfl
    | some n => exact absurd (isDecimal_iff.2 ⟨n, hread⟩) hdecimal
  rw [isWordOf_iff specialWords_basic] at hspecial
  rw [isWordOf_iff strayWords_basic] at hstray
  rw [toFloat_text, hread, lookUp_eq_none hspecial hstray]
  exact ⟨_, _, failed_text _ _ t⟩

theorem toInteger_text (t : Text) :
    toInteger (.text t) =
      match readInteger (Text.trim t) with
      | some n => .ok n.toNumber
      | none => failed "int" "integer-like" (.text t) := rfl

end

end Conversion

open Conversion

/-! ## The transforms -/

section Transforms

variable {t : Text} {v : Value} {e : Failure}

theorem isMismatch_inContext {α : Type} {r : Except Failure α} {c : Context}
    (hr : ∀ e, r = .error e → e.IsMismatch) (h : inContext c r = .error e) : e.IsMismatch := by
  cases r with
  | ok a => cases h
  | error e' =>
    obtain ⟨m, c', rfl⟩ := hr e' rfl
    cases h
    exact ⟨m, _, rfl⟩

variable [PureHost]

theorem apply_float_eq_ok :
    (Transform.builtin .float).apply (.text t) = .ok v ↔ toFloat (.text t) = .ok v :=
  inContext_eq_ok

theorem apply_int_eq_ok :
    (Transform.builtin .int).apply (.text t) = .ok v ↔
      ∃ n, readInteger (Text.trim t) = some n ∧ v = .number n.toNumber := by
  have hrun : (BuiltinTransform.int).run (.text t) = .number <$> toInteger (.text t) := rfl
  refine inContext_eq_ok.trans ?_
  rw [hrun, toInteger_text]
  cases readInteger (Text.trim t) with
  | none => simp [failed_text, Functor.map, Except.map]
  | some n => simp [eq_comm]

theorem isMismatch_toFloat (h : toFloat (.text t) = .error e) : e.IsMismatch := by
  rw [toFloat_text] at h
  split at h
  · cases h
  · cases h
  · rw [failed_text] at h
    cases h
    exact ⟨_, _, rfl⟩

theorem isMismatch_toInteger (h : toInteger (.text t) = .error e) : e.IsMismatch := by
  rw [toInteger_text] at h
  split at h
  · cases h
  · rw [failed_text] at h
    cases h
    exact ⟨_, _, rfl⟩

/-- The transforms of texts to numbers. What `float` takes are number texts, words for numbers and
the stray words; the first two give a number, the stray words none, and everything else is refused
as being of the wrong kind. What `int` takes are integer texts, and `float` gives the same
number. -/
theorem apply_float_apply_int (t : Text) :
    ((∃ v, (Transform.builtin .float).apply (.text t) = .ok v) ↔
      IsDecimal t ∨ IsWordOf specialWords t ∨ IsWordOf strayWords t) ∧
    (∀ d : DecimalText, Text.Padded d.text t →
      (Transform.builtin .float).apply (.text t) = .ok (.number d.numeral.toNumber)) ∧
    (IsWordOf specialWords t → ∃ n, (Transform.builtin .float).apply (.text t) = .ok (.number n)) ∧
    (IsWordOf strayWords t →
      ∃ v, (Transform.builtin .float).apply (.text t) = .ok v ∧ ∀ n, v ≠ .number n) ∧
    (∀ e, (Transform.builtin .float).apply (.text t) = .error e → e.IsMismatch) ∧
    ((∃ v, (Transform.builtin .int).apply (.text t) = .ok v) ↔ IsInteger t) ∧
    (∀ v, (Transform.builtin .int).apply (.text t) = .ok v →
      (∃ n, v = .number n) ∧ (Transform.builtin .float).apply (.text t) = .ok v) ∧
    (∀ e, (Transform.builtin .int).apply (.text t) = .error e → e.IsMismatch) := by
  simp only [apply_float_eq_ok, apply_int_eq_ok]
  refine ⟨⟨?_, ?_⟩, ?_, ?_, ?_, ?_, ⟨?_, ?_⟩, ?_, ?_⟩
  · rintro ⟨v, hv⟩
    by_contra h
    obtain ⟨hdecimal, hspecial, hstray⟩ : ¬IsDecimal t ∧ ¬IsWordOf specialWords t ∧
        ¬IsWordOf strayWords t := by
      simpa only [not_or] using h
    obtain ⟨m, c, herror⟩ := exists_toFloat_error hdecimal hspecial hstray
    rw [herror] at hv
    cases hv
  · rintro (⟨d, hd⟩ | hspecial | hstray)
    · exact ⟨_, toFloat_of_padded hd⟩
    · obtain ⟨n, hn⟩ := exists_toFloat_special hspecial
      exact ⟨_, hn⟩
    · obtain ⟨v, hv, -⟩ := exists_toFloat_stray hstray
      exact ⟨v, hv⟩
  · intro d hd
    exact toFloat_of_padded hd
  · exact exists_toFloat_special
  · exact exists_toFloat_stray
  · intro e he
    exact isMismatch_inContext (fun e' he' => isMismatch_toFloat he') he
  · rintro ⟨v, n, hn, -⟩
    exact isInteger_iff.2 ⟨n, hn⟩
  · intro h
    obtain ⟨n, hn⟩ := isInteger_iff.1 h
    exact ⟨_, n, hn, rfl⟩
  · rintro v ⟨n, hn, rfl⟩
    refine ⟨⟨_, rfl⟩, ?_⟩
    rw [toFloat_text, readDecimal_of_readInteger hn]
  · intro e he
    refine isMismatch_inContext (fun e' he' => ?_) he
    exact isMismatch_toInteger (map_eq_error.1 he')

end Transforms

open scoped SampleHost in
/-- A word that names no number is converted. -/
theorem not_forall_apply_float_iff :
    ¬∀ t : Text, ((∃ v, (Transform.builtin .float).apply (.text t) = .ok v) ↔
      IsDecimal t ∨ IsWordOf specialWords t) := by
  intro h
  have hconverted : ∃ v, (Transform.builtin .float).apply (.text (units "constructor")) = .ok v :=
    ⟨(Inherited.function (units "constructor")).value, apply_float_eq_ok.2 rfl⟩
  rcases (h (units "constructor")).1 hconverted with hdecimal | hword
  · obtain ⟨n, hn⟩ := isDecimal_iff.1 hdecimal
    cases hn
  · have hspelled := (isWordOf_iff specialWords_basic).1 hword
    exact absurd hspelled (by decide +kernel)

end TreeExtraction
