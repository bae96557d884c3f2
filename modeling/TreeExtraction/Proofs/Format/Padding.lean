import TreeExtraction.Format.Rendering
import TreeExtraction.Proofs.Outcome
import TreeExtraction.Value.SampleHost

/-! # Padding

What is formatted consists of a mark and a body: the sign and the mark of the radix with the digits
of a number, or nothing and the text of any other value, cut to the precision. The width adds fill
units and nothing else, as many as are missing, where the alignment asks for them. Numbers stand to
the right unless another alignment is given, everything else to the left.
-/

namespace TreeExtraction.Format

open Outcome

variable {s : Specifier} {v : Value} {mark body r : Text} {usual align : Alignment} {fill : UInt16}
  {count : Nat}

/-! ## Padded texts -/

/-- Whether a text is a mark and a body with a count of fill units where an alignment puts them.
Around a text they are split in halves, and the one that is left over stands behind it. -/
inductive IsPadded (fill : UInt16) (mark body : Text) (count : Nat) : Alignment → Text → Prop where
  | left : IsPadded fill mark body count .left (mark ++ body ++ List.replicate count fill)
  | right : IsPadded fill mark body count .right (List.replicate count fill ++ mark ++ body)
  | inside : IsPadded fill mark body count .inside (mark ++ List.replicate count fill ++ body)
  | center {before after : Nat} (hcount : before + after = count) (hle : before ≤ after)
      (hodd : after ≤ before + 1) : IsPadded fill mark body count .center
        (List.replicate before fill ++ mark ++ body ++ List.replicate after fill)

namespace IsPadded

theorem length_eq (h : IsPadded fill mark body count align r) :
    r.length = (mark ++ body).length + count := by
  cases h with
  | center hcount => simp; omega
  | _ => simp; omega

theorem eq_append (h : IsPadded fill mark body 0 align r) : r = mark ++ body := by
  cases h with
  | center hcount =>
    obtain ⟨rfl, rfl⟩ := Nat.add_eq_zero_iff.1 hcount
    simp
  | _ => simp

end IsPadded

/-- Padding adds what is missing. -/
theorem isPadded_of_pad (h : pad s mark body usual = .ok r) :
    IsPadded s.fillUnit mark body (s.leastLength - (mark ++ body).length)
      (s.alignment?.getD usual) r := by
  rw [pad, List.length_append] at *
  split at h
  · cases h
  · rw [← Except.ok.inj h]
    generalize s.leastLength - (mark.length + body.length) = missing
    cases s.alignment?.getD usual with
    | left => exact .left
    | right => exact .right
    | inside => exact .inside
    | center =>
      have hle : missing / 2 ≤ missing - missing / 2 := by omega
      exact .center (Nat.add_sub_cancel' (Nat.div_le_self missing 2)) hle (by omega)

/-- Without a width nothing is missing. -/
theorem pad_of_leastLength (h : s.leastLength = 0) (mark body : Text) (usual : Alignment) :
    pad s mark body usual = .ok (mark ++ body) := by
  have hmissing : s.leastLength - (mark.length + body.length) = 0 := by rw [h, Nat.zero_sub]
  cases hpad : pad s mark body usual with
  | error e =>
    rw [pad, hmissing] at hpad
    simp at hpad
  | ok r =>
    have hpadded := isPadded_of_pad hpad
    rw [List.length_append, hmissing] at hpadded
    rw [hpadded.eq_append]

theorem pad_of_width_zero (s : Specifier) (mark body : Text) (usual : Alignment) :
    pad { s with width := some 0 } mark body usual = .ok (mark ++ body) :=
  pad_of_leastLength rfl mark body usual

/-! ## Marks and bodies -/

/-- What stands in front of the body of a value. -/
def markOf (s : Specifier) : Value → Text
  | .number n => numberMark s n
  | _ => []

/-- The alignment of a value if none is given. -/
def usualAlignment : Value → Alignment
  | .number _ => .right
  | _ => .left

/-- Whether the code and the alignment of a specifier are meant for a value. -/
def Suits (s : Specifier) (v : Value) : Prop :=
  match v with
  | .number n => s.code ≠ some .text ∧ ∀ c ∈ s.code, (c.needsInteger && !n.isInteger) = false
  | _ => (∀ c ∈ s.code, c = .text) ∧ s.alignment? ≠ some .inside

theorem formatNumber_eq_ok {n : Number} : formatNumber s n = .ok r ↔ Suits s (.number n) ∧
    ∃ body, numberBody s n = .ok body ∧ pad s (numberMark s n) body .right = .ok r := by
  rw [formatNumber.eq_def]
  split
  · next hcode => simp [Suits, hcode]
  · next hcode =>
    split
    · next c hneeds =>
      obtain ⟨hc, hneeds⟩ := Option.filter_eq_some_iff.1 hneeds
      simp_all [Suits]
    · next hinteger =>
      have hsuits : Suits s (.number n) :=
        ⟨hcode, fun c hc => by simpa using Option.filter_eq_none_iff.1 hinteger c hc⟩
      simp [hsuits, bind_eq_ok]

theorem suits_iff (hv : ∀ n, v ≠ .number n) :
    Suits s v ↔ (∀ c ∈ s.code, c = .text) ∧ s.alignment? ≠ some .inside := by
  cases v with
  | number n => exact absurd rfl (hv n)
  | _ => rfl

theorem numberBody_abs (s : Specifier) (n : Number) : numberBody s n.abs = numberBody s n := by
  cases n <;> rfl

section

variable [PureHost]

/-- The body of a value: the digits of a number or the text of another value. -/
def bodyOf (s : Specifier) (v : Value) : Except Failure Text :=
  match v with
  | .number n => numberBody s n
  | _ => bodyText s v

theorem bodyOf_eq (hv : ∀ n, v ≠ .number n) : bodyOf s v = bodyText s v := by
  cases v with
  | number n => exact absurd rfl (hv n)
  | _ => rfl

theorem formatText_eq_ok (hv : ∀ n, v ≠ .number n) : formatText s v = .ok r ↔ Suits s v ∧
    ∃ body, bodyText s v = .ok body ∧ pad s [] body .left = .ok r := by
  rw [formatText, suits_iff hv]
  split
  · next c hnumber =>
    obtain ⟨hc, hnumber⟩ := Option.filter_eq_some_iff.1 hnumber
    simp_all
  · next hcode =>
    have htext : ∀ c ∈ s.code, c = .text := by simpa using Option.filter_eq_none_iff.1 hcode
    split
    · next hinside => simp [hinside]
    · next hinside =>
      rw [bind_eq_ok]
      exact (and_iff_right ⟨htext, hinside⟩).symm

/-- A specifier formats the values that it is meant for, as a mark and a body with padding. -/
theorem formatBy_eq_ok : formatBy s v = .ok r ↔ Suits s v ∧
    ∃ body, bodyOf s v = .ok body ∧ pad s (markOf s v) body (usualAlignment v) = .ok r := by
  cases v with
  | number n => exact formatNumber_eq_ok
  | _ => exact formatText_eq_ok nofun

/-- Without a width a number is its mark and its digits. -/
theorem formatBy_number_eq_ok (h : s.leastLength = 0) {n : Number} :
    formatBy s (.number n) = .ok r ↔ Suits s (.number n) ∧
      ∃ body, numberBody s n = .ok body ∧ numberMark s n ++ body = r := by
  rw [formatBy_eq_ok]
  simp only [bodyOf, markOf, pad_of_leastLength h, Except.ok.injEq]

/-- The body of a value that is no number is its text, or what the precision leaves of it. -/
theorem exists_of_bodyText (h : bodyText s v = .ok body) :
    ∃ w, v.insertedText = .ok w ∧ body = (s.precision.map w.take).getD w := by
  rw [bodyText.eq_def] at h
  split at h
  · next p hp =>
    obtain ⟨w, hw, rfl⟩ := map_eq_ok.1 h
    obtain ⟨o, ho, hsome⟩ := bind_eq_ok.1 hw
    cases o with
    | none => cases hsome
    | some t =>
      cases hsome
      exact ⟨w, by rw [Value.insertedText, ho]; rfl, by rw [hp]; rfl⟩
  · next hnone => exact ⟨body, h, by rw [hnone]; rfl⟩

/-- What is formatted is as long as the width asks, or longer if it is so without a width. It is a
mark and a body, which the specifier without a width would give by themselves, and as many fill
units as are missing where the alignment puts them. The empty specifier gives the plain text. -/
theorem formatWith_isPadded {t : Text} (h : formatWith v t = .ok (some r)) :
    (t = [] → v.toText? = .ok (some r)) ∧
    (t ≠ [] → ∃ s body,
      Specifier.read t = some s ∧
      formatBy { s with width := some 0 } v = .ok (markOf s v ++ body) ∧
      r.length = max s.leastLength (markOf s v ++ body).length ∧
      (s.leastLength ≤ (markOf s v ++ body).length → r = markOf s v ++ body) ∧
      IsPadded s.fillUnit (markOf s v) body (s.leastLength - (markOf s v ++ body).length)
        (s.alignment?.getD (usualAlignment v)) r ∧
      (∀ n, v = .number n → numberBody s n.abs = .ok body) ∧
      ((∀ n, v ≠ .number n) → s.alignment? ≠ some .inside ∧
        ∃ w, v.insertedText = .ok w ∧ body = (s.precision.map w.take).getD w)) := by
  rw [formatWith] at h
  constructor
  · rintro rfl
    exact h
  · intro hne
    rw [if_neg (by simpa using hne)] at h
    split at h
    · next s hread =>
      obtain ⟨r', hformat, hr⟩ := map_eq_ok.1 h
      obtain rfl : r' = r := Option.some.inj hr
      obtain ⟨hsuits, body, hbody, hpad⟩ := formatBy_eq_ok.1 hformat
      have hpadded := isPadded_of_pad hpad
      refine ⟨s, body, hread, ?_, ?_, ?_, hpadded, ?_, ?_⟩
      · have hbody' : bodyOf { s with width := some 0 } v = .ok body := hbody
        exact formatBy_eq_ok.2 ⟨hsuits, body, hbody', pad_of_width_zero s _ body _⟩
      · rw [hpadded.length_eq]
        omega
      · intro hle
        rw [Nat.sub_eq_zero_of_le hle] at hpadded
        exact hpadded.eq_append
      · rintro n rfl
        rw [numberBody_abs]
        exact hbody
      · intro hnumber
        rw [bodyOf_eq hnumber] at hbody
        exact ⟨((suits_iff hnumber).1 hsuits).2, exists_of_bodyText hbody⟩
    · cases h

end

open scoped SampleHost in
/-- A negative number in hexadecimal digits, with an odd count of units around it. -/
theorem formatWith_isPadded_center :
    formatWith (.number (.ofInt (-255))) (units "*^#10x") = .ok (some (units "**-0xff***")) ∧
    ∃ s body, Specifier.read (units "*^#10x") = some s ∧
      formatBy { s with width := some 0 } (.number (.ofInt (-255))) =
        .ok (markOf s (.number (.ofInt (-255))) ++ body) ∧
      (units "**-0xff***").length =
        max s.leastLength (markOf s (.number (.ofInt (-255))) ++ body).length := by
  have hformat : formatWith (.number (.ofInt (-255))) (units "*^#10x") =
      .ok (some (units "**-0xff***")) := by
    apply toOption_eq_some.1
    decide +kernel
  obtain ⟨s, body, hread, hplain, hlength, -⟩ := (formatWith_isPadded hformat).2 (by decide)
  exact ⟨hformat, s, body, hread, hplain, hlength⟩

end TreeExtraction.Format
