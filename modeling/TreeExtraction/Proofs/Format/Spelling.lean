import TreeExtraction.Format.Rendering
import TreeExtraction.Proofs.Number.Exact
import TreeExtraction.Proofs.Number.Overflow
import TreeExtraction.Proofs.Text.Numeral
import TreeExtraction.Proofs.Text.Splitting

/-! # The grammar of format specifiers

A specifier is spelled `[[fill]align][sign][#][0][width][grouping][.precision][code]`, where the
fill is any unit and width and precision are runs of digits. A spelling has a text. The texts of the
spellings are the ones that the reader takes, and it finds their parts again.

A text has one spelling, but for a zero where the width would start, which could be the flag or the
first digit of the width. It is the flag, so that greedy spellings, which have no such width without
the flag, are unique. Every part begins with units of its own, and none of them is that of an
alignment; so no unit that a part takes could have been meant for a later one.

Width and precision are read as numbers of double precision. Up to `2 ^ 53` these are the numbers
that are spelled; of the greater ones some are, and they are the ones that come back from a text.
-/

namespace TreeExtraction.Format

/-- A run of at least one digit. -/
structure DigitRun where
  digits : Text
  nonempty : digits ≠ []
  decimal : digits.all Text.isDigit = true

/-- The number that a run of digits is read as. -/
def DigitRun.value (r : DigitRun) : Nat :=
  Specifier.kept (Text.toNat r.digits)

/-- A specifier as it is spelled. -/
structure Spelling where
  padding : Option (Option UInt16 × Alignment)
  sign : Option Sign
  alternate : Bool
  zero : Bool
  width : Option DigitRun
  grouping : Option Grouping
  precision : Option DigitRun
  code : Option Code

/-- The fill, if there is one, and the alignment. -/
def paddingText : Option (Option UInt16 × Alignment) → Text
  | none => []
  | some (none, a) => [a.unit]
  | some (some u, a) => [u, a.unit]

/-- A part of one unit that may be missing. -/
def unitText {α : Type} (mark : α → UInt16) (part : Option α) : Text :=
  (part.map fun a => [mark a]).getD []

/-- A flag that may be missing. -/
def flagText (flag : UInt16) (isSet : Bool) : Text :=
  if isSet then [flag] else []

/-- A run of digits that may be missing. -/
def runText (r : Option DigitRun) : Text :=
  (r.map DigitRun.digits).getD []

/-- A precision that may be missing. -/
def precisionText (r : Option DigitRun) : Text :=
  (r.map fun r => unit '.' :: r.digits).getD []

namespace Spelling

/-- The text from the code on. -/
def fromCode (p : Spelling) : Text :=
  unitText Code.unit p.code

/-- The text from the precision on. -/
def fromPrecision (p : Spelling) : Text :=
  precisionText p.precision ++ p.fromCode

/-- The text from the grouping on. -/
def fromGrouping (p : Spelling) : Text :=
  unitText Grouping.unit p.grouping ++ p.fromPrecision

/-- The text from the width on. -/
def fromWidth (p : Spelling) : Text :=
  runText p.width ++ p.fromGrouping

/-- The text from the zero flag on. -/
def fromZero (p : Spelling) : Text :=
  flagText (unit '0') p.zero ++ p.fromWidth

/-- The text from the mark for alternate forms on. -/
def fromAlternate (p : Spelling) : Text :=
  flagText (unit '#') p.alternate ++ p.fromZero

/-- The text from the sign on. -/
def fromSign (p : Spelling) : Text :=
  unitText Sign.unit p.sign ++ p.fromAlternate

/-- The text of a spelling: its parts in order. -/
def text (p : Spelling) : Text :=
  paddingText p.padding ++ p.fromSign

/-- The specifier that is spelled. -/
def specifier (p : Spelling) : Specifier :=
  ⟨p.padding, p.sign, p.alternate, p.zero, p.width.map DigitRun.value, p.grouping,
    p.precision.map DigitRun.value, p.code⟩

/-- Whether a zero in front of the width is the flag. -/
def IsGreedy (p : Spelling) : Prop :=
  p.zero = false → ∀ r ∈ p.width, r.digits.head? ≠ some (unit '0')

end Spelling

/-! ## Units of the parts -/

/-- Whether the units that name the members of a part are told apart by their marks. -/
def Names {α : Type} (part : UInt16 → Option α) (mark : α → UInt16) : Prop :=
  ∀ u a, part u = some a ↔ u = mark a

theorem names_find? {α : Type} {mark : α → UInt16} {all : List α} (hall : ∀ a, a ∈ all)
    (hmark : Function.Injective mark) : Names (fun u => all.find? fun a => mark a == u) mark := by
  intro u a
  constructor
  · intro h
    have hfound := List.find?_some h
    exact (beq_iff_eq.1 hfound).symm
  · rintro rfl
    cases hfind : all.find? fun b => mark b == mark a with
    | none => exact absurd BEq.rfl (List.find?_eq_none.1 hfind a (hall a))
    | some b =>
      have hfound := List.find?_some hfind
      exact hfind.trans (congrArg some (hmark (beq_iff_eq.1 hfound)))

theorem names_sign : Names Sign.ofUnit? Sign.unit :=
  names_find? (by intro s; cases s <;> decide) (by intro s t; cases s <;> cases t <;> decide)

theorem names_grouping : Names Grouping.ofUnit? Grouping.unit :=
  names_find? (by intro g; cases g <;> decide) (by intro g h; cases g <;> cases h <;> decide)

theorem names_alignment : Names Alignment.ofUnit? Alignment.unit :=
  names_find? (by intro a; cases a <;> decide) (by intro a b; cases a <;> cases b <;> decide)

theorem names_code : Names Code.ofUnit? Code.unit :=
  names_find? (by intro c; cases c <;> decide) (by intro c d; cases c <;> cases d <;> decide)

/-! ## Runs of digits -/

theorem isDigit_of_mem_runText {r : Option DigitRun} {u : UInt16} (h : u ∈ runText r) :
    Text.isDigit u = true := by
  cases r with
  | none => cases h
  | some r => exact List.all_eq_true.1 r.decimal u h

theorem runText_injective {r r' : Option DigitRun} (h : runText r = runText r') : r = r' := by
  cases r with
  | none =>
    cases r' with
    | none => rfl
    | some r' => exact absurd h.symm r'.nonempty
  | some r =>
    cases r' with
    | none => exact absurd h r.nonempty
    | some r' =>
      cases r
      cases r'
      cases h
      rfl

theorem all_runText (r : Option DigitRun) : (runText r).all Text.isDigit = true :=
  List.all_eq_true.2 fun _ hu => isDigit_of_mem_runText hu

theorem exists_runText {ds : Text} (h : ds.all Text.isDigit = true) :
    ∃ r : Option DigitRun, runText r = ds := by
  cases ds with
  | nil => exact ⟨none, rfl⟩
  | cons u ds => exact ⟨some ⟨u :: ds, List.cons_ne_nil u ds, h⟩, rfl⟩

theorem head?_runText (r : DigitRun) (t : Text) :
    (runText (some r) ++ t).head? = r.digits.head? :=
  List.head?_append_of_ne_nil r.digits r.nonempty

/-! ## The order of the parts -/

/-- The place of the part that a unit can begin, in the order of the parts behind the padding; zero
for units that begin none of them. -/
def stage (u : UInt16) : Nat :=
  if (Sign.ofUnit? u).isSome then 1
  else if u == unit '#' then 2
  else if Text.isDigit u then 3
  else if (Grouping.ofUnit? u).isSome then 4
  else if u == unit '.' then 5
  else if (Code.ofUnit? u).isSome then 6
  else 0

theorem stage_sign (s : Sign) : stage s.unit = 1 := by
  cases s <;> decide

theorem stage_alternate : stage (unit '#') = 2 := by
  decide

theorem stage_of_isDigit {u : UInt16} (h : Text.isDigit u = true) : stage u = 3 := by
  have hsign : ¬(Sign.ofUnit? u).isSome = true := by
    intro hsome
    obtain ⟨s, hs⟩ := Option.isSome_iff_exists.1 hsome
    rw [(names_sign u s).1 hs] at h
    cases s <;> exact absurd h (by decide)
  have hmark : ¬(u == unit '#') = true := by
    intro heq
    rw [beq_iff_eq.1 heq] at h
    exact absurd h (by decide)
  rw [stage, if_neg hsign, if_neg hmark, if_pos h]

theorem stage_grouping (g : Grouping) : stage g.unit = 4 := by
  cases g <;> decide

theorem stage_point : stage (unit '.') = 5 := by
  decide

theorem stage_code (c : Code) : stage c.unit = 6 := by
  cases c <;> decide

theorem stage_alignment (a : Alignment) : stage a.unit = 0 := by
  cases a <;> decide

/-- Whether a text begins with a part of at least the given place, or is empty. -/
def startsAt (place : Nat) (t : Text) : Bool :=
  Text.stops (fun u => decide (stage u < place)) t

theorem stops_of_startsAt {p : UInt16 → Bool} {place : Nat} {t : Text}
    (hp : ∀ u, p u = true → stage u < place) (h : startsAt place t = true) :
    Text.stops p t = true :=
  Text.stops_of_imp (fun u hu => decide_eq_true (hp u hu)) h

theorem startsAt_append {place : Nat} {s t : Text} (hs : ∀ u ∈ s.head?, place ≤ stage u)
    (ht : startsAt (place + 1) t = true) : startsAt place (s ++ t) = true := by
  cases s with
  | nil => exact stops_of_startsAt (fun u hu => Nat.lt_succ_of_lt (of_decide_eq_true hu)) ht
  | cons u s =>
    have hplace := hs u rfl
    simp [startsAt, hplace]

theorem mem_unitText {α : Type} {mark : α → UInt16} {part : Option α} {u : UInt16}
    (h : u ∈ unitText mark part) : ∃ a, u = mark a := by
  cases part with
  | none => cases h
  | some a => exact ⟨a, List.mem_singleton.1 h⟩

theorem mem_flagText {flag u : UInt16} {isSet : Bool} (h : u ∈ flagText flag isSet) :
    u = flag := by
  cases isSet with
  | false => cases h
  | true => exact List.mem_singleton.1 h

theorem stops_of_startsAt_digit {place : Nat} (hplace : 3 < place) (h : startsAt place t = true) :
    Text.stops Text.isDigit t = true :=
  stops_of_startsAt (fun u hu => by rwa [stage_of_isDigit hu]) h

namespace Spelling

variable (p : Spelling)

theorem startsAt_fromCode : startsAt 6 p.fromCode = true := by
  cases hcode : p.code with
  | none => rw [fromCode, hcode]; rfl
  | some c => simp [fromCode, hcode, unitText, startsAt, stage_code]

theorem startsAt_fromPrecision : startsAt 5 p.fromPrecision = true := by
  apply startsAt_append _ p.startsAt_fromCode
  intro u hu
  cases hprecision : p.precision with
  | none => rw [hprecision] at hu; cases hu
  | some r =>
    rw [hprecision] at hu
    rw [← Option.some.inj hu, stage_point]

theorem startsAt_fromGrouping : startsAt 4 p.fromGrouping = true := by
  apply startsAt_append _ p.startsAt_fromPrecision
  intro u hu
  obtain ⟨g, rfl⟩ := mem_unitText (List.mem_of_mem_head? hu)
  rw [stage_grouping]

theorem startsAt_fromWidth : startsAt 3 p.fromWidth = true := by
  apply startsAt_append _ p.startsAt_fromGrouping
  intro u hu
  rw [stage_of_isDigit (isDigit_of_mem_runText (List.mem_of_mem_head? hu))]

theorem startsAt_fromZero : startsAt 3 p.fromZero = true := by
  cases hzero : p.zero with
  | false => simpa [fromZero, hzero, flagText] using p.startsAt_fromWidth
  | true => simp [fromZero, hzero, flagText, startsAt, stage_of_isDigit (u := unit '0') rfl]

theorem startsAt_fromAlternate : startsAt 2 p.fromAlternate = true := by
  apply startsAt_append _ p.startsAt_fromZero
  intro u hu
  rw [mem_flagText (List.mem_of_mem_head? hu), stage_alternate]

/-- No unit behind the padding is that of an alignment. -/
theorem stage_pos_of_mem_fromSign {u : UInt16} (h : u ∈ p.fromSign) : 0 < stage u := by
  have hdigit (hu : Text.isDigit u = true) : 0 < stage u := by
    rw [stage_of_isDigit hu]
    decide
  simp only [fromSign, fromAlternate, fromZero, fromWidth, fromGrouping, fromPrecision, fromCode,
    List.mem_append] at h
  rcases h with hsign | halternate | hzero | hwidth | hgrouping | hprecision | hcode
  · obtain ⟨s, rfl⟩ := mem_unitText hsign
    simp [stage_sign]
  · simp [mem_flagText halternate, stage_alternate]
  · rw [mem_flagText hzero]
    decide
  · exact hdigit (isDigit_of_mem_runText hwidth)
  · obtain ⟨g, rfl⟩ := mem_unitText hgrouping
    simp [stage_grouping]
  · cases hr : p.precision with
    | none => rw [hr] at hprecision; cases hprecision
    | some r =>
      rw [hr] at hprecision
      rcases List.mem_cons.1 hprecision with rfl | hdigits
      · simp [stage_point]
      · exact hdigit (List.all_eq_true.1 r.decimal u hdigits)
  · obtain ⟨c, rfl⟩ := mem_unitText hcode
    simp [stage_code]

end Spelling

/-! ## Taking parts -/

section Taking

open Specifier

variable {α : Type} {part : UInt16 → Option α} {mark : α → UInt16} {flag : UInt16} {t rest : Text}

theorem takeUnit_append (hnames : Names part mark) (x : Option α)
    (ht : Text.stops (fun u => (part u).isSome) t = true) :
    takeUnit part (unitText mark x ++ t) = (x, t) := by
  cases x with
  | some a =>
    have hpart := (hnames (mark a) a).2 rfl
    simp [unitText, takeUnit, hpart]
  | none =>
    cases t with
    | nil => rfl
    | cons u t =>
      have hpart : part u = none := by simpa using ht
      simp [unitText, takeUnit, hpart]

theorem append_of_takeUnit {x : Option α} (hnames : Names part mark)
    (h : takeUnit part t = (x, rest)) : t = unitText mark x ++ rest := by
  cases t with
  | nil => cases h; rfl
  | cons u t =>
    rw [takeUnit] at h
    split at h
    · next a ha =>
      cases h
      rw [(hnames u a).1 ha]
      rfl
    · cases h
      rfl

theorem takeFlag_cons (u : UInt16) :
    takeFlag flag (u :: t) = if u = flag then (true, t) else (false, u :: t) := by
  by_cases h : u = flag <;> simp [takeFlag, takeUnit, h]

theorem takeFlag_append (isSet : Bool) (ht : isSet = false → t.head? ≠ some flag) :
    takeFlag flag (flagText flag isSet ++ t) = (isSet, t) := by
  cases isSet with
  | true => simp [flagText, takeFlag_cons]
  | false =>
    cases t with
    | nil => rfl
    | cons u t =>
      have hne : u ≠ flag := by simpa using ht rfl
      simp [flagText, takeFlag_cons, hne]

theorem append_of_takeFlag {isSet : Bool} (h : takeFlag flag t = (isSet, rest)) :
    t = flagText flag isSet ++ rest ∧ (isSet = false → rest.head? ≠ some flag) := by
  cases t with
  | nil =>
    cases h
    simp [flagText]
  | cons u t =>
    rw [takeFlag_cons] at h
    split at h
    · next heq =>
      cases h
      simp [flagText, heq]
    · next hne =>
      cases h
      simp [flagText, hne]

theorem kept_of_scaled {n : ℕ} {x : Magnitude} (h : x.scaled = n * Magnitude.unitsPerOne) :
    kept n = n := by
  rw [kept, Magnitude.ofRatio, Magnitude.nearest_of_scaled h]
  exact Number.whole_of_scaled h

theorem kept_of_le {n : ℕ} (h : n ≤ 2 ^ 53) : kept n = n := by
  obtain ⟨x, hx⟩ := Magnitude.exists_multiple h
  exact kept_of_scaled hx

theorem kept_of_overflow {n : ℕ} (h : Number.overflow ≤ n) : kept n = boundless := by
  rw [kept, Magnitude.ofRatio, Number.nearest_eq_none_iff_overflow.2 h]
  exact Option.getD_none

theorem overflow_le_boundless : Number.overflow ≤ boundless := by
  -- The exponents are not spelled out, so that nothing evaluates the powers.
  obtain ⟨t, u, ht, hover, hu⟩ : ∃ t u, u = 54 + t ∧
      Number.overflow = (2 ^ 54 - 1) * Nat.pow 2 t ∧ boundless = Nat.pow 2 u :=
    ⟨970, 1024, by decide, by unfold Number.overflow; rfl, by unfold boundless; rfl⟩
  rw [hover, hu, ht]
  change _ * 2 ^ t ≤ 2 ^ (54 + t)
  rw [Nat.pow_add]
  exact Nat.mul_le_mul_right _ (Nat.sub_le _ _)

/-- What is kept is kept as it is. -/
theorem kept_kept (n : ℕ) : kept (kept n) = kept n := by
  cases h : Magnitude.ofRatio n 1 with
  | some x =>
    have hkept : kept n = x.whole := by simp [kept, h]
    rw [hkept]
    exact kept_of_scaled (Number.isWhole_iff.1 (Magnitude.isWhole_of_nearest h))
  | none =>
    have hoverflow := Number.nearest_eq_none_iff_overflow.1 h
    rw [kept_of_overflow hoverflow, kept_of_overflow overflow_le_boundless]

theorem takeDigits_append (r : Option DigitRun) (ht : Text.stops Text.isDigit t = true) :
    takeDigits (runText r ++ t) = (r.map DigitRun.value, t) := by
  simp only [takeDigits, Text.takeWhile_append (all_runText r) ht,
    Text.dropWhile_append (all_runText r) ht]
  cases r with
  | none => rfl
  | some r => simp [runText, DigitRun.value, r.nonempty]

theorem exists_of_takeDigits {x : Option Nat} (h : takeDigits t = (x, rest)) :
    ∃ r : Option DigitRun, x = r.map DigitRun.value ∧ t = runText r ++ rest := by
  obtain ⟨rfl, rfl⟩ := Prod.mk.inj h
  by_cases hempty : t.takeWhile Text.isDigit = []
  · refine ⟨none, by simp [hempty], ?_⟩
    conv_lhs => rw [← List.takeWhile_append_dropWhile (p := Text.isDigit) (l := t), hempty]
    rfl
  · refine ⟨some ⟨t.takeWhile Text.isDigit, hempty, List.all_takeWhile⟩, ?_, ?_⟩
    · simp [hempty, DigitRun.value]
    · exact List.takeWhile_append_dropWhile.symm

theorem takePrecision_append (r : Option DigitRun) (ht : startsAt 6 t = true) :
    takePrecision (precisionText r ++ t) = (r.map DigitRun.value, t) := by
  cases r with
  | some r =>
    have hdigits := takeDigits_append (some r) (stops_of_startsAt_digit (by decide) ht)
    rw [runText, Option.map_some, Option.getD_some] at hdigits
    simp [precisionText, takePrecision, hdigits]
  | none =>
    cases t with
    | nil => rfl
    | cons u t =>
      have hpoint : u ≠ unit '.' := by
        rintro rfl
        simp [startsAt, stage_point] at ht
      simp [precisionText, takePrecision, hpoint]

theorem exists_of_takePrecision {x : Option Nat} (h : takePrecision t = (x, rest)) :
    ∃ r : Option DigitRun, x = r.map DigitRun.value ∧ t = precisionText r ++ rest := by
  rw [takePrecision.eq_def] at h
  split at h
  · cases h
    exact ⟨none, rfl, rfl⟩
  · next u t =>
    split at h
    · next hpoint =>
      split at h
      · next n after htake =>
        cases h
        obtain ⟨r, hr, rfl⟩ := exists_of_takeDigits htake
        cases r with
        | none => cases hr
        | some r => exact ⟨some r, hr, by rw [beq_iff_eq.1 hpoint]; rfl⟩
      · cases h
        exact ⟨none, rfl, rfl⟩
    · cases h
      exact ⟨none, rfl, rfl⟩

theorem ofUnit?_eq_none {u : UInt16} (h : 0 < stage u) : Alignment.ofUnit? u = none := by
  cases hu : Alignment.ofUnit? u with
  | none => rfl
  | some a =>
    rw [(names_alignment u a).1 hu, stage_alignment] at h
    exact absurd h (Nat.lt_irrefl 0)

theorem ofUnit?_unit (a : Alignment) : Alignment.ofUnit? a.unit = some a :=
  (names_alignment a.unit a).2 rfl

theorem takePadding_append (x : Option (Option UInt16 × Alignment))
    (ht : ∀ u ∈ t, 0 < stage u) : takePadding (paddingText x ++ t) = (x, t) := by
  rcases x with _ | ⟨_ | u, a⟩
  · rcases t with _ | ⟨u, _ | ⟨v, t⟩⟩
    · rfl
    · simp [paddingText, takePadding, ofUnit?_eq_none (ht u List.mem_cons_self)]
    · simp [paddingText, takePadding, ofUnit?_eq_none (ht u List.mem_cons_self),
        ofUnit?_eq_none (ht v (by simp))]
  · rcases t with _ | ⟨v, t⟩
    · simp [paddingText, takePadding, ofUnit?_unit]
    · simp [paddingText, takePadding, ofUnit?_unit, ofUnit?_eq_none (ht v List.mem_cons_self)]
  · simp [paddingText, takePadding, ofUnit?_unit]

theorem append_of_takePadding {x : Option (Option UInt16 × Alignment)}
    (h : takePadding t = (x, rest)) : t = paddingText x ++ rest := by
  rw [takePadding.eq_def] at h
  split at h
  · cases h
    rfl
  · next u =>
    split at h
    · next a ha =>
      cases h
      rw [(names_alignment u a).1 ha]
      rfl
    · cases h
      rfl
  · next u v after =>
    split at h
    · next a ha =>
      cases h
      rw [(names_alignment v a).1 ha]
      rfl
    · split at h
      · next a ha =>
        cases h
        rw [(names_alignment u a).1 ha]
        rfl
      · cases h
        rfl

/-- The first unit is a fill exactly if the second one is that of an alignment. -/
theorem takePadding_fill_iff {u : UInt16} {a : Alignment} :
    (takePadding t).1 = some (some u, a) ↔ ∃ after, t = u :: a.unit :: after := by
  constructor
  · intro h
    have htake : takePadding t = (some (some u, a), (takePadding t).2) := Prod.ext h rfl
    exact ⟨_, append_of_takePadding htake⟩
  · rintro ⟨after, rfl⟩
    simp [takePadding, ofUnit?_unit]

end Taking

/-! ## Reading spellings -/

namespace Spelling

open Specifier

variable {p q : Spelling} {t : Text}

theorem takePadding_text (p : Spelling) : takePadding p.text = (p.padding, p.fromSign) :=
  takePadding_append p.padding fun _ => p.stage_pos_of_mem_fromSign

theorem takeUnit_fromSign (p : Spelling) :
    takeUnit Sign.ofUnit? p.fromSign = (p.sign, p.fromAlternate) := by
  apply takeUnit_append names_sign
  apply stops_of_startsAt _ p.startsAt_fromAlternate
  intro u hu
  obtain ⟨s, hs⟩ := Option.isSome_iff_exists.1 hu
  rw [(names_sign u s).1 hs, stage_sign]
  decide

theorem head?_ne_of_startsAt {u : UInt16} {place : Nat} (hu : stage u < place)
    (h : startsAt place t = true) : t.head? ≠ some u := by
  cases t with
  | nil => exact nofun
  | cons v t =>
    intro hv
    obtain rfl := Option.some.inj hv
    simp [startsAt, hu] at h

theorem takeFlag_fromAlternate (p : Spelling) :
    takeFlag (unit '#') p.fromAlternate = (p.alternate, p.fromZero) :=
  takeFlag_append p.alternate fun _ => head?_ne_of_startsAt (by decide) p.startsAt_fromZero

/-- Without the flag the width of a greedy spelling does not begin with a zero. -/
theorem takeFlag_fromZero (h : p.IsGreedy) :
    takeFlag (unit '0') p.fromZero = (p.zero, p.fromWidth) := by
  apply takeFlag_append p.zero
  intro hzero
  cases hwidth : p.width with
  | none =>
    rw [fromWidth, hwidth]
    exact head?_ne_of_startsAt (by decide) p.startsAt_fromGrouping
  | some r =>
    have hhead := h hzero r hwidth
    rwa [fromWidth, hwidth, head?_runText]

theorem takeDigits_fromWidth (p : Spelling) :
    takeDigits p.fromWidth = (p.width.map DigitRun.value, p.fromGrouping) :=
  takeDigits_append p.width (stops_of_startsAt_digit (by decide) p.startsAt_fromGrouping)

theorem takeUnit_fromGrouping (p : Spelling) :
    takeUnit Grouping.ofUnit? p.fromGrouping = (p.grouping, p.fromPrecision) := by
  apply takeUnit_append names_grouping
  apply stops_of_startsAt _ p.startsAt_fromPrecision
  intro u hu
  obtain ⟨g, hg⟩ := Option.isSome_iff_exists.1 hu
  rw [(names_grouping u g).1 hg, stage_grouping]
  decide

theorem takePrecision_fromPrecision (p : Spelling) :
    takePrecision p.fromPrecision = (p.precision.map DigitRun.value, p.fromCode) :=
  takePrecision_append p.precision p.startsAt_fromCode

theorem takeUnit_fromCode (p : Spelling) : takeUnit Code.ofUnit? p.fromCode = (p.code, []) := by
  have htake := takeUnit_append names_code p.code (t := []) rfl
  rwa [List.append_nil] at htake

/-- Reading finds the parts of a greedy spelling again. -/
theorem read_text (h : p.IsGreedy) : Specifier.read p.text = some p.specifier := by
  simp only [Specifier.read, takePadding_text, takeUnit_fromSign, takeFlag_fromAlternate,
    takeFlag_fromZero h, takeDigits_fromWidth, takeUnit_fromGrouping,
    takePrecision_fromPrecision, takeUnit_fromCode]
  rfl

/-- What is read is spelled. -/
theorem exists_of_read {s : Specifier} (h : Specifier.read t = some s) :
    ∃ p : Spelling, p.IsGreedy ∧ p.text = t ∧ p.specifier = s := by
  rcases hpadding : takePadding t with ⟨padding, t₁⟩
  rcases hsign : takeUnit Sign.ofUnit? t₁ with ⟨sign, t₂⟩
  rcases halternate : takeFlag (unit '#') t₂ with ⟨alternate, t₃⟩
  rcases hzero : takeFlag (unit '0') t₃ with ⟨zero, t₄⟩
  rcases hwidth : takeDigits t₄ with ⟨width, t₅⟩
  rcases hgrouping : takeUnit Grouping.ofUnit? t₅ with ⟨grouping, t₆⟩
  rcases hprecision : takePrecision t₆ with ⟨precision, t₇⟩
  rcases hcode : takeUnit Code.ofUnit? t₇ with ⟨code, t₈⟩
  simp only [Specifier.read, hpadding, hsign, halternate, hzero, hwidth, hgrouping, hprecision,
    hcode] at h
  split at h
  · next hrest =>
    cases h
    obtain ⟨w, rfl, hw⟩ := exists_of_takeDigits hwidth
    obtain ⟨r, rfl, hr⟩ := exists_of_takePrecision hprecision
    obtain ⟨hflag, hgreedy⟩ := append_of_takeFlag hzero
    refine ⟨⟨padding, sign, alternate, zero, w, grouping, r, code⟩, ?_, ?_, rfl⟩
    · intro hunset run hrun
      obtain rfl : w = some run := hrun
      have hhead := hgreedy hunset
      rwa [hw, head?_runText] at hhead
    · rw [append_of_takePadding hpadding, append_of_takeUnit names_sign hsign,
        (append_of_takeFlag halternate).1, hflag, hw, append_of_takeUnit names_grouping hgrouping,
        hr, append_of_takeUnit names_code hcode, List.isEmpty_iff.1 hrest, List.append_nil]
      rfl
  · cases h

/-! ## One spelling for each text -/

theorem precision_eq {r r' : Option DigitRun} {t' : Text} (ht : startsAt 6 t = true)
    (ht' : startsAt 6 t' = true) (h : precisionText r ++ t = precisionText r' ++ t') :
    r = r' ∧ t = t' := by
  have htake := takePrecision_append r ht
  rw [h, takePrecision_append r' ht'] at htake
  obtain ⟨hvalue, rfl⟩ := Prod.mk.inj htake
  cases r with
  | none =>
    cases r' with
    | none => exact ⟨rfl, rfl⟩
    | some r' => cases hvalue
  | some r =>
    cases r' with
    | none => cases hvalue
    | some r' =>
      have hruns : runText (some r) = runText (some r') :=
        List.append_cancel_right (List.cons.inj h).2
      exact ⟨runText_injective hruns, rfl⟩

/-- No text has two greedy spellings. -/
theorem eq_of_text_eq (hp : p.IsGreedy) (hq : q.IsGreedy) (h : p.text = q.text) : p = q := by
  have hpadding : (p.padding, p.fromSign) = (q.padding, q.fromSign) := by
    rw [← takePadding_text, h, takePadding_text]
  obtain ⟨hpadding, h⟩ := Prod.mk.inj hpadding
  have hsign : (p.sign, p.fromAlternate) = (q.sign, q.fromAlternate) := by
    rw [← takeUnit_fromSign, h, takeUnit_fromSign]
  obtain ⟨hsign, h⟩ := Prod.mk.inj hsign
  have halternate : (p.alternate, p.fromZero) = (q.alternate, q.fromZero) := by
    rw [← takeFlag_fromAlternate, h, takeFlag_fromAlternate]
  obtain ⟨halternate, h⟩ := Prod.mk.inj halternate
  have hzero : (p.zero, p.fromWidth) = (q.zero, q.fromWidth) := by
    rw [← takeFlag_fromZero hp, h, takeFlag_fromZero hq]
  obtain ⟨hzero, h⟩ := Prod.mk.inj hzero
  obtain ⟨hwidth, h⟩ := Text.append_inj_of_stops (all_runText p.width) (all_runText q.width)
    (stops_of_startsAt_digit (by decide) p.startsAt_fromGrouping)
    (stops_of_startsAt_digit (by decide) q.startsAt_fromGrouping) h
  have hgrouping : (p.grouping, p.fromPrecision) = (q.grouping, q.fromPrecision) := by
    rw [← takeUnit_fromGrouping, h, takeUnit_fromGrouping]
  obtain ⟨hgrouping, h⟩ := Prod.mk.inj hgrouping
  obtain ⟨hprecision, h⟩ := precision_eq p.startsAt_fromCode q.startsAt_fromCode h
  have hcode : (p.code, ([] : Text)) = (q.code, []) := by
    rw [← takeUnit_fromCode, h, takeUnit_fromCode]
  have hwidth := runText_injective hwidth
  have hcode := (Prod.mk.inj hcode).1
  cases p
  cases q
  simp_all

/-- A zero at the start of the width is the flag instead. -/
theorem exists_isGreedy (p : Spelling) : ∃ q : Spelling, q.IsGreedy ∧ q.text = p.text := by
  by_cases hgreedy : p.IsGreedy
  · exact ⟨p, hgreedy, rfl⟩
  · obtain ⟨hunset, r, hr, hhead⟩ : p.zero = false ∧
        ∃ r ∈ p.width, r.digits.head? = some (unit '0') := by
      simpa [IsGreedy] using hgreedy
    obtain ⟨ds, hds⟩ := List.head?_eq_some_iff.1 hhead
    have hdecimal : ds.all Text.isDigit = true := by
      have hall := r.decimal
      rw [hds, List.all_cons, Bool.and_eq_true] at hall
      exact hall.2
    obtain ⟨w, hw⟩ := exists_runText hdecimal
    refine ⟨{ p with zero := true, width := w }, nofun, ?_⟩
    have hzero : fromZero { p with zero := true, width := w } = p.fromZero := by
      rw [fromZero, fromWidth, fromZero, fromWidth, hunset, hw, show p.width = some r from hr]
      change unit '0' :: (ds ++ p.fromGrouping) = r.digits ++ p.fromGrouping
      rw [hds, List.cons_append]
    rw [text, fromSign, fromAlternate, hzero]
    rfl

end Spelling

/-! ## Writing -/

/-- The decimal numeral of a number, as a run of digits. -/
def DigitRun.ofNat (n : Nat) : DigitRun :=
  ⟨Text.ofNat n, Text.ofNat_ne_nil n, Text.all_isDigit_ofNat n⟩

theorem DigitRun.value_ofNat (n : Nat) : (ofNat n).value = Specifier.kept n :=
  congrArg Specifier.kept (Text.toNat_ofNat n)

/-- No numeral but that of zero begins with a zero. -/
theorem head?_ofNat_ne {n : Nat} (hn : n ≠ 0) : (Text.ofNat n).head? ≠ some (unit '0') := by
  have hdigits : Nat.digits 10 n ≠ [] := Nat.digits_ne_nil_iff_ne_zero.2 hn
  have hunit : ∀ d < 10, Text.digitUnit d = unit '0' → d = 0 := by decide
  rw [Text.ofNat, Text.ofNatBase, Text.digits_eq_reverse (by decide) hn, List.head?_map,
    List.head?_reverse, List.getLast?_eq_some_getLast hdigits, Option.map_some, ne_eq,
    Option.some.injEq]
  intro hlast
  apply Nat.getLast_digit_ne_zero 10 hn
  exact hunit _ (Nat.digits_lt_base (by decide) (List.getLast_mem hdigits)) hlast

namespace Specifier

/-- Whether width and precision are numbers of double precision. -/
def IsKept (s : Specifier) : Prop :=
  (∀ n ∈ s.width, kept n = n) ∧ ∀ n ∈ s.precision, kept n = n

theorem isKept_of_le {s : Specifier} (hwidth : ∀ n ∈ s.width, n ≤ 2 ^ 53)
    (hprecision : ∀ n ∈ s.precision, n ≤ 2 ^ 53) : s.IsKept :=
  ⟨fun n hn => kept_of_le (hwidth n hn), fun n hn => kept_of_le (hprecision n hn)⟩

/-- The spelling of a specifier in which its numbers are numerals. -/
def spelling (s : Specifier) : Spelling :=
  ⟨s.padding, s.sign, s.alternate, s.zero, s.width.map DigitRun.ofNat, s.grouping,
    s.precision.map DigitRun.ofNat, s.code⟩

theorem specifier_spelling {s : Specifier} (h : s.IsKept) : s.spelling.specifier = s := by
  have hvalue {n : Option Nat} (hn : ∀ k ∈ n, kept k = k) :
      (n.map DigitRun.ofNat).map DigitRun.value = n := by
    cases n with
    | none => rfl
    | some n => exact congrArg some ((DigitRun.value_ofNat n).trans (hn n rfl))
  simp [spelling, Spelling.specifier, hvalue h.1, hvalue h.2]

theorem text_spelling (s : Specifier) : s.spelling.text = s.write := by
  obtain ⟨padding, sign, alternate, zero, width, grouping, precision, code⟩ := s
  have hpadding : paddingText padding =
      part (fun q => part (fun u => [u]) q.1 ++ [q.2.unit]) padding := by
    rcases padding with _ | ⟨_ | u, a⟩ <;> rfl
  have hwidth : runText (width.map DigitRun.ofNat) = part Text.ofNat width := by
    cases width <;> rfl
  have hprecision : precisionText (precision.map DigitRun.ofNat) =
      part (fun n => unit '.' :: Text.ofNat n) precision := by
    cases precision <;> rfl
  simp only [spelling, Spelling.text, Spelling.fromSign, Spelling.fromAlternate,
    Spelling.fromZero, Spelling.fromWidth, Spelling.fromGrouping, Spelling.fromPrecision,
    Spelling.fromCode, hpadding, hwidth, hprecision, write, List.append_assoc]
  rfl

theorem isGreedy_spelling {s : Specifier} (h : s.zero = false → s.width ≠ some 0) :
    s.spelling.IsGreedy := by
  intro hunset r hr
  obtain ⟨n, hn, rfl⟩ := Option.map_eq_some_iff.1 hr
  apply head?_ofNat_ne
  rintro rfl
  exact h hunset hn

/-- Writing is undone by reading, unless it puts a width of zero where the flag would stand. -/
theorem read_written {s : Specifier} (hkept : s.IsKept) (h : s.zero = false → s.width ≠ some 0) :
    read s.write = some s := by
  rw [← text_spelling, Spelling.read_text (isGreedy_spelling h), specifier_spelling hkept]

end Specifier

/-! ## Accepted texts -/

namespace Spelling

variable {p : Spelling} {t : Text}

theorem exists_read_iff (t : Text) :
    (∃ s, Specifier.read t = some s) ↔ ∃ p : Spelling, p.text = t := by
  constructor
  · rintro ⟨s, hs⟩
    obtain ⟨p, -, hp, -⟩ := exists_of_read hs
    exact ⟨p, hp⟩
  · rintro ⟨p, rfl⟩
    obtain ⟨q, hq, htext⟩ := exists_isGreedy p
    exact ⟨q.specifier, by rw [← htext, read_text hq]⟩

theorem existsUnique_isGreedy (h : ∃ p : Spelling, p.text = t) :
    ∃! p : Spelling, p.IsGreedy ∧ p.text = t := by
  obtain ⟨p, rfl⟩ := h
  obtain ⟨q, hq, htext⟩ := exists_isGreedy p
  refine ⟨q, ⟨hq, htext⟩, ?_⟩
  rintro r ⟨hr, hrtext⟩
  exact eq_of_text_eq hr hq (hrtext.trans htext.symm)

theorem fill_iff (p : Spelling) : (∃ u a, p.padding = some (some u, a)) ↔
    ∃ u a after, p.text = u :: Alignment.unit a :: after := by
  apply exists_congr
  intro u
  apply exists_congr
  intro a
  rw [← takePadding_fill_iff, takePadding_text]

theorem zero_iff (h : p.IsGreedy) : p.zero = true ↔ ∃ after, p.fromZero = unit '0' :: after := by
  constructor
  · intro hset
    rw [fromZero, hset]
    exact ⟨_, rfl⟩
  · rintro ⟨after, hafter⟩
    have htake := takeFlag_fromZero h
    rw [hafter, takeFlag_cons, if_pos rfl] at htake
    exact (Prod.mk.inj htake).1.symm

theorem isKept_specifier (p : Spelling) : p.specifier.IsKept := by
  constructor <;>
  · intro n hn
    obtain ⟨r, -, rfl⟩ := Option.map_eq_some_iff.1 hn
    exact kept_kept _

end Spelling

section

variable [PureHost]

theorem formatWith_of_read {s : Specifier} {t : Text} (hread : Specifier.read t = some s)
    (hne : t ≠ []) (v : Value) : formatWith v t = some <$> formatBy s v := by
  rw [formatWith, if_neg (by simpa using hne), hread]

theorem formatWith_of_read_eq_none {t : Text} (hread : Specifier.read t = none) (hne : t ≠ [])
    (v : Value) : formatWith v t = .error (.spec (.formatSyntax t) formatContext) := by
  rw [formatWith, if_neg (by simpa using hne), hread]

/-- A text is taken for a specifier exactly if it has a spelling, and then it has one greedy
spelling, which is what is read: the first unit is a fill if the second is that of an alignment, and
a zero where the width would start is the flag, which pads with zeros behind the sign unless there
is an alignment. Every other text is refused. A specifier that is written is read back, where width
and precision are numbers of double precision, as they are in every specifier that is read and up to
`2 ^ 53`. -/
theorem read_spelling (t : Text) :
    ((∃ s, Specifier.read t = some s) ↔ ∃ p : Spelling, p.text = t) ∧
    ((∃ p : Spelling, p.text = t) → ∃! p : Spelling, p.IsGreedy ∧ p.text = t) ∧
    (∀ p : Spelling, p.IsGreedy → p.text = t →
      Specifier.read t = some p.specifier ∧
      ((∃ u a, p.padding = some (some u, a)) ↔
        ∃ u a after, t = u :: Alignment.unit a :: after) ∧
      (p.zero = true ↔ ∃ after, p.fromZero = unit '0' :: after) ∧
      (p.zero = true → p.padding = none →
        p.specifier.alignment? = some .inside ∧ p.specifier.fillUnit = unit '0') ∧
      (t ≠ [] → ∀ v, formatWith v t = some <$> formatBy p.specifier v)) ∧
    ((¬∃ p : Spelling, p.text = t) →
      t ≠ [] ∧ ∀ v, formatWith v t = .error (.spec (.formatSyntax t) formatContext)) ∧
    (∀ s : Specifier, s.IsKept → (s.zero = false → s.width ≠ some 0) → s.write = t →
      Specifier.read t = some s) ∧
    (∀ s, Specifier.read t = some s → s.IsKept) ∧
    (∀ s : Specifier, (∀ n ∈ s.width, n ≤ 2 ^ 53) → (∀ n ∈ s.precision, n ≤ 2 ^ 53) →
      s.IsKept) := by
  refine ⟨Spelling.exists_read_iff t, Spelling.existsUnique_isGreedy, ?_, ?_, ?_, ?_,
    fun s => Specifier.isKept_of_le⟩
  · rintro p hp rfl
    refine ⟨Spelling.read_text hp, p.fill_iff, Spelling.zero_iff hp, ?_, ?_⟩
    · intro hzero hpadding
      simp [Spelling.specifier, Specifier.alignment?, Specifier.fillUnit, hzero, hpadding]
    · exact formatWith_of_read (Spelling.read_text hp)
  · intro hnone
    have hne : t ≠ [] := by
      rintro rfl
      exact hnone ⟨⟨none, none, false, false, none, none, none, none⟩, rfl⟩
    refine ⟨hne, formatWith_of_read_eq_none ?_ hne⟩
    cases hread : Specifier.read t with
    | none => rfl
    | some s => exact absurd ((Spelling.exists_read_iff t).1 ⟨s, hread⟩) hnone
  · rintro s hkept hs rfl
    exact Specifier.read_written hkept hs
  · intro s hread
    obtain ⟨p, -, -, rfl⟩ := Spelling.exists_of_read hread
    exact p.isKept_specifier

end

/-- A zero is a fill, the flag or a digit of the width, by where it stands. -/
example : Specifier.read (units "0<0020.0s") =
    some ⟨some (some (unit '0'), .left), none, false, true, some 20, none, some 0, some .text⟩ := by
  decide +kernel

end TreeExtraction.Format
