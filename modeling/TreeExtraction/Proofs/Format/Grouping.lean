import TreeExtraction.Proofs.Format.IntegerPart
import TreeExtraction.Proofs.Format.Padding
import TreeExtraction.Proofs.Format.Spelling

/-! # Grouped digits

Grouping puts separators between the decimal digits in front of the integer part of a number, before
each group of three counted from the last of them, and leaves the rest of the text as it is. These
are all digits but in a hexadecimal number, where letters may follow.
-/

namespace TreeExtraction.Format

open Outcome

variable {s : Specifier} {x : Magnitude} {separator : UInt16}
  {ds r lead grouped letters : Text}

/-- Whether a text consists of digits with a separator before each group of three of them, counted
from the right end, and with none in front. -/
inductive InThrees (separator : UInt16) : Text → Text → Prop
  | mk (first : Text) (threes : List Text) (hfirst : first.length ≤ 3)
      (hfront : first = [] → threes = []) (hthrees : ∀ group ∈ threes, group.length = 3) :
      InThrees separator (first ++ threes.flatten) (first ++ threes.flatMap (separator :: ·))

theorem length_flatten_mod {threes : List Text} (h : ∀ group ∈ threes, group.length = 3) :
    threes.flatten.length % 3 = 0 := by
  induction threes with
  | nil => rfl
  | cons group threes ih =>
    obtain ⟨hgroup, hthrees⟩ := List.forall_mem_cons.1 h
    rw [List.flatten_cons, List.length_append, hgroup, Nat.add_mod_left]
    exact ih hthrees

/-- A digit in front of whole groups begins a group of its own. -/
theorem inThrees_groupDigits (separator : UInt16) (ds : Text) :
    InThrees separator ds (groupDigits separator ds) := by
  induction ds with
  | nil => exact .mk [] [] (Nat.zero_le 3) (fun _ => rfl) nofun
  | cons u rest ih =>
    rw [groupDigits]
    generalize groupDigits separator rest = r at ih
    cases ih with
    | mk first threes hfirst hfront hthrees =>
      have hmod := length_flatten_mod hthrees
      split
      · next hwhole =>
        rw [Bool.and_eq_true, decide_eq_true_eq, List.length_append, Bool.not_eq_true',
          List.isEmpty_eq_false_iff] at hwhole
        obtain ⟨hlength, hne⟩ := hwhole
        have hfull : first.length = 3 := by
          have hfirstne : first.length ≠ 0 := by
            intro hzero
            have hnil := List.length_eq_zero_iff.1 hzero
            rw [hnil, hfront hnil] at hne
            exact hne rfl
          omega
        exact .mk [u] (first :: threes) (Nat.le_add_left 1 2) nofun
          (List.forall_mem_cons.2 ⟨hfull, hthrees⟩)
      · next hwhole =>
        rw [Bool.and_eq_true, decide_eq_true_eq, List.length_append, Bool.not_eq_true',
          List.isEmpty_eq_false_iff] at hwhole
        have hshort : first.length ≠ 3 := by
          intro hfull
          apply hwhole
          refine ⟨by omega, List.append_ne_nil_of_left_ne_nil ?_ _⟩
          exact List.ne_nil_of_length_pos (by omega)
        exact .mk (u :: first) threes (by rw [List.length_cons]; omega) nofun hthrees

/-! ## Separators -/

theorem bne_of_notMem {t : Text} (h : separator ∉ t) : ∀ u ∈ t, (u != separator) = true :=
  fun _ hu => bne_iff_ne.2 (ne_of_mem_of_not_mem hu h)

theorem filter_of_notMem {t : Text} (h : separator ∉ t) : t.filter (· != separator) = t :=
  List.filter_eq_self.2 (bne_of_notMem h)

theorem rtakeWhile_append {p : UInt16 → Bool} (s : Text) {t : Text} (h : ∀ u ∈ t, p u = true) :
    (s ++ t).rtakeWhile p = s.rtakeWhile p ++ t := by
  have hreverse : ∀ u ∈ t.reverse, p u = true := fun u hu => h u (List.mem_reverse.1 hu)
  rw [List.rtakeWhile, List.reverse_append, List.takeWhile_append_of_pos hreverse,
    List.reverse_append, List.reverse_reverse]
  rfl

namespace InThrees

/-- Without the separators there are the digits. -/
theorem filter_eq (h : InThrees separator ds r) (hds : separator ∉ ds) :
    r.filter (· != separator) = ds := by
  cases h with
  | mk first threes hfirst hfront hthrees =>
    rw [List.mem_append, not_or] at hds
    obtain ⟨hhead, htail⟩ := hds
    rw [List.filter_append, filter_of_notMem hhead]
    clear hfront hthrees
    congr 1
    induction threes with
    | nil => rfl
    | cons group threes ih =>
      rw [List.flatten_cons, List.mem_append, not_or] at htail
      rw [List.flatMap_cons, List.cons_append, List.filter_cons_of_neg (by simp),
        List.filter_append, filter_of_notMem htail.1, ih htail.2, List.flatten_cons]

/-- Behind the last separator there are three digits, or all of them if there are fewer. -/
theorem length_rtakeWhile (h : InThrees separator ds r) (hds : separator ∉ ds) :
    (r.rtakeWhile (· != separator)).length = min 3 ds.length := by
  cases h with
  | mk first threes hfirst hfront hthrees =>
    rcases List.eq_nil_or_concat' threes with rfl | ⟨threes, group, rfl⟩
    · rw [List.flatMap_nil, List.flatten_nil, List.append_nil] at *
      rw [List.rtakeWhile_eq_self_iff.2 (bne_of_notMem hds)]
      omega
    · rw [List.flatten_concat, ← List.append_assoc, List.mem_append, not_or] at hds
      have hgroup := hthrees group (by simp)
      have hlast : first ++ (threes ++ [group]).flatMap (separator :: ·) =
          first ++ threes.flatMap (separator :: ·) ++ [separator] ++ group := by
        simp
      rw [hlast, rtakeWhile_append _ (bne_of_notMem hds.2),
        List.rtakeWhile_concat_neg _ _ _ (by simp), List.nil_append, List.flatten_concat,
        List.length_append, List.length_append, hgroup]
      omega

theorem eq_of_length_le (h : InThrees separator ds r) (hlength : ds.length ≤ 3) : r = ds := by
  cases h with
  | mk first threes hfirst hfront hthrees =>
    cases threes with
    | nil => rfl
    | cons group threes =>
      have hne : first.length ≠ 0 := fun hzero =>
        List.cons_ne_nil _ _ (hfront (List.length_eq_zero_iff.1 hzero))
      have hgroup := hthrees group List.mem_cons_self
      simp only [List.length_append, List.flatten_cons] at hlength
      omega

/-- Letters behind grouped digits are grouped with them only if there is nothing to group. -/
theorem append_iff (h : InThrees separator lead grouped) (hsep : separator ∉ lead ++ letters) :
    InThrees separator (lead ++ letters) (grouped ++ letters) ↔
      letters = [] ∨ (lead ++ letters).length ≤ 3 := by
  constructor
  · intro hall
    have hlength := hall.length_rtakeWhile hsep
    rw [List.mem_append, not_or] at hsep
    rw [rtakeWhile_append grouped (bne_of_notMem hsep.2), List.length_append, List.length_append,
      h.length_rtakeWhile hsep.1] at hlength
    rw [← List.length_eq_zero_iff, List.length_append]
    omega
  · rintro (rfl | hlength)
    · rwa [List.append_nil, List.append_nil]
    · rw [h.eq_of_length_le (by rw [List.length_append] at hlength; omega)]
      have hfew : InThrees separator (lead ++ letters ++ []) (lead ++ letters ++ []) :=
        .mk (lead ++ letters) [] hlength (fun _ => rfl) nofun
      rwa [List.append_nil] at hfew

end InThrees

/-! ## Grouped numbers -/

/-- Only the decimal digits in front are grouped. -/
theorem groupLeading_append (separator : UInt16) {tail : Text}
    (hlead : lead.all Text.isDigit = true) (hletters : Text.stops Text.isDigit letters = true)
    (htail : Text.stops Text.isDigit tail = true) :
    groupLeading separator (lead ++ letters ++ tail) =
      groupDigits separator lead ++ letters ++ tail := by
  have hrest : Text.stops Text.isDigit (letters ++ tail) = true := by
    cases letters with
    | nil => exact htail
    | cons u letters => exact hletters
  rw [List.append_assoc, groupLeading, Text.takeWhile_append hlead hrest,
    Text.dropWhile_append hlead hrest, ← List.append_assoc]

theorem exists_leading (digits : Text) : ∃ lead letters, lead ++ letters = digits ∧
    lead.all Text.isDigit = true ∧ Text.stops Text.isDigit letters = true :=
  ⟨_, _, digits.takeWhile_append_dropWhile,
    List.all_eq_true.2 fun _ => List.mem_takeWhile_imp, Text.stops_dropWhile⟩

theorem notMem_numberMark (s : Specifier) (n : Number) (g : Grouping) :
    g.unit ∉ numberMark s n := by
  have hsign : g.unit ∉ s.positiveSign := by
    rw [Specifier.positiveSign]
    split <;> cases g <;> decide
  have hradix : g.unit ∉ radixMark s := by
    rw [radixMark]
    split
    · split <;> cases g <;> decide
    · exact List.not_mem_nil
  rw [numberMark, List.mem_append, not_or]
  refine ⟨?_, hradix⟩
  split
  · cases g <;> decide
  · exact hsign

/-- Grouping adds separators and nothing else: without them the result is that of the specifier
without grouping. They stand in the integer part, before each group of three of the decimal digits
in front of it and not before the first digit. Where hexadecimal letters follow, this puts all
digits in threes only if there are no more than three of them. -/
theorem formatWith_groups [PureHost] {t : Text} {g : Grouping} {negative : Bool}
    (hread : Specifier.read t = some s) (hgrouping : s.grouping = some g)
    (hwidth : s.leastLength = 0)
    (h : formatWith (.number (.finite negative x)) t = .ok (some r)) :
    formatBy { s with grouping := none } (.number (.finite negative x)) =
      .ok (r.filter (· != g.unit)) ∧
    (∀ plain ≠ [], Specifier.read plain = some { s with grouping := none } →
      formatWith (.number (.finite negative x)) plain = .ok (some (r.filter (· != g.unit)))) ∧
    ∃ lead letters grouped tail,
      lead.all Text.isDigit = true ∧ Text.stops Text.isDigit letters = true ∧
      IsIntegerPart s.code (lead ++ letters) tail ∧
      (s.code ≠ some .hex → s.code ≠ some .hexUpper → letters = []) ∧
      r.filter (· != g.unit) = numberMark s (.finite negative x) ++ (lead ++ letters ++ tail) ∧
      r = numberMark s (.finite negative x) ++ (grouped ++ letters ++ tail) ∧
      InThrees g.unit lead grouped ∧
      (InThrees g.unit (lead ++ letters) (grouped ++ letters) ↔
        letters = [] ∨ (lead ++ letters).length ≤ 3) := by
  have hne : t ≠ [] := by
    rintro rfl
    obtain rfl := Option.some.inj hread
    cases hgrouping
  obtain ⟨r', hr', hsome⟩ := map_eq_ok.1 ((formatWith_of_read hread hne _).symm.trans h)
  obtain rfl : r' = r := Option.some.inj hsome
  obtain ⟨hsuits, body', hbody', rfl⟩ := (formatBy_number_eq_ok hwidth).1 hr'
  obtain ⟨body, hbody, hgroup⟩ := bind_eq_ok.1 hbody'
  rw [hgrouping] at hgroup
  obtain rfl : groupLeading g.unit body = body' := Except.ok.inj hgroup
  obtain ⟨digits, tail, rfl, hpart⟩ := hasIntegerPart_of_magnitudeText hbody
  obtain ⟨lead, letters, rfl, hlead, hletters⟩ := exists_leading digits
  have hdigits := hpart.notMem_digits g
  have hthrees := inThrees_groupDigits g.unit lead
  have hfilter : (numberMark s (.finite negative x) ++
      groupLeading g.unit (lead ++ letters ++ tail)).filter (· != g.unit) =
        numberMark s (.finite negative x) ++ (lead ++ letters ++ tail) := by
    rw [groupLeading_append g.unit hlead hletters hpart.stops_tail]
    rw [List.mem_append, not_or] at hdigits
    simp only [List.filter_append, filter_of_notMem (notMem_numberMark s _ g),
      hthrees.filter_eq hdigits.1, filter_of_notMem hdigits.2, filter_of_notMem (hpart.plain g)]
  have hplainBody : numberBody { s with grouping := none } (.finite negative x) =
      .ok (lead ++ letters ++ tail) := bind_eq_ok.2 ⟨_, hbody, rfl⟩
  have hplain : formatBy { s with grouping := none } (.number (.finite negative x)) =
      .ok (numberMark s (.finite negative x) ++ (lead ++ letters ++ tail)) :=
    (formatBy_number_eq_ok (s := { s with grouping := none }) hwidth).2
      ⟨hsuits, _, hplainBody, rfl⟩
  rw [hfilter]
  refine ⟨hplain, ?_, lead, letters, groupDigits g.unit lead, tail, hlead, hletters, hpart,
    fun hsmall hcapital => hpart.letters_eq_nil hsmall hcapital hletters, rfl, ?_, hthrees,
    hthrees.append_iff hdigits⟩
  · intro plain hplainne hplainread
    rw [formatWith_of_read hplainread hplainne, hplain]
    rfl
  · rw [groupLeading_append g.unit hlead hletters hpart.stops_tail]

theorem read_grouped_hex : Specifier.read (units ",x") =
    some ⟨none, none, false, false, none, some .comma, none, some .hex⟩ := by
  decide

open scoped SampleHost

/-- Four decimal digits with two letters behind them. -/
theorem formatWith_letters : ∃ x, Number.ofNat 0x1234ab = .finite false x ∧
    formatWith (.number (.finite false x)) (units ",x") = .ok (some (units "1,234ab")) := by
  obtain ⟨x, hx, -⟩ := Number.exists_ofRatio_whole false (k := 0x1234ab) (by norm_num)
  refine ⟨x, hx, ?_⟩
  rw [← hx]
  apply toOption_eq_some.1
  decide +kernel

theorem formatWith_groups_letters : ∃ x, Number.ofNat 0x1234ab = .finite false x ∧
    formatWith (.number (.finite false x)) (units ",x") = .ok (some (units "1,234ab")) ∧
    formatWith (.number (.finite false x)) (units "x") = .ok (some (units "1234ab")) := by
  obtain ⟨x, hx, hformat⟩ := formatWith_letters
  obtain ⟨-, hplain, -⟩ := formatWith_groups read_grouped_hex rfl rfl hformat
  exact ⟨x, hx, hformat, hplain (units "x") (by decide) (by decide)⟩

/-- Letters are digits too, but they are not grouped. -/
theorem not_forall_inThrees : ¬∀ (s : Specifier) (t r : Text) (g : Grouping) (negative : Bool)
    (x : Magnitude), Specifier.read t = some s → s.grouping = some g → s.leastLength = 0 →
    formatWith (.number (.finite negative x)) t = .ok (some r) →
    ∃ digits grouped tail, IsIntegerPart s.code digits tail ∧
      r = numberMark s (.finite negative x) ++ (grouped ++ tail) ∧
      InThrees g.unit digits grouped := by
  intro hall
  obtain ⟨x, -, hformat⟩ := formatWith_letters
  obtain ⟨digits, grouped, tail, hpart, hr, hthrees⟩ :=
    hall _ _ _ _ _ _ read_grouped_hex rfl rfl hformat
  replace hr : units "1,234ab" = grouped ++ tail := hr
  have hunits : ∀ u ∈ tail, endsInteger u = false ∧ u ≠ unit 'I' := by
    have hall : (units "1,234ab").all (fun u => !endsInteger u && u != unit 'I') = true := by decide
    intro u hu
    have hmem : u ∈ units "1,234ab" := hr ▸ List.mem_append_right _ hu
    simpa using List.all_eq_true.1 hall u hmem
  -- No unit of the text ends an integer, so all of it would be grouped digits.
  have htail : tail = [] := by
    rcases hpart.ends with ⟨-, hends⟩ | ⟨-, rfl⟩
    · cases tail with
      | nil => rfl
      | cons u tail =>
        have hu := (hunits u List.mem_cons_self).1
        rw [(hends u rfl).2] at hu
        cases hu
    · exact absurd rfl (hunits (unit 'I') (by decide)).2
  rw [htail, List.append_nil] at hr
  have hlength := hthrees.length_rtakeWhile (hpart.notMem_digits .comma)
  rw [← hr, show (units "1,234ab").rtakeWhile (· != Grouping.comma.unit) = units "234ab" by decide,
    show (units "234ab").length = 5 by decide] at hlength
  omega

end TreeExtraction.Format
