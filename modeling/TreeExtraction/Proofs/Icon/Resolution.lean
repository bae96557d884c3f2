import TreeExtraction.Icon.Resolution
import TreeExtraction.Proofs.Icon.RoundTrip
import TreeExtraction.Proofs.Text.Table

/-! # Resolved icons are symbols

No pack holds an empty symbol, and empty entries of the table are passed over, so every step of the
resolution that finds a symbol finds one that is not empty, and the last one finds a symbol for all
names but those that the baseline table inherits. Such a name gets that far only if the table lists
it, with an entry that is empty or refers to nothing.
-/

namespace TreeExtraction

namespace Table

variable {α : Type} {t : Table α} {name : Text}

theorem lookUp_eq_own {a : α} : lookUp t name = .own a ↔ get? t name = some a := by
  rw [lookUp]
  split
  · next b hb => rw [hb, Found.own.injEq, Option.some.injEq]
  · next hnone =>
    rw [hnone]
    split <;> simp

theorem lookUp_eq_inherited {i : Inherited} :
    lookUp t name = .inherited i ↔ get? t name = none ∧ Inherited.ofName? name = some i := by
  rw [lookUp]
  split
  · next b hb => simp [hb]
  · next hnone =>
    split
    · next j hj => simp [hnone, hj]
    · next hj => simp [hj]

theorem lookUp_eq_absent :
    lookUp t name = .absent ↔ get? t name = none ∧ Inherited.ofName? name = none := by
  rw [lookUp]
  split
  · next b hb => simp [hb]
  · next hnone =>
    split
    · next j hj => simp [hj]
    · next hj => simp [hnone, hj]

end Table

/-- Whether no icon of a pack is an empty symbol. -/
def IconPack.HasSymbols (p : IconPack) : Prop :=
  ∀ e ∈ p.icons, e.2.symbol ≠ []

theorem IconPack.hasSymbols_of_safeParse [Validator] [LawfulValidator] {v : Value} {p : IconPack}
    (h : Validator.safeParse schema v = .ok p) : p.HasSymbols := by
  obtain ⟨_, -, -, -, hicons⟩ := schema_ok.1 h
  obtain ⟨_, -, hrecord⟩ := LawfulValidator.exists_of_record hicons
  intro e he
  obtain ⟨-, item, -, -, hitem⟩ := hrecord e he
  obtain ⟨_, -, -, ⟨-, hsymbol⟩, -⟩ := entrySchema_ok.1 hitem
  exact List.ne_nil_of_length_pos hsymbol

namespace Icon

variable {packs : List IconPack} {icons : Table Text} {p : IconPack} {name t : Text}

/-! ## Packs -/

theorem hasSymbols_basePack : basePack.HasSymbols := by
  rw [IconPack.HasSymbols]
  decide

theorem hasSymbols_findPack (hpacks : ∀ p ∈ packs, p.HasSymbols)
    (h : findPack name packs = some p) : p.HasSymbols := by
  rw [findPack] at h
  split at h
  · cases h
    exact hasSymbols_basePack
  · exact hpacks p (List.mem_of_find?_eq_some h)

theorem hasSymbols_defaultPack (hpacks : ∀ p ∈ packs, p.HasSymbols)
    (h : defaultPack icons packs = some p) : p.HasSymbols := by
  rcases Option.bind_eq_some_iff.1 h with ⟨name, -, hname⟩
  exact hasSymbols_findPack hpacks hname

theorem ne_nil_of_lookUp (hp : p.HasSymbols) {e : IconEntry}
    (h : Table.lookUp p.icons name = .own e) : e.symbol ≠ [] :=
  hp (name, e) (Table.mem_of_get? (Table.lookUp_eq_own.1 h))

theorem inPack?_ne_nil (hp : p.HasSymbols) (h : inPack? name p = some t) : t ≠ [] := by
  rw [inPack?] at h
  split at h
  · next e he =>
    cases h
    exact ne_nil_of_lookUp hp he
  · cases h
  · rcases Option.map_eq_some_iff.1 h with ⟨e, he, rfl⟩
    exact hp e (List.mem_of_find?_eq_some he)

theorem inPacks?_ne_nil (hpacks : ∀ p ∈ packs, p.HasSymbols) (h : inPacks? name packs = some t) :
    t ≠ [] := by
  induction packs with
  | nil => cases h
  | cons p ps ih =>
    rw [inPacks?] at h
    split at h
    · next e he =>
      cases h
      exact ne_nil_of_lookUp (hpacks p List.mem_cons_self) he
    · cases h
    · exact ih (fun q hq => hpacks q (List.mem_cons_of_mem _ hq)) h

/-! ## References and the way back to the baseline -/

theorem followReference_ne_nil {reference : Text} (hpacks : ∀ p ∈ packs, p.HasSymbols)
    (h : followReference reference icons packs = some t) : t ≠ [] := by
  refine inPacks?_ne_nil (fun p hp => ?_) h
  simp only [List.mem_append, Option.mem_toList, List.mem_singleton] at hp
  rcases hp with (hp | hp) | rfl
  · exact hasSymbols_findPack hpacks hp
  · exact hasSymbols_defaultPack hpacks hp
  · exact hasSymbols_basePack

theorem direct?_ne_nil (hpacks : ∀ p ∈ packs, p.HasSymbols)
    (h : direct? name icons packs = .ok (some t)) : t ≠ [] := by
  rw [direct?] at h
  split at h
  · cases h
  · next reference hne _ =>
    split at h
    · exact followReference_ne_nil hpacks (Except.ok.inj h)
    · cases h
      exact hne
  · cases h
  · cases h

/-- Whether an entry of the icons leads to no symbol: it is empty, or a reference to nothing. -/
def LeadsNowhere (icons : Table Text) (packs : List IconPack) (reference : Text) : Prop :=
  reference = [] ∨ unit '.' ∈ reference ∧ followReference reference icons packs = none

theorem direct?_of_get? {reference : Text} (h : Table.get? icons name = some reference) :
    (LeadsNowhere icons packs reference ∧ direct? name icons packs = .ok none) ∨
      ¬LeadsNowhere icons packs reference ∧ ∃ t, direct? name icons packs = .ok (some t) := by
  rw [direct?, Table.lookUp_eq_own.2 h]
  cases reference with
  | nil => exact .inl ⟨.inl rfl, rfl⟩
  | cons u us =>
    by_cases hdot : unit '.' ∈ u :: us
    · have hany : (u :: us).any (· == unit '.') = true :=
        List.any_eq_true.2 ⟨_, hdot, beq_self_eq_true _⟩
      simp only [hany, if_true]
      cases hfound : followReference (u :: us) icons packs with
      | none => exact .inl ⟨.inr ⟨hdot, hfound⟩, rfl⟩
      | some t =>
        refine .inr ⟨?_, t, rfl⟩
        rintro (hnil | ⟨-, hnone⟩)
        · cases hnil
        · rw [hfound] at hnone
          cases hnone
    · have hany : (u :: us).any (· == unit '.') = false := by
        rw [List.any_beq']
        simpa using hdot
      simp only [hany]
      refine .inr ⟨?_, _, rfl⟩
      rintro (hnil | ⟨hmem, -⟩)
      · cases hnil
      · exact hdot hmem

/-- Whether a table lists the name of an inherited function, with an entry that leads to no
symbol. -/
def IsUnderInherited (icons : Table Text) (packs : List IconPack) (name : Text) : Prop :=
  name ∈ inheritedFunctions ∧ ∃ reference, Table.get? icons name = some reference ∧
    (reference = [] ∨ followReference reference icons packs = none)

theorem isUnderInherited_of_direct? {i : Inherited} (hnames : Value.parentName ∉ Table.keys icons)
    (h : direct? name icons packs = .ok none) (hi : Inherited.ofName? name = some i) :
    IsUnderInherited icons packs name ∧ i = .function name := by
  have hlisted : ∃ reference, Table.get? icons name = some reference ∧
      (reference = [] ∨ followReference reference icons packs = none) := by
    cases hget : Table.get? icons name with
    | none =>
      rw [direct?, Table.lookUp_eq_inherited.2 ⟨hget, hi⟩] at h
      cases h
    | some reference =>
      rcases direct?_of_get? hget with ⟨hnowhere, -⟩ | ⟨-, t, ht⟩
      · exact ⟨reference, rfl, hnowhere.imp_right And.right⟩
      · rw [h] at ht
        cases ht
  rw [Inherited.ofName?] at hi
  split at hi
  · next hfunction =>
    cases hi
    exact ⟨⟨List.contains_iff_mem.1 hfunction, hlisted⟩, rfl⟩
  · split at hi
    · next hparent =>
      obtain ⟨reference, hget, -⟩ := hlisted
      obtain rfl := eq_of_beq hparent
      exact absurd (Table.mem_keys_of_mem (Table.mem_of_get? hget)) hnames
    · cases hi

/-- Whether an icon is a symbol that is not empty. -/
def IsShown (icon : Icon) : Prop :=
  ∃ t, icon = .symbol t ∧ t ≠ []

theorem isShown_fallback_or (hpacks : ∀ p ∈ packs, p.HasSymbols) (name : Text)
    (icons : Table Text) : (fallback name icons packs).IsShown ∨
      ∃ i, Inherited.ofName? name = some i ∧ fallback name icons packs = .inherited i := by
  have hbaseline : ∀ e ∈ baseline, e.2 ≠ [] := by decide
  rw [fallback]
  split
  · next t ht =>
    refine .inl ⟨t, rfl, ?_⟩
    rcases Option.or_eq_some_iff.1 ht with ht | ⟨-, ht⟩
    · rcases Option.bind_eq_some_iff.1 ht with ⟨p, hp, ht⟩
      exact inPack?_ne_nil (hasSymbols_defaultPack hpacks hp) ht
    · exact inPack?_ne_nil hasSymbols_basePack ht
  · split
    · next t ht =>
      exact .inl ⟨t, rfl, hbaseline _ (Table.mem_of_get? (Table.lookUp_eq_own.1 ht))⟩
    · next i hi => exact .inr ⟨i, (Table.lookUp_eq_inherited.1 hi).2, rfl⟩
    · exact .inl ⟨unknownSymbol, rfl, by decide⟩

/-! ## Resolution -/

/-- The icons decide on a type that has a name, and what is behind them if they do not list it. -/
theorem resolve_named (hname : name ≠ []) (icons : Table Text) (packs : List IconPack) :
    resolve (some name) icons packs =
      (fun found => found.elim (fallback name icons packs) .symbol) <$>
        direct? name icons packs := by
  cases name with
  | nil => exact absurd rfl hname
  | cons u us =>
    simp only [resolve, Option.getD_some]
    cases direct? (u :: us) icons packs with
    | error f => rfl
    | ok found => cases found <;> rfl

/-- A node without a type has the icon of unknown types. -/
theorem exists_resolve_unnamed {type : Option Text} (h : type.getD [] = []) (icons : Table Text)
    (packs : List IconPack) : ∃ icon, resolve type icons packs = .ok icon ∧ icon.IsShown := by
  rw [resolve, h]
  refine ⟨_, rfl, _, rfl, ?_⟩
  cases hfilled : filled? icons unknownName with
  | none => decide
  | some t => simpa using (Option.filter_eq_some_iff.1 hfilled).2

/-- The icon of a type is a symbol that is not empty, unless the table lists the type under the name
of an inherited function. -/
theorem of_resolve {type : Option Text} {icon : Icon} (hpacks : ∀ p ∈ packs, p.HasSymbols)
    (hnames : Value.parentName ∉ Table.keys icons) (h : resolve type icons packs = .ok icon) :
    icon.IsShown ∨ ∃ name, icon = .inherited (.function name) ∧ type = some name ∧
      IsUnderInherited icons packs name := by
  by_cases hnamed : type.getD [] = []
  · obtain ⟨_, hresolve, hshown⟩ := exists_resolve_unnamed hnamed icons packs
    rw [h] at hresolve
    cases hresolve
    exact .inl hshown
  · obtain ⟨name, rfl⟩ : ∃ name, type = some name := by
      cases type with
      | none => exact absurd rfl hnamed
      | some name => exact ⟨name, rfl⟩
    have hname : name ≠ [] := hnamed
    rw [resolve_named hname] at h
    obtain ⟨found, hfound, rfl⟩ := Outcome.map_eq_ok.1 h
    cases found with
    | some t => exact .inl ⟨t, rfl, direct?_ne_nil hpacks hfound⟩
    | none =>
      rcases isShown_fallback_or hpacks name icons with hshown | ⟨i, hi, heq⟩
      · exact .inl hshown
      · obtain ⟨hunder, rfl⟩ := isUnderInherited_of_direct? hnames hfound hi
        exact .inr ⟨name, heq, rfl, hunder⟩

end Icon

end TreeExtraction
