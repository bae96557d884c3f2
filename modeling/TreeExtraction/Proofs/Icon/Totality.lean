import TreeExtraction.Proofs.Icon.Resolution
import TreeExtraction.Proofs.Outcome
import TreeExtraction.Proofs.Schema.Standard

/-! # Which types have an icon

Every type has a symbol for an icon, but for the names that every table inherits. Such a name is
found where the icons do not list it, and the resolution fails; it is also what is found last where
the icons list it with an entry that leads to no symbol. Then the default pack decides, if it has an
icon of that very name.
-/

namespace TreeExtraction.Icon

variable {packs : List IconPack} {icons : Table Text} {p : IconPack} {name t : Text}
  {i : Inherited}

/-- Packs that have been read hold no empty symbols. -/
theorem hasSymbols_of_compile [Validator] [LawfulValidator] {raw : Value}
    (h : IconPack.compile raw = .ok p) : p.HasSymbols :=
  IconPack.hasSymbols_of_safeParse (Outcome.mapError_eq_ok.1 h)

/-! ## The packs behind the icons -/

theorem inPack?_of_inherited (hi : Inherited.ofName? name = some i) (p : IconPack) :
    inPack? name p = (Table.get? p.icons name).map (·.symbol) := by
  rw [inPack?]
  cases hget : Table.get? p.icons name with
  | some e => rw [Table.lookUp_eq_own.2 hget, Option.map_some]
  | none => rw [Table.lookUp_eq_inherited.2 ⟨hget, hi⟩, Option.map_none]

/-- A table of other names has no entry under one that is inherited. -/
theorem get?_of_inherited {α : Type} {table : Table α}
    (hnames : ∀ k ∈ Table.keys table, Inherited.ofName? k = none)
    (hi : Inherited.ofName? name = some i) : Table.get? table name = none := by
  apply Table.get?_eq_none
  intro hmem
  rw [hnames name hmem] at hi
  cases hi

theorem ofName?_of_mem_basePack : ∀ k ∈ Table.keys basePack.icons, Inherited.ofName? k = none := by
  decide

theorem keys_baseline : Table.keys baseline = Table.keys basePack.icons := by
  rw [baseline, Table.keys, Table.keys, List.map_map]
  rfl

/-- The icon of the default pack under the name of a type itself. -/
def ownDefault? (name : Text) (icons : Table Text) (packs : List IconPack) : Option IconEntry :=
  (defaultPack icons packs).bind fun p => Table.get? p.icons name

/-- Behind the icons, an inherited name has the symbol of the default pack or none. -/
theorem fallback_of_inherited (hi : Inherited.ofName? name = some i) (icons : Table Text)
    (packs : List IconPack) : fallback name icons packs =
      match ownDefault? name icons packs with
      | some e => .symbol e.symbol
      | none => .inherited i := by
  have hdefault : (defaultPack icons packs).bind (inPack? name) =
      (ownDefault? name icons packs).map (·.symbol) := by
    rw [ownDefault?, Option.map_bind]
    exact congrArg _ (funext fun p => inPack?_of_inherited hi p)
  have hbase : inPack? name basePack = none := by
    rw [inPack?_of_inherited hi, get?_of_inherited ofName?_of_mem_basePack hi, Option.map_none]
  have hbaseline : Table.lookUp baseline name = .inherited i := by
    refine Table.lookUp_eq_inherited.2 ⟨get?_of_inherited ?_ hi, hi⟩
    rw [keys_baseline]
    exact ofName?_of_mem_basePack
  rw [fallback, hdefault, hbase, hbaseline]
  cases ownDefault? name icons packs <;> rfl

theorem isShown_fallback_iff (hpacks : ∀ p ∈ packs, p.HasSymbols) :
    (fallback name icons packs).IsShown ↔
      ((Inherited.ofName? name).isSome = true → (ownDefault? name icons packs).isSome = true) := by
  cases hi : Inherited.ofName? name with
  | none =>
    rcases isShown_fallback_or hpacks name icons with hshown | ⟨i, hsome, -⟩
    · simp [hshown]
    · rw [hi] at hsome
      cases hsome
  | some i =>
    rw [fallback_of_inherited hi]
    cases hown : ownDefault? name icons packs with
    | none => simp [IsShown]
    | some e =>
      obtain ⟨p, hp, hget⟩ := Option.bind_eq_some_iff.1 hown
      have hne : e.symbol ≠ [] :=
        hasSymbols_defaultPack hpacks hp (name, e) (Table.mem_of_get? hget)
      simp [IsShown, hne]

/-! ## Resolution -/

/-- Whether the look-ups of a type end at what the tables inherit under its name: the icons do not
list it, or they do in vain and the default pack does not have it. -/
def EndsAtInherited (name : Text) (icons : Table Text) (packs : List IconPack) : Prop :=
  (Inherited.ofName? name).isSome = true ∧
    (Table.get? icons name = none ∨
      (∃ reference, Table.get? icons name = some reference ∧
        LeadsNowhere icons packs reference) ∧ ownDefault? name icons packs = none)

/-- A type resolves to a symbol exactly if its look-ups do not end at what the tables inherit. -/
theorem exists_resolve_named_iff (hpacks : ∀ p ∈ packs, p.HasSymbols) (hname : name ≠ []) :
    (∃ icon, resolve (some name) icons packs = .ok icon ∧ icon.IsShown) ↔
      ¬EndsAtInherited name icons packs := by
  cases hget : Table.get? icons name with
  | some reference =>
    rcases direct?_of_get? hget with ⟨hnowhere, hdirect⟩ | ⟨hleads, t, hdirect⟩
    · rw [resolve_named hname, hdirect]
      simp [EndsAtInherited, hget, hnowhere, isShown_fallback_iff hpacks,
        Option.isSome_iff_ne_none]
    · rw [resolve_named hname, hdirect]
      simp [EndsAtInherited, hget, hleads, IsShown, direct?_ne_nil hpacks hdirect]
  | none =>
    cases hi : Inherited.ofName? name with
    | none =>
      have hdirect : direct? name icons packs = .ok none := by
        rw [direct?, Table.lookUp_eq_absent.2 ⟨hget, hi⟩]
      rw [resolve_named hname, hdirect]
      simp [EndsAtInherited, hi, isShown_fallback_iff hpacks]
    | some i =>
      have hfails : direct? name icons packs = .error .unsupported := by
        rw [direct?, Table.lookUp_eq_inherited.2 ⟨hget, hi⟩]
      rw [resolve_named hname, hfails]
      simp [EndsAtInherited, hi, hget]

/-- With packs that have been read, a node has a symbol for its icon exactly if the look-ups of its
type do not end at what the tables inherit. -/
theorem exists_resolve_iff [Validator] [LawfulValidator] (type : Option Text)
    (icons : Table Text) (packs : List IconPack)
    (hpacks : ∀ p ∈ packs, ∃ raw, IconPack.compile raw = .ok p) :
    (∃ t, resolve type icons packs = .ok (.symbol t) ∧ t ≠ []) ↔
      ∀ name, type = some name → ¬EndsAtInherited name icons packs := by
  have hsymbols : ∀ p ∈ packs, p.HasSymbols := by
    intro p hp
    obtain ⟨raw, hraw⟩ := hpacks p hp
    exact hasSymbols_of_compile hraw
  have hicon : (∃ t, resolve type icons packs = .ok (.symbol t) ∧ t ≠ []) ↔
      ∃ icon, resolve type icons packs = .ok icon ∧ icon.IsShown := by
    constructor
    · rintro ⟨t, ht, hne⟩
      exact ⟨_, ht, t, rfl, hne⟩
    · rintro ⟨_, hicon, t, rfl, hne⟩
      exact ⟨t, hicon, hne⟩
  rw [hicon]
  by_cases hnamed : type.getD [] = []
  · have hshown := exists_resolve_unnamed hnamed icons packs
    refine iff_of_true hshown ?_
    rintro name rfl ⟨hinherited, -⟩
    rw [show name = [] from hnamed] at hinherited
    revert hinherited
    decide
  · obtain ⟨name, rfl⟩ : ∃ name, type = some name := by
      cases type with
      | none => exact absurd rfl hnamed
      | some name => exact ⟨name, rfl⟩
    have hname : name ≠ [] := hnamed
    rw [exists_resolve_named_iff hsymbols hname]
    simp

open scoped StandardValidator

/-- An inherited name has a symbol where the icons refer to an icon of a pack that is called so. -/
theorem exists_resolve_constructor :
    let arrows : IconPack := ⟨units "arrows", [(units "constructor", ⟨units "→", []⟩)]⟩
    let icons := [(units "constructor", units "arrows.constructor")]
    (∀ p ∈ [arrows], ∃ raw, IconPack.compile raw = .ok p) ∧
      ∃ t, resolve (some (units "constructor")) icons [arrows] = .ok (.symbol t) ∧ t ≠ [] := by
  intro arrows icons
  have hpacks : ∀ p ∈ [arrows], ∃ raw, IconPack.compile raw = .ok p := by
    intro p hp
    obtain rfl := List.mem_singleton.1 hp
    exact ⟨arrows.serialize, rfl⟩
  refine ⟨hpacks, (exists_resolve_iff _ icons [arrows] hpacks).2 ?_⟩
  rintro _ ⟨⟩ ⟨-, hnone | ⟨⟨reference, hget, hnowhere⟩, -⟩⟩
  · cases hnone
  · cases hget
    rcases hnowhere with hnil | ⟨-, hnone⟩
    · cases hnil
    · cases hnone

/-- The name of an inherited function has no icon in tables that do not list it. -/
theorem not_forall_exists_resolve :
    ¬∀ (type : Option Text) (icons : Table Text) (packs : List IconPack),
      (∀ p ∈ packs, ∃ raw, IconPack.compile raw = .ok p) →
        ∃ t, resolve type icons packs = .ok (.symbol t) ∧ t ≠ [] := by
  intro h
  obtain ⟨t, ht, -⟩ := h (some (units "constructor")) [] [] nofun
  cases ht

end TreeExtraction.Icon
