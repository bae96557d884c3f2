import TreeExtraction.Icon.Pack
import TreeExtraction.Proofs.Schema.Reading
import TreeExtraction.Proofs.Value.Entries

/-! # Written icon packs are read back

Names of packs and icons stay identifiers and symbols stay texts that are not empty, so a pack that
has been read is read from its serialized form.
-/

namespace TreeExtraction.IconPack

variable [Validator] [LawfulValidator] {v : Value} {e : IconEntry} {p : IconPack}

open Validator LawfulValidator

theorem identifier_ok {subject : String} {t : Text} :
    safeParse (identifier subject) v = .ok t ↔ v = .text t ∧ Text.isIdentifier t = true := by
  rw [identifier, matching_ok, text_ok]

/-- An icon that is read has a symbol that is not empty. -/
theorem entrySchema_ok : safeParse entrySchema v = .ok e ↔
    ∃ es, v.objectEntries? [symbolKey, aliasesKey] = some es ∧
      (∀ x ∈ es, x.1 ∈ [symbolKey, aliasesKey]) ∧
      (Entries.get es symbolKey = .text e.symbol ∧ 1 ≤ e.symbol.length) ∧
      safeParse (withDefault [] (array text)) (Entries.get es aliasesKey) = .ok e.aliases := by
  rw [entrySchema, object_ok]
  apply exists_congr
  intro es
  apply and_congr_right
  intro _
  apply and_congr_right
  intro _
  simp only [Shape.Reads, minLength_ok, text_ok]
  constructor
  · rintro ⟨symbol, _, hsymbol, ⟨aliases, _, haliases, rfl, rfl⟩, rfl⟩
    exact ⟨hsymbol, haliases⟩
  · rintro ⟨hsymbol, haliases⟩
    exact ⟨e.symbol, _, hsymbol, ⟨e.aliases, _, haliases, rfl, rfl⟩, rfl⟩

/-- A pack that is read has identifiers for its own name and those of its icons. -/
theorem schema_ok : safeParse schema v = .ok p ↔
    ∃ es, v.objectEntries? [nameKey, iconsKey] = some es ∧
      (∀ x ∈ es, x.1 ∈ [nameKey, iconsKey]) ∧
      (Entries.get es nameKey = .text p.name ∧ Text.isIdentifier p.name = true) ∧
      safeParse (record (identifier "Icon name") entrySchema) (Entries.get es iconsKey) =
        .ok p.icons := by
  rw [schema, object_ok]
  apply exists_congr
  intro es
  apply and_congr_right
  intro _
  apply and_congr_right
  intro _
  simp only [Shape.Reads, identifier_ok]
  constructor
  · rintro ⟨name, _, hname, ⟨icons, _, hicons, rfl, rfl⟩, rfl⟩
    exact ⟨hname, hicons⟩
  · rintro ⟨hname, hicons⟩
    exact ⟨p.name, _, hname, ⟨p.icons, _, hicons, rfl, rfl⟩, rfl⟩

theorem safeParse_serializeEntry (h : 1 ≤ e.symbol.length) :
    safeParse entrySchema (serializeEntry e) = .ok e := by
  have hentries : (serializeEntry e).objectEntries? [symbolKey, aliasesKey] =
      some [(symbolKey, .text e.symbol), (aliasesKey, .list (e.aliases.map .text))] :=
    Value.objectEntries?_mapping _ _ (by simp [Value.list])
  refine entrySchema_ok.2 ⟨_, hentries, by simp, ⟨Entries.get_cons_self _ _ _, h⟩, ?_⟩
  exact withDefault_ok.2 (.inr ⟨nofun, array_text e.aliases⟩)

/-- A pack that has been read is read from its serialized form. -/
theorem safeParse_serialize (h : safeParse schema v = .ok p) :
    safeParse schema p.serialize = .ok p := by
  obtain ⟨_, -, -, hname, hicons⟩ := schema_ok.1 h
  obtain ⟨_, -, hrecord⟩ := exists_of_record hicons
  have hwritten : safeParse (record (identifier "Icon name") entrySchema)
      (.mapping (p.icons.map fun e => (e.1, serializeEntry e.2))) = .ok p.icons := by
    refine record_map nofun fun e he => ?_
    obtain ⟨hparent, item, -, hkey, hitem⟩ := hrecord e he
    obtain ⟨-, hid⟩ := identifier_ok.1 hkey
    obtain ⟨_, -, -, ⟨-, hsymbol⟩, -⟩ := entrySchema_ok.1 hitem
    exact ⟨hparent, identifier_ok.2 ⟨rfl, hid⟩, safeParse_serializeEntry hsymbol⟩
  have hentries : p.serialize.objectEntries? [nameKey, iconsKey] = some [(nameKey, .text p.name),
      (iconsKey, .mapping (p.icons.map fun e => (e.1, serializeEntry e.2)))] :=
    Value.objectEntries?_mapping _ _ (by simp)
  exact schema_ok.2 ⟨_, hentries, by simp, ⟨Entries.get_cons_self _ _ _, hname.2⟩, hwritten⟩

end TreeExtraction.IconPack
