import TreeExtraction.Proofs.Outcome
import TreeExtraction.Proofs.Text.Table
import TreeExtraction.Proofs.Value.Parts
import TreeExtraction.Schema.Lawful

/-! # Reading by a lawful validator

What a shape reads is put together from what its parts read. Data that have been written are read
back: lists item by item, tables entry by entry and optional parts as they were.
-/

namespace TreeExtraction

variable {α β : Type}

theorem exists_of_mem_forall₂ {R : α → β → Prop} {as : List α} {bs : List β} {b : β}
    (h : List.Forall₂ R as bs) (hb : b ∈ bs) : ∃ a ∈ as, R a b := by
  induction h with
  | nil => cases hb
  | cons hR _ ih =>
    rcases List.mem_cons.1 hb with rfl | hb
    · exact ⟨_, List.mem_cons_self, hR⟩
    · rcases ih hb with ⟨a, ha, hR⟩
      exact ⟨a, List.mem_cons_of_mem _ ha, hR⟩

theorem exists_forall₂ {R : α → β → Prop} {as : List α} (h : ∀ a ∈ as, ∃ b, R a b) :
    ∃ bs, List.Forall₂ R as bs := by
  induction as with
  | nil => exact ⟨[], .nil⟩
  | cons a as ih =>
    rcases h a List.mem_cons_self with ⟨b, hb⟩
    rcases ih fun c hc => h c (List.mem_cons_of_mem _ hc) with ⟨bs, hbs⟩
    exact ⟨b :: bs, .cons hb hbs⟩

/-- A mapping without functions counts as an object with its entries. -/
theorem Value.objectEntries?_mapping {es : Entries} (keys : List Text) (ancestry : Ancestry)
    (h : ∀ e ∈ es, ∀ f source frame, e.2 ≠ .function f source frame) :
    (Value.mapping es ancestry).objectEntries? keys = some es := by
  have hmethod (name : Text) : (Value.mapping es ancestry).method? name = none := by
    refine Value.method?_eq_none fun f source frame hf => ?_
    exact h _ (Table.mem_of_get? hf) f source frame rfl
  rw [Value.objectEntries?, Value.isThenable, hmethod]
  rfl

theorem Value.eq_of_objectEntries?_mapping {es fs : Entries} {keys : List Text}
    {ancestry : Ancestry} (h : (Value.mapping es ancestry).objectEntries? keys = some fs) :
    fs = es := by
  rw [Value.objectEntries?] at h
  split at h
  · cases h
  · exact (Option.some.inj h).symm

/-- A mapping that has no field that promises have counts as an object with its entries. -/
theorem Value.objectEntries?_mapping_of_notMem {es : Entries} (keys : List Text)
    (h : units "then" ∉ Table.keys es) : (Value.mapping es).objectEntries? keys = some es := by
  have hget : Table.get? (Value.mapping es).members (units "then") = none :=
    Table.get?_eq_none_iff.2 h
  have hmethod : (Value.mapping es).method? (units "then") = none :=
    Value.method?_eq_none fun f source frame => by simp [hget]
  rw [Value.objectEntries?, Value.isThenable, hmethod]
  rfl

open Validator

namespace Shape

variable [Validator] {look : Text → Value}

theorem keys_map (f : α → β) (s : Shape Schema α) : (s.map f).keys = s.keys := by
  induction s generalizing β with
  | done a => rfl
  | entry key schema rest ih => exact congrArg (key :: ·) (ih _)

theorem keys_both (s : Shape Schema α) (t : Shape Schema β) :
    (s.both t).keys = s.keys ++ t.keys := by
  induction s with
  | done a => exact keys_map _ t
  | entry key schema rest ih =>
    rw [both, keys, keys_map, ih]
    rfl

theorem reads_map {f : α → β} {s : Shape Schema α} {y : β} :
    (s.map f).Reads look y ↔ ∃ x, s.Reads look x ∧ f x = y := by
  induction s generalizing β with
  | done a => simp [map, Reads, eq_comm]
  | entry key schema rest ih =>
    simp only [map, Reads, ih]
    constructor
    · rintro ⟨b, _, hb, ⟨g, hg, rfl⟩, rfl⟩
      exact ⟨g b, ⟨b, g, hb, hg, rfl⟩, rfl⟩
    · rintro ⟨_, ⟨b, g, hb, hg, rfl⟩, rfl⟩
      exact ⟨b, _, hb, ⟨g, hg, rfl⟩, rfl⟩

theorem reads_both {s : Shape Schema α} {t : Shape Schema β} {p : α × β} :
    (s.both t).Reads look p ↔ s.Reads look p.1 ∧ t.Reads look p.2 := by
  induction s with
  | done a =>
    rw [both, reads_map]
    constructor
    · rintro ⟨b, hb, rfl⟩
      exact ⟨rfl, hb⟩
    · rintro ⟨ha, hb⟩
      exact ⟨p.2, hb, Prod.ext ha.symm rfl⟩
  | entry key schema rest ih =>
    simp only [both, Reads, reads_map]
    constructor
    · rintro ⟨x, _, hx, ⟨q, hq, rfl⟩, rfl⟩
      obtain ⟨hrest, hother⟩ := ih.1 hq
      exact ⟨⟨x, q.1, hx, hrest, rfl⟩, hother⟩
    · rintro ⟨⟨x, g, hx, hg, hp⟩, hother⟩
      exact ⟨x, _, hx, ⟨(g, p.2), ih.2 ⟨hg, hother⟩, rfl⟩, Prod.ext hp rfl⟩

end Shape

namespace LawfulValidator

variable [Validator] [LawfulValidator]

theorem array_list {s : Schema α} {vs : List Value} {as : List α} :
    safeParse (array s) (.list vs) = .ok as ↔
      List.Forall₂ (fun v a => safeParse s v = .ok a) vs as := by
  rw [array_ok]
  constructor
  · rintro ⟨items, frame, hlist, hitems⟩
    obtain ⟨rfl, -⟩ := Value.array.inj hlist
    rwa [Value.reading_map_some] at hitems
  · intro hitems
    refine ⟨_, _, rfl, ?_⟩
    rwa [Value.reading_map_some]

/-- A list of written items is read as the items if each of them is. -/
theorem array_map {s : Schema α} {write : α → Value} {as : List α}
    (h : ∀ a ∈ as, safeParse s (write a) = .ok a) :
    safeParse (array s) (.list (as.map write)) = .ok as := by
  rw [array_list, List.forall₂_map_left_iff, List.forall₂_same]
  exact h

theorem array_text (ts : List Text) : safeParse (array text) (.list (ts.map .text)) = .ok ts :=
  array_map fun _ _ => text_ok.2 rfl

theorem exists_of_array {s : Schema α} {v : Value} {as : List α}
    (h : safeParse (array s) v = .ok as) : ∀ a ∈ as, ∃ item, safeParse s item = .ok a := by
  intro a ha
  obtain ⟨items, frame, -, hitems⟩ := array_ok.1 h
  obtain ⟨item, -, hitem⟩ := exists_of_mem_forall₂ hitems ha
  exact ⟨item, hitem⟩

theorem optional_undefined (s : Schema α) : safeParse (optional s) .undefined = .ok none :=
  optional_ok.2 (.inl ⟨rfl, rfl⟩)

/-- An optional part is read as it was written. -/
theorem optional_map {s : Schema α} {write : α → Value} {a : Option α}
    (hwrite : ∀ x, write x ≠ .undefined) (h : ∀ x ∈ a, safeParse s (write x) = .ok x) :
    safeParse (optional s) ((a.map write).getD .undefined) = .ok a := by
  cases a with
  | none => exact optional_undefined s
  | some x => exact optional_ok.2 (.inr ⟨hwrite x, x, h x rfl, rfl⟩)

theorem of_optional {s : Schema α} {v : Value} {a : Option α}
    (h : safeParse (optional s) v = .ok a) : ∀ x ∈ a, safeParse s v = .ok x := by
  rintro x rfl
  rcases optional_ok.1 h with ⟨-, hnone⟩ | ⟨-, y, hy, hsome⟩
  · cases hnone
  · rw [hy, Option.some.inj hsome]

/-- Unknown data are handed on, undefined where they are missing. -/
theorem of_optional_unknown {v : Value} {a : Option Value}
    (h : safeParse (optional unknown) v = .ok a) : a.getD .undefined = v := by
  rcases optional_ok.1 h with ⟨rfl, rfl⟩ | ⟨-, x, hx, rfl⟩
  · rfl
  · exact (unknown_ok.1 hx).symm

theorem exists_optional_unknown (v : Value) : ∃ a, safeParse (optional unknown) v = .ok a := by
  by_cases hv : v = .undefined
  · exact ⟨none, optional_ok.2 (.inl ⟨hv, rfl⟩)⟩
  · exact ⟨some v, optional_ok.2 (.inr ⟨hv, v, unknown_ok.2 rfl, rfl⟩)⟩

/-- A written table is read entry by entry if its keys and its values are. -/
theorem record_mapValues {key : Schema Text} {s : Schema α} {write : β → Value} {f : β → α}
    {t : Table β} (hwrite : ∀ x g source frame, write x ≠ .function g source frame)
    (h : ∀ e ∈ t, e.1 ≠ Value.parentName ∧ safeParse key (.text e.1) = .ok e.1 ∧
      safeParse s (write e.2) = .ok (f e.2)) :
    safeParse (record key s) (.mapping (Table.mapValues write t)) =
      .ok (Table.mapValues f t) := by
  have hes : (Value.mapping (Table.mapValues write t)).objectEntries? [] = some _ :=
    Value.objectEntries?_mapping _ _ (List.forall_mem_map.2 fun e _ => hwrite e.2)
  refine record_ok.2 ⟨_, Table.mapValues f t, hes, ?_, ?_⟩
  · rw [Table.mapValues, Table.mapValues, List.forall₂_map_left_iff, List.forall₂_map_right_iff,
      List.forall₂_same]
    exact fun e he => (h e he).2
  · rw [List.filter_eq_self, Table.mapValues, List.forall_mem_map]
    exact fun e he => bne_iff_ne.2 (h e he).1

/-- A written table is read as the table if its keys and its values are. -/
theorem record_map {key : Schema Text} {s : Schema α} {write : α → Value} {t : Table α}
    (hwrite : ∀ x f source frame, write x ≠ .function f source frame)
    (h : ∀ e ∈ t, e.1 ≠ Value.parentName ∧ safeParse key (.text e.1) = .ok e.1 ∧
      safeParse s (write e.2) = .ok e.2) :
    safeParse (record key s) (.mapping (t.map fun e => (e.1, write e.2))) = .ok t := by
  have hread := record_mapValues (f := id) hwrite h
  have hid : Table.mapValues id t = t := List.map_id t
  rwa [hid] at hread

/-- A table can be read if each of its values can. -/
theorem exists_record {s : Schema α} {es : Entries}
    (hes : ∀ e ∈ es, ∀ f source frame, e.2 ≠ .function f source frame)
    (h : ∀ e ∈ es, ∃ x, safeParse s e.2 = .ok x) :
    ∃ t, safeParse (record text s) (.mapping es) = .ok t := by
  have hall : ∀ e ∈ es, ∃ a : Text × α,
      safeParse text (.text e.1) = .ok a.1 ∧ safeParse s e.2 = .ok a.2 := by
    intro e he
    obtain ⟨x, hx⟩ := h e he
    exact ⟨(e.1, x), text_ok.2 rfl, hx⟩
  obtain ⟨all, hall⟩ := exists_forall₂ hall
  exact ⟨_, record_ok.2 ⟨es, all, Value.objectEntries?_mapping [] .ordinary hes, hall, rfl⟩⟩

/-- The entries of a record that has been read: their keys and values have been read, and none
stands under the name of the inherited object. -/
theorem exists_of_record {key : Schema Text} {s : Schema α} {v : Value} {t : Table α}
    (h : safeParse (record key s) v = .ok t) :
    ∃ es, v.objectEntries? [] = some es ∧ ∀ e ∈ t, e.1 ≠ Value.parentName ∧
      ∃ item ∈ es, safeParse key (.text item.1) = .ok e.1 ∧ safeParse s item.2 = .ok e.2 := by
  obtain ⟨es, all, hes, hall, rfl⟩ := record_ok.1 h
  refine ⟨es, hes, fun e he => ?_⟩
  rw [List.mem_filter, bne_iff_ne] at he
  obtain ⟨item, hitem, hread⟩ := exists_of_mem_forall₂ hall he.1
  exact ⟨he.2, item, hitem, hread⟩

end LawfulValidator

end TreeExtraction
