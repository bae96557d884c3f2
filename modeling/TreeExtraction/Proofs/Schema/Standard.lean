import TreeExtraction.Proofs.Schema.Reading
import TreeExtraction.Schema.Standard

/-! # The standard validator is lawful

A check of several parts succeeds exactly if the check of each part does, and what it yields is put
together from theirs. One equivalence for each check says what it accepts.
-/

namespace TreeExtraction.Check

variable {α β : Type} {v : Value}

theorem both_eq_ok {a : Except (List Issue) α} {b : Except (List Issue) β} {p : α × β} :
    both a b = .ok p ↔ a = .ok p.1 ∧ b = .ok p.2 := by
  rcases p with ⟨x, y⟩
  cases a <;> cases b <;> simp [both]

theorem under_eq_ok {key : Text} {r : Except (List Issue) α} {a : α} :
    under key r = .ok a ↔ r = .ok a :=
  Outcome.mapError_eq_ok

theorem map_eq_ok {r : Except (List Issue) α} {f : α → β} {b : β} :
    r.map f = .ok b ↔ ∃ a, r = .ok a ∧ f a = b := by
  cases r <;> simp [Except.map]

theorem bind_eq_ok {r : Except (List Issue) α} {f : α → Except (List Issue) β} {b : β} :
    r.bind f = .ok b ↔ ∃ a, r = .ok a ∧ f a = .ok b := by
  cases r <;> simp [Except.bind]

theorem unexpected_ne_ok {expected : String} {a : α} : unexpected expected v ≠ .ok a := by
  cases v <;> nofun

/-! ## Texts and numbers -/

theorem text_eq_ok {t : Text} : text v = .ok t ↔ v = .text t := by
  cases v with
  | text u => simp [text]
  | _ => exact iff_of_false nofun nofun

theorem require_eq_ok {property : Text → Bool} {message : Text} {check : Check Text} {t : Text} :
    require property message check v = .ok t ↔ check v = .ok t ∧ property t = true := by
  rw [require, bind_eq_ok]
  constructor
  · rintro ⟨u, hu, h⟩
    split at h
    · next hproperty =>
      cases h
      exact ⟨hu, hproperty⟩
    · cases h
  · rintro ⟨ht, hproperty⟩
    exact ⟨t, ht, if_pos hproperty⟩

theorem number_eq_ok {n : Number} : number v = .ok n ↔ v = .number n ∧ n ≠ .nan := by
  cases v with
  | number m =>
    rw [number]
    split
    · next hm =>
      refine iff_of_false unexpected_ne_ok ?_
      rintro ⟨⟨⟩, hn⟩
      exact hn hm
    · next hm =>
      constructor
      · rintro ⟨⟩
        exact ⟨rfl, hm⟩
      · rintro ⟨⟨⟩, -⟩
        rfl
  | _ => exact iff_of_false nofun nofun

theorem integer_eq_ok {check : Check Number} {n : Number} :
    integer check v = .ok n ↔ check v = .ok n ∧ n.isInteger = true := by
  rw [integer, bind_eq_ok]
  constructor
  · rintro ⟨m, hm, h⟩
    split at h
    · next hinteger =>
      cases h
      exact ⟨hm, hinteger⟩
    · cases h
  · rintro ⟨hn, hinteger⟩
    exact ⟨n, hn, if_pos hinteger⟩

theorem literal_eq_ok {t : Text} : literal t v = .ok () ↔ v = .text t := by
  cases v with
  | text u =>
    by_cases hu : u = t
    · simp [literal, hu]
    · simp [literal, hu]
  | _ => exact iff_of_false nofun nofun

/-! ## Parts that may be missing -/

theorem optional_eq_map {check : Check α} (h : v ≠ .undefined) :
    optional check v = (check v).map some := by
  cases v <;> first | rfl | exact absurd rfl h

theorem optional_eq_ok {check : Check α} {a : Option α} :
    optional check v = .ok a ↔
      (v = .undefined ∧ a = none) ∨ (v ≠ .undefined ∧ ∃ x, check v = .ok x ∧ a = some x) := by
  by_cases hv : v = .undefined
  · subst hv
    simp [optional, eq_comm]
  · rw [optional_eq_map hv, map_eq_ok]
    simp [hv, eq_comm]

theorem withDefault_eq_ok {usual : α} {check : Check α} {a : α} :
    withDefault usual check v = .ok a ↔
      (v = .undefined ∧ a = usual) ∨ (v ≠ .undefined ∧ check v = .ok a) := by
  rw [withDefault, map_eq_ok]
  simp only [optional_eq_ok]
  constructor
  · rintro ⟨_, ⟨hv, rfl⟩ | ⟨hv, x, hx, rfl⟩, rfl⟩
    · exact .inl ⟨hv, rfl⟩
    · exact .inr ⟨hv, hx⟩
  · rintro (⟨hv, rfl⟩ | ⟨hv, ha⟩)
    · exact ⟨none, .inl ⟨hv, rfl⟩, rfl⟩
    · exact ⟨some a, .inr ⟨hv, a, ha, rfl⟩, rfl⟩

/-! ## Arrays, records and objects -/

theorem items_eq_ok {check : Check α} {position : Nat} {vs : List Value} {as : List α} :
    items check position vs = .ok as ↔ List.Forall₂ (fun v a => check v = .ok a) vs as := by
  induction vs generalizing position as with
  | nil => simp [items, eq_comm]
  | cons v vs ih =>
    rw [items, map_eq_ok, List.forall₂_cons_left_iff]
    constructor
    · rintro ⟨⟨a, rest⟩, hboth, rfl⟩
      rw [both_eq_ok, under_eq_ok, ih] at hboth
      exact ⟨a, rest, hboth.1, hboth.2, rfl⟩
    · rintro ⟨a, rest, hv, hvs, rfl⟩
      exact ⟨(a, rest), both_eq_ok.2 ⟨under_eq_ok.2 hv, ih.2 hvs⟩, rfl⟩

theorem array_eq_ok {check : Check α} {as : List α} :
    array check v = .ok as ↔ ∃ items frame, v = .array items frame ∧
      List.Forall₂ (fun item a => check item = .ok a) (Value.reading items) as := by
  cases v with
  | array vs frame =>
    rw [array, items_eq_ok]
    constructor
    · exact fun h => ⟨vs, frame, rfl, h⟩
    · rintro ⟨_, _, ⟨⟩, h⟩
      exact h
  | _ => exact iff_of_false nofun nofun

theorem all_eq_ok {rs : List (Except (List Issue) α)} {as : List α} :
    all rs = .ok as ↔ List.Forall₂ (fun r a => r = .ok a) rs as := by
  induction rs generalizing as with
  | nil => simp [all, eq_comm]
  | cons r rs ih =>
    rw [all, map_eq_ok, List.forall₂_cons_left_iff]
    constructor
    · rintro ⟨⟨a, rest⟩, hboth, rfl⟩
      rw [both_eq_ok] at hboth
      exact ⟨a, rest, hboth.1, ih.1 hboth.2, rfl⟩
    · rintro ⟨a, rest, hr, hrs, rfl⟩
      exact ⟨(a, rest), both_eq_ok.2 ⟨hr, ih.2 hrs⟩, rfl⟩

theorem entries_eq_ok {keys : List Text} {es : Entries} :
    entries keys v = .ok es ↔ v.objectEntries? keys = some es := by
  rw [entries]
  split
  · next found h => rw [h, Except.ok.injEq, Option.some.injEq]
  · next h =>
    rw [h]
    exact iff_of_false unexpected_ne_ok nofun

theorem record_eq_ok {key : Check Text} {check : Check α} {t : Table α} :
    record key check v = .ok t ↔ ∃ es all, v.objectEntries? [] = some es ∧
      List.Forall₂ (fun e a => key (.text e.1) = .ok a.1 ∧ check e.2 = .ok a.2) es all ∧
      all.filter (fun a => a.1 != Value.parentName) = t := by
  have hentry (e : Text × Value) (a : Text × α) :
      both (under e.1 (key (.text e.1))) (under e.1 (check e.2)) = .ok a ↔
        key (.text e.1) = .ok a.1 ∧ check e.2 = .ok a.2 := by
    rw [both_eq_ok, under_eq_ok, under_eq_ok]
  rw [record, bind_eq_ok]
  simp only [map_eq_ok, all_eq_ok, List.forall₂_map_left_iff, hentry, entries_eq_ok]
  constructor
  · rintro ⟨es, hes, all, hall, ht⟩
    exact ⟨es, all, hes, hall, ht⟩
  · rintro ⟨es, all, hes, hall, ht⟩
    exact ⟨es, hes, all, hall, ht⟩

theorem onlyKeys_eq_ok {known : List Text} {es : Entries} :
    onlyKeys known es = .ok () ↔ ∀ e ∈ es, e.1 ∈ known := by
  have hnone : ((es.map (·.1)).filter fun k => !known.contains k) = [] ↔
      ∀ e ∈ es, e.1 ∈ known := by
    simp [List.filter_eq_nil_iff]
  rw [onlyKeys, ← hnone]
  split
  · next h => exact ⟨fun _ => h, fun _ => rfl⟩
  · next h => exact ⟨fun hk => (nomatch hk), fun hk => absurd hk h⟩

section

open StandardValidator

theorem parts_eq_ok {look : Text → Value} {shape : Shape Check α} {a : α} :
    parts look shape = .ok a ↔ shape.Reads look a := by
  induction shape with
  | done b => simp [parts, Shape.Reads, eq_comm]
  | entry key check rest ih =>
    rw [parts, map_eq_ok]
    constructor
    · rintro ⟨⟨b, f⟩, hboth, rfl⟩
      rw [both_eq_ok, under_eq_ok] at hboth
      exact ⟨b, f, hboth.1, ih.1 hboth.2, rfl⟩
    · rintro ⟨b, f, hb, hf, rfl⟩
      exact ⟨(b, f), both_eq_ok.2 ⟨under_eq_ok.2 hb, ih.2 hf⟩, rfl⟩

theorem object_eq_ok {shape : Shape Check α} {a : α} :
    object shape v = .ok a ↔ ∃ es, v.objectEntries? shape.keys = some es ∧
      (∀ e ∈ es, e.1 ∈ shape.keys) ∧ shape.Reads (Entries.get es) a := by
  rw [object, bind_eq_ok]
  simp only [entries_eq_ok, map_eq_ok]
  constructor
  · rintro ⟨es, hes, ⟨x, ⟨⟩⟩, hboth, rfl⟩
    rw [both_eq_ok, onlyKeys_eq_ok, parts_eq_ok] at hboth
    exact ⟨es, hes, hboth.2, hboth.1⟩
  · rintro ⟨es, hes, hkeys, ha⟩
    exact ⟨es, hes, (a, ()), both_eq_ok.2 ⟨parts_eq_ok.2 ha, onlyKeys_eq_ok.2 hkeys⟩, rfl⟩

end

theorem oneOf_eq_ok {key : Text} {cases : List (Text × Check α)} {a : α} :
    oneOf key cases v = .ok a ↔ ∃ es name check, v.objectEntries? [key] = some es ∧
      Entries.get es key = .text name ∧ cases.lookup name = some check ∧ check v = .ok a := by
  rw [oneOf, bind_eq_ok]
  simp only [entries_eq_ok]
  refine exists_congr fun es => ?_
  constructor
  · rintro ⟨hes, h⟩
    split at h
    · next name hname =>
      split at h
      · next check hcheck => exact ⟨name, check, hes, hname, hcheck, h⟩
      · cases h
    · cases h
  · rintro ⟨name, check, hes, hname, hcheck, ha⟩
    refine ⟨hes, ?_⟩
    rw [hname]
    simp only [hcheck, ha]

end TreeExtraction.Check

namespace TreeExtraction.StandardValidator

open Check

instance isLawful : LawfulValidator where
  text_ok := text_eq_ok
  minLength_ok := require_eq_ok.trans (and_congr_right fun _ => decide_eq_true_iff)
  matching_ok := require_eq_ok
  number_ok := number_eq_ok
  integer_ok := integer_eq_ok
  literal_ok := literal_eq_ok
  unknown_ok := ⟨Except.ok.inj, congrArg _⟩
  array_ok := array_eq_ok
  optional_ok := optional_eq_ok
  withDefault_ok := withDefault_eq_ok
  record_ok := record_eq_ok
  object_ok := object_eq_ok
  oneOf_ok := oneOf_eq_ok

end TreeExtraction.StandardValidator
