import TreeExtraction.Proofs.Schema.Reading
import TreeExtraction.Proofs.Value.Entries
import TreeExtraction.Transform.Serialized

/-! # Written transforms are read back

A built-in transform that has been read is written as its name with the parameters that are given,
and that is read as the same transform.
-/

namespace TreeExtraction

namespace TransformName

theorem ofText?_text (n : TransformName) : ofText? n.text = some n := by
  cases n <;> decide

theorem text_ne_nil (n : TransformName) : n.text ≠ [] := by
  cases n <;> decide

end TransformName

namespace Transform

/-- The parameters of a built-in transform under their keys. -/
def parts : BuiltinTransform → Table (Option Value)
  | .truncate n s => [(maxLengthKey, n.map .number), (suffixKey, s.map .text)]
  | .round n => [(digitsKey, n.map .number)]
  | .format t => [(formatSpecKey, t.map .text)]
  | .join t => [(separatorKey, t.map .text)]
  | .flatten n => [(depthKey, n.map .number)]
  | _ => []

theorem entry_eq_ofOption {α : Type} (key : Text) (value : α → Value) (a : Option α) :
    entry key value a = Entries.ofOption key (a.map value) := by
  cases a <;> rfl

theorem parameters_eq_ofParts (b : BuiltinTransform) :
    parameters b = Entries.ofParts (parts b) := by
  cases b <;> simp [parameters, parts, Entries.ofParts, entry_eq_ofOption]

variable {b : BuiltinTransform} {name : TransformName} {es : Entries} {key : Text}
  {look : Text → Value}

theorem parts_ne_function : ∀ e ∈ parts b, ∀ v ∈ e.2, ∀ f source frame,
    v ≠ .function f source frame := by
  cases b <;> simp +contextual [parts]

/-- The mapping form of a built-in transform. -/
def written (b : BuiltinTransform) : Entries :=
  (nameKey, .text b.name.text) :: parameters b

theorem objectEntries?_written (b : BuiltinTransform) (keys : List Text) :
    (Value.mapping (written b) .ordinary).objectEntries? keys = some (written b) := by
  refine Value.objectEntries?_mapping keys .ordinary fun e he => ?_
  rcases List.mem_cons.1 he with rfl | he
  · nofun
  · rw [parameters_eq_ofParts, Entries.ofParts, List.mem_flatMap] at he
    obtain ⟨part, hpart, he⟩ := he
    have hvalue := parts_ne_function part hpart
    rcases part with ⟨key, _ | v⟩
    · cases he
    · rw [List.mem_singleton.1 he]
      exact hvalue v rfl

section

variable [Validator]

open Validator

theorem keys_parts (b : BuiltinTransform) :
    Table.keys (parts b) = (parameterShape b.name).keys := by
  cases b <;> rfl

theorem nodup_parameterKeys (name : TransformName) :
    (nameKey :: (parameterShape name).keys).Nodup := by
  cases name <;> simp only [parameterShape, Shape.keys] <;> decide

theorem keys_shape (name : TransformName) :
    (shape name).keys = nameKey :: (parameterShape name).keys :=
  congrArg (nameKey :: ·) (Shape.keys_map _ _)

variable [LawfulValidator]

open LawfulValidator

/-- A parameter of the mapping form is read as the one that was read before. -/
theorem parameter_written {α : Type} {key : Text} {schema : Schema α} {value : α → Value}
    {a : Option α} (hpart : (key, a.map value) ∈ parts b) (hvalue : ∀ x, value x ≠ .undefined)
    (hschema : ∀ v x, safeParse schema v = .ok x → v = value x)
    (h : safeParse (optional schema) (look key) = .ok a) :
    safeParse (optional schema) (Entries.get (written b) key) = .ok a := by
  have hkeys := nodup_parameterKeys b.name
  rw [← keys_parts, List.nodup_cons] at hkeys
  have hname : key ≠ nameKey := by
    rintro rfl
    exact hkeys.1 (Table.mem_keys_of_mem hpart)
  rw [written, Entries.get_cons_of_ne hname, parameters_eq_ofParts,
    Entries.get_ofParts hkeys.2 hpart]
  refine optional_map hvalue fun x hx => ?_
  have hx := of_optional h x hx
  rwa [hschema _ _ hx] at hx

theorem integer_written {a : Option Number} (hpart : (key, a.map Value.number) ∈ parts b)
    (h : safeParse (optional (integer number)) (look key) = .ok a) :
    safeParse (optional (integer number)) (Entries.get (written b) key) = .ok a :=
  parameter_written hpart nofun (fun _ _ hx => (number_ok.1 (integer_ok.1 hx).1).1) h

theorem text_written {a : Option Text} (hpart : (key, a.map Value.text) ∈ parts b)
    (h : safeParse (optional text) (look key) = .ok a) :
    safeParse (optional text) (Entries.get (written b) key) = .ok a :=
  parameter_written hpart nofun (fun _ _ hx => text_ok.1 hx) h

/-- What is read for a name is the transform of the name, and is read from its mapping form. -/
theorem reads_written (h : (parameterShape name).Reads look b) :
    b.name = name ∧ (parameterShape name).Reads (Entries.get (written b)) b := by
  cases name
  case truncate =>
    obtain ⟨n, _, hn, ⟨t, _, ht, rfl, rfl⟩, rfl⟩ := h
    exact ⟨rfl, n, _, integer_written (by simp [parts]) hn,
      ⟨t, _, text_written (by simp [parts]) ht, rfl, rfl⟩, rfl⟩
  case round | flatten =>
    obtain ⟨n, _, hn, rfl, rfl⟩ := h
    exact ⟨rfl, n, _, integer_written (by simp [parts]) hn, rfl, rfl⟩
  case format | join =>
    obtain ⟨t, _, ht, rfl, rfl⟩ := h
    exact ⟨rfl, t, _, text_written (by simp [parts]) ht, rfl, rfl⟩
  all_goals
    obtain rfl := h
    exact ⟨rfl, rfl⟩

theorem reads_shape :
    (shape name).Reads look b ↔ look nameKey = .text name.text ∧
      (parameterShape name).Reads look b := by
  simp only [shape, Shape.Reads, Shape.reads_map]
  constructor
  · rintro ⟨⟨⟩, _, hname, ⟨b, hb, rfl⟩, rfl⟩
    exact ⟨literal_ok.1 hname, hb⟩
  · rintro ⟨hname, hb⟩
    exact ⟨(), _, literal_ok.2 hname, ⟨b, hb, rfl⟩, rfl⟩

theorem exists_of_compileMapping {ancestry : Ancestry}
    (h : compileMapping es ancestry = .ok (.builtin b)) :
    ∃ name look, (parameterShape name).Reads look b := by
  rw [compileMapping] at h
  split at h
  · cases h
  · split at h
    · cases h
    · split at h
      · next hread =>
        cases h
        obtain ⟨_, word, s, -, -, hcase, hs⟩ := oneOf_ok.1 hread
        obtain ⟨name, -, hname⟩ := List.mem_map.1 (Table.mem_of_get? hcase)
        obtain ⟨-, rfl⟩ := Prod.mk.inj hname
        obtain ⟨_, -, -, hreads⟩ := object_ok.1 hs
        exact ⟨name, _, (reads_shape.1 hreads).2⟩
      · cases h
  · cases h

theorem exists_of_compile {raw : Value} (h : compile raw = .ok (.builtin b)) :
    ∃ name look, (parameterShape name).Reads look b := by
  cases raw with
  | text t => exact exists_of_compileMapping h
  | mapping es => exact exists_of_compileMapping h
  | _ => cases h

theorem compileMapping_written (h : (parameterShape b.name).Reads (Entries.get (written b)) b) :
    compileMapping (written b) .ordinary = .ok (.builtin b) := by
  have hname : Entries.get (written b) nameKey = .text b.name.text := Entries.get_cons_self _ _ _
  have hkeys : ∀ e ∈ written b, e.1 ∈ (shape b.name).keys := by
    rw [keys_shape, ← keys_parts]
    intro e he
    rcases List.mem_cons.1 he with rfl | he
    · exact List.mem_cons_self
    · rw [parameters_eq_ofParts] at he
      exact List.mem_cons_of_mem _ (Entries.keys_ofParts_subset _ (List.mem_map_of_mem he))
  have hread : safeParse (object (shape b.name)) (.mapping (written b)) = .ok b :=
    object_ok.2 ⟨_, objectEntries?_written b _, hkeys, reads_shape.2 ⟨hname, h⟩⟩
  have hcase : (TransformName.all.map fun name => (name.text, object (shape name))).lookup
      b.name.text = some (object (shape b.name)) := by
    cases b.name <;> rfl
  have hschema : safeParse schema (.mapping (written b)) = .ok b :=
    oneOf_ok.2 ⟨_, _, _, objectEntries?_written b _, hname, hcase, hread⟩
  obtain ⟨u, t, ht⟩ := List.exists_cons_of_ne_nil b.name.text_ne_nil
  have hof := b.name.ofText?_text
  rw [ht] at hname hof
  rw [compileMapping, hname]
  simp only [hof, hschema]

/-- A built-in transform that has been read is read from its serialized form. -/
theorem compile_serializeBuiltin {raw : Value} (h : compile raw = .ok (.builtin b)) :
    compile (serializeBuiltin b) = .ok (.builtin b) := by
  obtain ⟨name, look, hreads⟩ := exists_of_compile h
  obtain ⟨rfl, hwritten⟩ := reads_written hreads
  have hmapping := compileMapping_written hwritten
  rw [written] at hmapping
  rw [serializeBuiltin]
  split
  · next hnone => rwa [hnone] at hmapping
  · exact hmapping

end

theorem isNull_serializeBuiltin (b : BuiltinTransform) : (serializeBuiltin b).isNull = false := by
  rw [serializeBuiltin]
  split <;> rfl

end Transform

end TreeExtraction
