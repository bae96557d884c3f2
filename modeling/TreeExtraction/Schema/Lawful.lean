import Mathlib.Data.List.Forall2
import TreeExtraction.Schema.Validator

/-! # Lawful validators

What is asked of a validator: which values each schema accepts and which data it hands on. Values
are handed on unchanged, keys that are not in a shape are refused, what is missing is filled in by
its default, and an entry of a record under the name of the inherited object is dropped. Nothing is
asked of the issues of what is refused.
-/

namespace TreeExtraction

open Validator

/-- Whether data are read part by part from what is found under the keys of a shape. -/
def Shape.Reads [Validator] {α : Type} (look : Text → Value) : Shape Schema α → α → Prop
  | .done a, x => x = a
  | .entry key s rest, x => ∃ b f, safeParse s (look key) = .ok b ∧ rest.Reads look f ∧ x = f b

/-- The laws of a validator, one for each schema. -/
class LawfulValidator [Validator] : Prop where
  text_ok {v : Value} {t : Text} : safeParse text v = .ok t ↔ v = .text t
  minLength_ok {n : Nat} {s : Schema Text} {v : Value} {t : Text} :
    safeParse (minLength n s) v = .ok t ↔ safeParse s v = .ok t ∧ n ≤ t.length
  matching_ok {pattern : Text → Bool} {message : Text} {s : Schema Text} {v : Value} {t : Text} :
    safeParse (matching pattern message s) v = .ok t ↔ safeParse s v = .ok t ∧ pattern t = true
  number_ok {v : Value} {n : Number} : safeParse number v = .ok n ↔ v = .number n ∧ n ≠ .nan
  integer_ok {s : Schema Number} {v : Value} {n : Number} :
    safeParse (integer s) v = .ok n ↔ safeParse s v = .ok n ∧ n.isInteger = true
  literal_ok {t : Text} {v : Value} : safeParse (literal t) v = .ok () ↔ v = .text t
  unknown_ok {v w : Value} : safeParse unknown v = .ok w ↔ v = w
  array_ok {α : Type} {s : Schema α} {v : Value} {as : List α} :
    safeParse (array s) v = .ok as ↔ ∃ items frame, v = .array items frame ∧
      List.Forall₂ (fun item a => safeParse s item = .ok a) (Value.reading items) as
  optional_ok {α : Type} {s : Schema α} {v : Value} {a : Option α} :
    safeParse (optional s) v = .ok a ↔
      (v = .undefined ∧ a = none) ∨ (v ≠ .undefined ∧ ∃ x, safeParse s v = .ok x ∧ a = some x)
  withDefault_ok {α : Type} {usual : α} {s : Schema α} {v : Value} {a : α} :
    safeParse (withDefault usual s) v = .ok a ↔
      (v = .undefined ∧ a = usual) ∨ (v ≠ .undefined ∧ safeParse s v = .ok a)
  record_ok {α : Type} {key : Schema Text} {s : Schema α} {v : Value} {t : Table α} :
    safeParse (record key s) v = .ok t ↔ ∃ es all, v.objectEntries? [] = some es ∧
      List.Forall₂ (fun e a => safeParse key (.text e.1) = .ok a.1 ∧ safeParse s e.2 = .ok a.2)
        es all ∧ all.filter (fun a => a.1 != Value.parentName) = t
  object_ok {α : Type} {shape : Shape Schema α} {v : Value} {a : α} :
    safeParse (object shape) v = .ok a ↔ ∃ es, v.objectEntries? shape.keys = some es ∧
      (∀ e ∈ es, e.1 ∈ shape.keys) ∧ shape.Reads (Entries.get es) a
  oneOf_ok {α : Type} {key : Text} {cases : List (Text × Schema α)} {v : Value} {a : α} :
    safeParse (oneOf key cases) v = .ok a ↔ ∃ es name s, v.objectEntries? [key] = some es ∧
      Entries.get es key = .text name ∧ cases.lookup name = some s ∧ safeParse s v = .ok a

end TreeExtraction
