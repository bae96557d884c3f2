import TreeExtraction.Definition.Library
import TreeExtraction.Proofs.Definition.Builtin
import TreeExtraction.Proofs.Outcome
import TreeExtraction.Proofs.Schema.Standard
import TreeExtraction.Proofs.Text.Lookup
import TreeExtraction.Proofs.Text.Order
import TreeExtraction.Value.SampleHost

/-! # What libraries answer

A registration puts a definition under its name, or it fails and leaves the library as it was. So
whatever is registered, in whatever order and with whatever failures in between, a library lists its
names in order and once each, it has the names that it lists and gives a definition for these alone,
`default` means the default definition, and any other name the one that was registered last.
-/

namespace TreeExtraction.Library

variable {l : Library} {name : Text} {r : Registrable} {d : Definition} {f : Failure}

/-! ## One registration -/

/-- Whether definitions can be registered under a name. -/
def IsFree (name : Text) : Prop :=
  name ≠ [] ∧ name ≠ defaultName

theorem checkName_eq_ok : checkName name = .ok () ↔ IsFree name := by
  rw [checkName]
  by_cases hempty : name = [] <;> by_cases hdefault : name = defaultName <;>
    simp [IsFree, hempty, hdefault]

section

variable [PureHost] [Validator]

/-- What a registration comes to: the name and the definition are checked before anything is put
in. -/
theorem run_register (name : Text) (r : Registrable) (l : Library) :
    (register name r).run l =
      match checkName name >>= fun _ => r.resolve with
      | .ok d => (.ok d, ⟨Table.insert l.registered name d⟩)
      | .error f => (.error f, l) := by
  rw [register]
  cases checkName name with
  | error f => rfl
  | ok _ => cases r.resolve <;> rfl

/-- A registration succeeds exactly if the name is free and the definition can be read, and then the
name has the definition; if it fails, the library stays as it was. -/
theorem register_cases (name : Text) (r : Registrable) (l : Library) :
    (∃ d, IsFree name ∧ r.resolve = .ok d ∧
      (register name r).run l = (.ok d, ⟨Table.insert l.registered name d⟩)) ∨
    ∃ f, (¬IsFree name ∨ r.resolve = .error f) ∧ (register name r).run l = (.error f, l) := by
  rw [run_register]
  cases hname : checkName name with
  | error f =>
    refine .inr ⟨f, .inl ?_, rfl⟩
    rw [← checkName_eq_ok, hname]
    exact nofun
  | ok _ =>
    cases hr : r.resolve with
    | error f => exact .inr ⟨f, .inr rfl, rfl⟩
    | ok d => exact .inl ⟨d, checkName_eq_ok.1 hname, rfl, rfl⟩

end

/-! ## Runs of registrations -/

/-- A registration that is to be made. -/
abbrev Registration := Text × Registrable

section

variable [PureHost] [Validator]

/-- The library after some registrations, each of which may fail. -/
def after (l : Library) : List Registration → Library
  | [] => l
  | c :: cs => after ((register c.1 c.2).run l).2 cs

/-- The definitions that some registrations give, in order and under their names; one that fails
gives none. -/
def given (l : Library) : List Registration → Table Definition
  | [] => []
  | c :: cs =>
    match (register c.1 c.2).run l with
    | (.ok d, next) => (c.1, d) :: given next cs
    | (.error _, next) => given next cs

variable {c : Registration} {cs ds : List Registration}

theorem after_append (l : Library) (cs ds : List Registration) :
    l.after (cs ++ ds) = (l.after cs).after ds := by
  induction cs generalizing l with
  | nil => rfl
  | cons c cs ih => exact ih _

theorem given_append (l : Library) (cs ds : List Registration) :
    l.given (cs ++ ds) = l.given cs ++ (l.after cs).given ds := by
  induction cs generalizing l with
  | nil => rfl
  | cons c cs ih =>
    rcases register_cases c.1 c.2 l with ⟨d, -, -, hrun⟩ | ⟨f, -, hrun⟩
    · simp only [List.cons_append, given, after, hrun, ih]
    · simp only [List.cons_append, given, after, hrun, ih]

/-- After some registrations a name has the definition that they gave it last, and the one from
before if they gave it none. -/
theorem get?_after (l : Library) (cs : List Registration) (n : Text) :
    Table.get? (l.after cs).registered n =
      (Table.last? (l.given cs) n).or (Table.get? l.registered n) := by
  induction cs generalizing l with
  | nil => rfl
  | cons c cs ih =>
    rcases register_cases c.1 c.2 l with ⟨d, -, -, hrun⟩ | ⟨f, -, hrun⟩
    · simp only [given, after, hrun, ih, Table.get?_insert, Table.last?_cons, Option.or_assoc]
      by_cases hn : n = c.1 <;> simp [hn]
    · simp only [given, after, hrun, ih]

end

/-! ## What every library is -/

/-- Whether a library has each name once, and not the reserved one. -/
structure IsSound (l : Library) : Prop where
  nodup : (Table.keys l.registered).Nodup
  default_notMem : defaultName ∉ Table.keys l.registered

theorem isSound_empty : IsSound empty :=
  ⟨List.nodup_nil, List.not_mem_nil⟩

theorem IsSound.register [PureHost] [Validator] (h : IsSound l) (name : Text) (r : Registrable) :
    IsSound ((register name r).run l).2 := by
  rcases register_cases name r l with ⟨d, hfree, -, hrun⟩ | ⟨f, -, hrun⟩
  · rw [hrun]
    refine ⟨Table.nodup_keys_insert h.nodup, ?_⟩
    have hdefault := h.default_notMem
    have hname : defaultName ≠ name := hfree.2.symm
    rw [Table.keys_insert]
    split <;> simp [hdefault, hname]
  · rw [hrun]
    exact h

theorem IsSound.after [PureHost] [Validator] (h : IsSound l) (cs : List Registration) :
    IsSound (l.after cs) := by
  induction cs generalizing l with
  | nil => exact h
  | cons c cs ih => exact ih (h.register c.1 c.2)

/-- An action goes on from the library that the one before it leaves, unless that fails. -/
theorem run_bind {α β : Type} (a : Action α) (g : α → Action β) (l : Library) :
    (a >>= g).run l =
      match a.run l with
      | (.ok x, next) => (g x).run next
      | (.error f, next) => (.error f, next) := by
  change (match a.run l with | (outcome, next) => ExceptT.bindCont g outcome next) = _
  rcases a.run l with ⟨f | x, next⟩ <;> rfl

/-! ## Names and definitions -/

theorem has_iff {n : Text} : l.has n = true ↔ n = defaultName ∨ n ∈ Table.keys l.registered := by
  rw [has, Bool.or_eq_true, beq_iff_eq, Table.has_iff]

theorem mem_list {n : Text} : n ∈ l.list ↔ l.has n = true := by
  rw [has_iff, list, Text.mem_sort, List.mem_cons]

theorem IsSound.pairwise_list (h : IsSound l) : l.list.Pairwise (· < ·) :=
  Text.pairwise_lt_sort (List.nodup_cons.2 ⟨h.default_notMem, h.nodup⟩)

theorem get_default (l : Library) : l.get defaultName = .ok .default := by
  rw [get, if_pos (beq_self_eq_true _)]

theorem get_eq_ok {n : Text} (hn : n ≠ defaultName) :
    l.get n = .ok d ↔ Table.get? l.registered n = some d := by
  rw [get, if_neg (by simpa using hn)]
  cases Table.get? l.registered n <;> simp

theorem has_iff_exists_get {n : Text} : l.has n = true ↔ ∃ d, l.get n = .ok d := by
  by_cases hn : n = defaultName
  · subst hn
    exact iff_of_true (has_iff.2 (.inl rfl)) ⟨_, l.get_default⟩
  · rw [has_iff, or_iff_right hn, ← Table.has_iff, Table.has, Option.isSome_iff_exists]
    exact exists_congr fun d => (get_eq_ok hn).symm

section Validator

variable [PureHost] [Validator]

/-- What a library answers when it has been given some definitions, in order and under their
names. -/
structure Answers (l : Library) (definitions : Table Definition) : Prop where
  ascending : l.list.Pairwise (· < ·)
  listed : ∀ n, n ∈ l.list ↔ l.has n = true
  present : ∀ n, l.has n = true ↔ ∃ d, l.get n = .ok d
  default : l.get defaultName = .ok .default
  last : ∀ n d, n ≠ defaultName → (l.get n = .ok d ↔ Table.last? definitions n = some d)
  kept : ∀ name r f next, (register name r).run l = (.error f, next) →
    (∀ n, next.has n = l.has n ∧ next.get n = l.get n) ∧ next.list = l.list

/-- A library that has been built from nothing answers with what it has been given. -/
theorem answers_after_empty (cs : List Registration) :
    Answers (empty.after cs) (empty.given cs) where
  ascending := (isSound_empty.after cs).pairwise_list
  listed := fun _ => mem_list
  present := fun _ => has_iff_exists_get
  default := get_default _
  last := by
    intro n d hn
    have hempty : Table.get? empty.registered n = none := rfl
    rw [get_eq_ok hn, get?_after, hempty, Option.or_none]
  kept := by
    intro name r f next hrun
    rcases register_cases name r (empty.after cs) with ⟨d, -, -, hok⟩ | ⟨f, -, herror⟩
    · rw [hrun] at hok
      cases hok
    · rw [hrun] at herror
      cases herror
      exact ⟨fun _ => ⟨rfl, rfl⟩, rfl⟩

/-! ## The built-in definitions -/

/-- The registration of a serialized definition. -/
def ofSerialized (e : Text × Value) : Registration :=
  (e.1, .serialized e.2)

/-- Serialized definitions that are all registered give the definitions that are read from them. -/
theorem of_run_registerAll {raws : Table Value} {next : Library}
    (h : (registerAll raws).run l = (.ok (), next)) :
    next = l.after (raws.map ofSerialized) ∧
      List.Forall₂ (fun e b => b.1 = e.1 ∧ Definition.compile e.2 = .ok b.2) raws
        (l.given (raws.map ofSerialized)) := by
  induction raws generalizing l with
  | nil =>
    cases h
    exact ⟨rfl, .nil⟩
  | cons e raws ih =>
    rcases e with ⟨name, raw⟩
    rw [registerAll, run_bind] at h
    rcases register_cases name (.serialized raw) l with ⟨d, -, hd, hrun⟩ | ⟨f, -, hrun⟩
    · rw [hrun] at h
      obtain ⟨rfl, hread⟩ := ih h
      simp only [List.map_cons, ofSerialized, after, given, hrun, true_and]
      exact .cons ⟨rfl, hd⟩ hread
    · rw [hrun] at h
      cases h

/-- Serialized definitions that can be read are all registered if their names are free. -/
theorem exists_run_registerAll {raws : Table Value}
    (h : ∀ e ∈ raws, IsFree e.1 ∧ ∃ d, Definition.compile e.2 = .ok d) (l : Library) :
    ∃ next, (registerAll raws).run l = (.ok (), next) := by
  induction raws generalizing l with
  | nil => exact ⟨l, rfl⟩
  | cons e raws ih =>
    obtain ⟨hfree, d, hd⟩ := h e List.mem_cons_self
    obtain ⟨next, hnext⟩ := ih (fun e he => h e (List.mem_cons_of_mem _ he))
      ⟨Table.insert l.registered e.1 d⟩
    refine ⟨next, ?_⟩
    rw [registerAll, run_bind, run_register, checkName_eq_ok.2 hfree, Registrable.resolve, hd]
    exact hnext

variable [LawfulValidator]

/-- The built-in definitions can all be registered. -/
theorem exists_run_builtins : ∃ l, (registerAll Builtin.all).run empty = (.ok (), l) := by
  have hfree : ∀ e ∈ Builtin.all, IsFree e.1 := by
    rw [Builtin.all, List.forall_mem_cons, List.forall_mem_singleton]
    exact ⟨⟨by decide, by decide⟩, by decide, by decide⟩
  exact exists_run_registerAll
    (fun e he => ⟨hfree e he, Builtin.exists_compile_of_mem e he⟩) empty

/-- Whatever is registered in a library that held nothing, or only the built-in definitions, it
answers with what it has been given. -/
theorem answers_after :
    (∀ cs, Answers (empty.after cs) (empty.given cs)) ∧
      ∃ l builtins, withBuiltins = .ok l ∧
        List.Forall₂ (fun e b => b.1 = e.1 ∧ Definition.compile e.2 = .ok b.2) Builtin.all
          builtins ∧
        ∀ cs, Answers (l.after cs) (builtins ++ l.given cs) := by
  refine ⟨answers_after_empty, ?_⟩
  obtain ⟨l, hrun⟩ := exists_run_builtins
  have hl : withBuiltins = .ok l := by
    unfold withBuiltins
    rw [hrun]
  obtain ⟨rfl, hread⟩ := of_run_registerAll hrun
  refine ⟨_, _, hl, hread, fun cs => ?_⟩
  rw [← after_append, ← given_append]
  exact answers_after_empty _

end Validator

open scoped SampleHost StandardValidator

/-- A name that is registered twice, and in between in vain, beside the built-in definitions. -/
theorem answers_after_registrations :
    ∃ l builtins, withBuiltins = .ok l ∧
      Answers (l.after [(units "notes", .definition .default), (units "notes", .serialized .null),
        (units "notes", .serialized (.mapping []))])
        (builtins ++ l.given [(units "notes", .definition .default),
          (units "notes", .serialized .null), (units "notes", .serialized (.mapping []))]) := by
  obtain ⟨l, builtins, hl, -, hanswers⟩ := answers_after.2
  exact ⟨l, builtins, hl, hanswers _⟩

end TreeExtraction.Library
