import Mathlib.Data.List.Forall2
import TreeExtraction.Proofs.Outcome
import TreeExtraction.Proofs.Template.Segments
import TreeExtraction.Value.SampleHost

/-! # Templates with their placeholders filled in

A template keeps its shape and its keys; only its texts are filled in, each segment by segment. A
text that is one placeholder becomes the value of its expression. In every other text the
placeholders make way for the texts of their values, which are not scanned again. The first
expression that fails, in reading order, decides the failure of the whole template.
-/

namespace TreeExtraction

namespace Segments

/-- The literal segments with texts in the places of the placeholders. -/
def fill (s : Segments) (texts : List Text) : Text :=
  (List.zipWith (fun p t => p.1 ++ t) s.pieces texts).flatten ++ s.tail

end Segments

namespace Template

variable {binding v w : Value} {t tail : Text} {pieces : List (Text × Text)} {e : Failure}

/-! ## Copies -/

/-- Whether a value stays as it is in a template. -/
def isKept : Value → Bool
  | .text _ | .array .. | .mapping .. => false
  | _ => true

mutual

/-- A value with its arrays and mappings built anew. -/
def copy : Value → Value
  | .array vs _ => .array (copyItems vs) {}
  | .mapping es _ => .mapping (copyEntries es)
  | v => v

def copyItems : List (Option Value) → List (Option Value)
  | [] => []
  | none :: vs => none :: copyItems vs
  | some v :: vs => some (copy v) :: copyItems vs

def copyEntries : List (Text × Value) → Entries
  | [] => []
  | (k, v) :: es => (k, copy v) :: copyEntries es

end

/-- Whether all arrays and mappings of a value are of the kind that is built anew. -/
inductive IsUsual : Value → Prop where
  | array {vs : List (Option Value)} (h : ∀ v, some v ∈ vs → IsUsual v) : IsUsual (.array vs {})
  | mapping {es : Entries} (h : ∀ e ∈ es, IsUsual e.2) : IsUsual (.mapping es)
  | text (t : Text) : IsUsual (.text t)
  | kept {v : Value} (h : isKept v = true) : IsUsual v

theorem copyItems_eq {vs : List (Option Value)} (h : ∀ v, some v ∈ vs → copy v = v) :
    copyItems vs = vs := by
  induction vs with
  | nil => rfl
  | cons item vs ih =>
    have hrest := ih fun v hv => h v (List.mem_cons_of_mem _ hv)
    cases item with
    | none => rw [copyItems, hrest]
    | some v => rw [copyItems, hrest, h v List.mem_cons_self]

theorem copyEntries_eq {es : Entries} (h : ∀ e ∈ es, copy e.2 = e.2) : copyEntries es = es := by
  induction es with
  | nil => rfl
  | cons e es ih =>
    rw [copyEntries, ih fun f hf => h f (List.mem_cons_of_mem _ hf), h e List.mem_cons_self]

theorem IsUsual.copy_eq (h : IsUsual v) : copy v = v := by
  induction h with
  | array _ ih => rw [copy, copyItems_eq ih]
  | mapping _ ih => rw [copy, copyEntries_eq ih]
  | text t => rfl
  | @kept v h => cases v <;> first | rfl | cases h

/-! ## Attempts -/

/-- An operation without what it yields. -/
def attempt {α : Type} (r : Except Failure α) : Except Failure Unit :=
  (fun _ => ()) <$> r

theorem attempt_eq_error {α : Type} {r : Except Failure α} :
    attempt r = .error e ↔ r = .error e := by
  cases r with
  | error f => simp [attempt, Functor.map, Except.map]
  | ok a => simp [attempt]

theorem attempt_eq_ok {α : Type} {r : Except Failure α} {u : Unit} :
    attempt r = .ok u ↔ ∃ a, r = .ok a := by
  cases r with
  | error f => simp [attempt, Functor.map, Except.map]
  | ok a => simp [attempt]

theorem attempt_map {α β : Type} (f : α → β) (r : Except Failure α) :
    attempt (f <$> r) = attempt r := by
  cases r <;> rfl

theorem attempt_bind {α β : Type} (r : Except Failure α) {g : α → Except Failure β}
    {next : Except Failure Unit} (h : ∀ a, attempt (g a) = next) :
    attempt (r >>= g) = attempt r >>= fun _ => next := by
  cases r with
  | error f => rfl
  | ok a => exact h a

/-! ## What a template becomes -/

variable [PureHost]

/-- The text that stands for an expression. -/
def resolveText (binding : Value) (expression : Text) : Except Failure Text := do
  let v ← resolve expression binding
  v.insertedText

/-- What a template becomes. -/
inductive Fills (binding : Value) : Value → Value → Prop where
  | whole {t expression : Text} {v : Value} (hwhole : (Segments.ofText t).whole? = some expression)
    (hv : resolve expression binding = .ok v) : Fills binding (.text t) v
  | joined {t : Text} {texts : List Text} (hwhole : (Segments.ofText t).whole? = none)
    (htexts : List.Forall₂ (fun p u => resolveText binding p.2 = .ok u)
      (Segments.ofText t).pieces texts) :
    Fills binding (.text t) (.text ((Segments.ofText t).fill texts))
  | array {vs ws : List (Option Value)} {frame : Frame Value}
    (h : List.Forall₂ (Option.Rel (Fills binding)) vs ws) :
    Fills binding (.array vs frame) (.array ws {})
  | mapping {es fs : Entries} {ancestry : Ancestry} (hkeys : Table.keys es = Table.keys fs)
    (h : List.Forall₂ (Fills binding) (es.map (·.2)) (fs.map (·.2))) :
    Fills binding (.mapping es ancestry) (.mapping fs)
  | kept {v : Value} (h : isKept v = true) : Fills binding v v

/-! ## Texts -/

theorem substituteText_eq (t : Text) (binding : Value) : substituteText t binding =
    match (Segments.ofText t).whole? with
    | some expression => resolve expression binding
    | none => .text <$> assemble binding (Segments.ofText t).tail (Segments.ofText t).pieces := by
  rw [substituteText]
  generalize Segments.ofText t = s
  rcases s with ⟨_ | ⟨⟨_ | _, _⟩, _ | _⟩, _ | _⟩ <;> rfl

theorem assemble_cons (binding : Value) (tail : Text) (p : Text × Text)
    (pieces : List (Text × Text)) : assemble binding tail (p :: pieces) = do
      let u ← resolveText binding p.2
      let rest ← assemble binding tail pieces
      return p.1 ++ u ++ rest := by
  rw [assemble, resolveText]
  cases resolve p.2 binding <;> rfl

theorem assemble_eq_ok : assemble binding tail pieces = .ok t ↔
    ∃ texts, List.Forall₂ (fun p u => resolveText binding p.2 = .ok u) pieces texts ∧
      Segments.fill ⟨pieces, tail⟩ texts = t := by
  induction pieces generalizing t with
  | nil => simp [assemble, Segments.fill]
  | cons p pieces ih =>
    rw [assemble_cons, Outcome.bind_eq_ok]
    constructor
    · rintro ⟨u, hu, h⟩
      obtain ⟨rest, hrest, h⟩ := Outcome.bind_eq_ok.1 h
      cases h
      obtain ⟨texts, htexts, rfl⟩ := ih.1 hrest
      exact ⟨u :: texts, .cons hu htexts, by simp [Segments.fill]⟩
    · rintro ⟨_, _ | ⟨hu, htexts⟩, rfl⟩
      refine ⟨_, hu, Outcome.bind_eq_ok.2 ⟨_, ih.2 ⟨_, htexts, rfl⟩, ?_⟩⟩
      simp [Segments.fill]

theorem substituteText_eq_ok : substituteText t binding = .ok v ↔ Fills binding (.text t) v := by
  rw [substituteText_eq]
  constructor
  · intro h
    split at h
    · next hwhole => exact .whole hwhole h
    · next hwhole =>
      obtain ⟨u, hu, rfl⟩ := Outcome.map_eq_ok.1 h
      obtain ⟨texts, htexts, rfl⟩ := assemble_eq_ok.1 hu
      exact .joined hwhole htexts
  · intro h
    cases h with
    | whole hwhole hv => rw [hwhole]; exact hv
    | joined hwhole htexts =>
      rw [hwhole]
      exact Outcome.map_eq_ok.2 ⟨_, assemble_eq_ok.2 ⟨_, htexts, rfl⟩, rfl⟩
    | kept h => cases h

/-! ## Templates -/

theorem substitute_kept (h : isKept v = true) : substitute binding v = .ok v := by
  cases v with
  | text | array | mapping => cases h
  | _ => simp [substitute]

theorem fills_kept_iff (h : isKept v = true) : Fills binding v w ↔ w = v := by
  constructor
  · rintro (_ | _ | _ | _ | _)
    · cases h
    · cases h
    · cases h
    · cases h
    · rfl
  · rintro rfl
    exact .kept h

mutual

theorem substitute_eq_ok (template : Value) {v : Value} :
    substitute binding template = .ok v ↔ Fills binding template v := by
  cases template with
  | text t => rw [substitute, substituteText_eq_ok]
  | array vs frame =>
    rw [substitute, Outcome.map_eq_ok]
    simp only [substituteItems_eq_ok vs]
    constructor
    · rintro ⟨ws, h, rfl⟩
      exact .array h
    · rintro (_ | _ | h | _ | h)
      · exact ⟨_, h, rfl⟩
      · cases h
  | mapping es ancestry =>
    rw [substitute, Outcome.map_eq_ok]
    simp only [substituteEntries_eq_ok es]
    constructor
    · rintro ⟨fs, ⟨hkeys, h⟩, rfl⟩
      exact .mapping hkeys h
    · rintro (_ | _ | _ | ⟨hkeys, h⟩ | h)
      · exact ⟨_, ⟨hkeys, h⟩, rfl⟩
      · cases h
  | _ => rw [substitute_kept rfl, fills_kept_iff rfl, Except.ok.injEq, eq_comm]

theorem substituteItems_eq_ok (vs : List (Option Value)) {ws : List (Option Value)} :
    substituteItems binding vs = .ok ws ↔ List.Forall₂ (Option.Rel (Fills binding)) vs ws := by
  cases vs with
  | nil => simp [substituteItems, eq_comm]
  | cons item vs =>
    rw [List.forall₂_cons_left_iff]
    cases item with
    | none =>
      rw [substituteItems, Outcome.bind_eq_ok]
      simp only [substituteItems_eq_ok vs]
      constructor
      · rintro ⟨ws, hws, h⟩
        cases h
        exact ⟨none, ws, .none, hws, rfl⟩
      · rintro ⟨_, ws, _ | _, hws, rfl⟩
        exact ⟨ws, hws, rfl⟩
    | some v =>
      rw [substituteItems, Outcome.bind_eq_ok]
      simp only [substitute_eq_ok v, Outcome.bind_eq_ok, substituteItems_eq_ok vs]
      constructor
      · rintro ⟨w, hw, ws, hws, h⟩
        cases h
        exact ⟨some w, ws, .some hw, hws, rfl⟩
      · rintro ⟨_, ws, hw, hws, rfl⟩
        cases hw with
        | some hw => exact ⟨_, hw, ws, hws, rfl⟩

theorem substituteEntries_eq_ok (es : List (Text × Value)) {fs : Entries} :
    substituteEntries binding es = .ok fs ↔ Table.keys es = Table.keys fs ∧
      List.Forall₂ (Fills binding) (es.map (·.2)) (fs.map (·.2)) := by
  cases es with
  | nil => cases fs <;> simp [substituteEntries, Table.keys]
  | cons e es =>
    rw [substituteEntries, Outcome.bind_eq_ok]
    simp only [substitute_eq_ok e.2, Outcome.bind_eq_ok, substituteEntries_eq_ok es]
    constructor
    · rintro ⟨w, hw, fs, ⟨hkeys, hfs⟩, h⟩
      cases h
      exact ⟨congrArg (e.1 :: ·) hkeys, .cons hw hfs⟩
    · rintro ⟨hkeys, h⟩
      cases fs with
      | nil => cases h
      | cons f fs =>
        obtain ⟨hkey, hkeys⟩ : e.1 = f.1 ∧ Table.keys es = Table.keys fs := List.cons.inj hkeys
        cases h with
        | cons hw hfs => exact ⟨f.2, hw, fs, ⟨hkeys, hfs⟩, by rw [hkey]; rfl⟩

end

/-! ## Failures -/

mutual

/-- The texts of a template, in reading order. -/
def leaves : Value → List Text
  | .text t => [t]
  | .array vs _ => leavesOfItems vs
  | .mapping es _ => leavesOfEntries es
  | _ => []

/-- The texts of items. -/
def leavesOfItems : List (Option Value) → List Text
  | [] => []
  | none :: vs => leavesOfItems vs
  | some v :: vs => leaves v ++ leavesOfItems vs

/-- The texts of the values of entries. -/
def leavesOfEntries : List (Text × Value) → List Text
  | [] => []
  | (_, v) :: es => leaves v ++ leavesOfEntries es

end

/-- An expression of a template, and whether its value is put in as a text. -/
structure Insertion where
  expression : Text
  asText : Bool

/-- The value or text that is put in. -/
def Insertion.run (binding : Value) (i : Insertion) : Except Failure Value :=
  if i.asText then .text <$> resolveText binding i.expression else resolve i.expression binding

/-- What is put into a text. -/
def insertionsOfText (t : Text) : List Insertion :=
  match (Segments.ofText t).whole? with
  | some expression => [⟨expression, false⟩]
  | none => (Segments.ofText t).pieces.map fun p => ⟨p.2, true⟩

/-- What is put into a template, in reading order. -/
def insertions (template : Value) : List Insertion :=
  (leaves template).flatMap insertionsOfText

theorem attempt_assemble (binding : Value) (tail : Text) (pieces : List (Text × Text)) :
    attempt (assemble binding tail pieces) =
      forM (pieces.map fun p => ⟨p.2, true⟩) fun i : Insertion => attempt (i.run binding) := by
  induction pieces with
  | nil => rfl
  | cons p pieces ih =>
    rw [assemble_cons, List.map_cons, List.forM_cons, ← ih, Insertion.run, if_pos rfl,
      attempt_map]
    refine attempt_bind _ fun u => ?_
    cases assemble binding tail pieces <;> rfl

/-- A text is filled in by the attempts of its insertions, one after the other. -/
theorem attempt_substituteText (t : Text) (binding : Value) : attempt (substituteText t binding) =
    forM (insertionsOfText t) fun i => attempt (i.run binding) := by
  rw [substituteText_eq, insertionsOfText]
  cases (Segments.ofText t).whole? with
  | some expression =>
    change attempt (resolve expression binding) = attempt (resolve expression binding) >>= pure
    cases resolve expression binding <;> rfl
  | none =>
    rw [attempt_map]
    exact attempt_assemble binding _ _

mutual

theorem attempt_substitute (template : Value) : attempt (substitute binding template) =
    forM ((leaves template).flatMap insertionsOfText) fun i => attempt (i.run binding) := by
  cases template with
  | text t => rw [substitute, attempt_substituteText, leaves, List.flatMap_singleton]
  | array vs frame => rw [substitute, attempt_map, attempt_substituteItems, leaves]
  | mapping es ancestry => rw [substitute, attempt_map, attempt_substituteEntries, leaves]
  | _ => rw [substitute_kept rfl]; simp [leaves]; rfl

theorem attempt_substituteItems (vs : List (Option Value)) :
    attempt (substituteItems binding vs) =
      forM ((leavesOfItems vs).flatMap insertionsOfText) fun i => attempt (i.run binding) := by
  cases vs with
  | nil => rfl
  | cons item vs =>
    cases item with
    | none =>
      rw [substituteItems, leavesOfItems, ← attempt_substituteItems vs]
      cases substituteItems binding vs <;> rfl
    | some v =>
      rw [substituteItems, leavesOfItems, List.flatMap_append, List.forM_append,
        ← attempt_substitute v, ← attempt_substituteItems vs]
      refine attempt_bind _ fun w => ?_
      cases substituteItems binding vs <;> rfl

theorem attempt_substituteEntries (es : List (Text × Value)) :
    attempt (substituteEntries binding es) =
      forM ((leavesOfEntries es).flatMap insertionsOfText) fun i => attempt (i.run binding) := by
  cases es with
  | nil => rfl
  | cons e es =>
    rw [substituteEntries, leavesOfEntries, List.flatMap_append, List.forM_append,
      ← attempt_substitute e.2, ← attempt_substituteEntries es]
    refine attempt_bind _ fun w => ?_
    cases substituteEntries binding es <;> rfl

end

/-- A template fails as the first of its insertions that fails. -/
theorem substitute_eq_error {template : Value} : substitute binding template = .error e ↔
    ∃ before i after, insertions template = before ++ i :: after ∧
      (∀ j ∈ before, ∃ v, j.run binding = .ok v) ∧ i.run binding = .error e := by
  rw [← attempt_eq_error, attempt_substitute, ← insertions]
  constructor
  · intro h
    obtain ⟨before, i, after, hcut, hbefore, hi⟩ := Outcome.exists_of_forM_eq_error h
    exact ⟨before, i, after, hcut, fun j hj => attempt_eq_ok.1 (hbefore j hj),
      attempt_eq_error.1 hi⟩
  · rintro ⟨before, i, after, hcut, hbefore, hi⟩
    rw [hcut]
    exact Outcome.forM_eq_error (fun j hj => attempt_eq_ok.2 (hbefore j hj)) (attempt_eq_error.2 hi)

/-! ## Templates without placeholders -/

theorem substituteText_of_not_holds (h : ¬HoldsPlaceholder t) :
    substituteText t binding = .ok (.text t) := by
  rw [substituteText, Segments.ofText_of_not_holds h]
  rfl

mutual

theorem substitute_of_not_holds (template : Value)
    (h : ∀ t ∈ leaves template, ¬HoldsPlaceholder t) :
    substitute binding template = .ok (copy template) := by
  cases template with
  | text t =>
    rw [substitute, substituteText_of_not_holds (h t (List.mem_singleton_self t))]
    rfl
  | array vs frame =>
    rw [leaves] at h
    rw [substitute, substituteItems_of_not_holds vs h, copy]
    rfl
  | mapping es ancestry =>
    rw [leaves] at h
    rw [substitute, substituteEntries_of_not_holds es h, copy]
    rfl
  | _ => exact substitute_kept rfl

theorem substituteItems_of_not_holds (vs : List (Option Value))
    (h : ∀ t ∈ leavesOfItems vs, ¬HoldsPlaceholder t) :
    substituteItems binding vs = .ok (copyItems vs) := by
  cases vs with
  | nil => rfl
  | cons item vs =>
    cases item with
    | none =>
      rw [leavesOfItems] at h
      rw [substituteItems, substituteItems_of_not_holds vs h]
      rfl
    | some v =>
      rw [leavesOfItems, List.forall_mem_append] at h
      rw [substituteItems, substitute_of_not_holds v h.1, substituteItems_of_not_holds vs h.2]
      rfl

theorem substituteEntries_of_not_holds (es : List (Text × Value))
    (h : ∀ t ∈ leavesOfEntries es, ¬HoldsPlaceholder t) :
    substituteEntries binding es = .ok (copyEntries es) := by
  cases es with
  | nil => rfl
  | cons e es =>
    rw [leavesOfEntries, List.forall_mem_append] at h
    rw [substituteEntries, substitute_of_not_holds e.2 h.1, substituteEntries_of_not_holds es h.2]
    rfl

end

/-- Filling a template in goes segment by segment: the segments depend on the texts of the template
alone, what becomes of them is said by `Fills`, the first insertion that fails decides a failure,
and a template without placeholders stays as it is, its arrays and mappings built anew. -/
theorem substitute_segmentwise (binding template : Value) :
    (∀ (t : Text) (s : Segments), s.text = t ∧ s.IsLeftmost ↔ s = Segments.ofText t) ∧
    (∀ t expression, (Segments.ofText t).whole? = some expression ↔
      t = placeholder expression ∧ unit '\x7d' ∉ expression) ∧
    (∀ v, substitute binding template = .ok v ↔ Fills binding template v) ∧
    (∀ e, substitute binding template = .error e ↔
      ∃ before i after, insertions template = before ++ i :: after ∧
        (∀ j ∈ before, ∃ v, j.run binding = .ok v) ∧ i.run binding = .error e) ∧
    ((∀ t ∈ leaves template, ¬HoldsPlaceholder t) →
      substitute binding template = .ok (copy template) ∧
        (IsUsual template → substitute binding template = .ok template)) := by
  refine ⟨fun _ _ => Segments.isLeftmost_iff, fun _ _ => Segments.whole?_ofText,
    fun _ => substitute_eq_ok template, fun _ => substitute_eq_error, fun h => ?_⟩
  have hcopy : substitute binding template = .ok (copy template) :=
    substitute_of_not_holds template h
  exact ⟨hcopy, fun husual => hcopy.trans (congrArg Except.ok husual.copy_eq)⟩

section

open scoped SampleHost

/-- Openings without closing braces, and keys, hold no placeholder to be filled in. -/
theorem substitute_open_placeholder :
    let template := Value.array [some (.text (units "\x7d $\x7bitem")), none,
      some (.mapping [(units "$\x7bitem\x7d", .text (units "$\x7b"))])] {}
    (∀ t ∈ leaves template, ¬HoldsPlaceholder t) ∧ IsUsual template ∧
      substitute .null template = .ok template := by
  intro template
  have hleaves : ∀ t ∈ leaves template, ¬HoldsPlaceholder t := by
    simp only [template, leaves, leavesOfItems, leavesOfEntries]
    decide
  have husual : IsUsual template := by
    refine .array fun v hv => ?_
    simp only [List.mem_cons, Option.some.injEq, List.not_mem_nil, reduceCtorEq, or_false,
      false_or] at hv
    rcases hv with rfl | rfl
    · exact .text _
    · exact .mapping (List.forall_mem_singleton.2 (.text _))
  exact ⟨hleaves, husual,
    ((substitute_segmentwise .null template).2.2.2.2 hleaves).2 husual⟩

/-- Text that comes from the data is not scanned again. -/
example : substitute (.mapping [(units "item", .ofString "$\x7bitem\x7d")])
    (.ofString "$\x7bitem\x7d!") = .ok (.ofString "$\x7bitem\x7d!") := by
  rfl

end

end Template

end TreeExtraction
