import TreeExtraction.Proofs.Value.Parts
import TreeExtraction.Transform.Application

/-! # Transforms do not add depth

The built-in transforms give items and parts of what they are given, texts and numbers. First and
last take an item out, flattening puts deeper items in the place of the arrays that hold them, and
the transforms of texts keep the arrays that they find. So no item of the result is deeper than what
is transformed, and capabilities inside it are those that were there.
-/

namespace TreeExtraction

variable {v w : Value} {n : Nat} {items : List (Option Value)} {frame : Frame Value}

namespace Value

theorem textOrUndefined_ne_array (t : Option Text) : textOrUndefined t ≠ .array items frame := by
  cases t <;> nofun

/-! ## Bounds on values -/

variable [PureHost]

/-- Whether a value is less deep than a bound and everything inside it that answers field requests
answers with what it holds. -/
structure IsWithin (n : Nat) (v : Value) : Prop where
  depth_lt : v.depth < n
  answers : v.Throughout parts AnswersInside

/-- Whether a value is within a bound or bare. -/
def IsReached (n : Nat) (v : Value) : Prop :=
  v.IsWithin n ∨ v.IsBare

/-- Whether the items of a value, if it is an array, are within a bound. -/
def ListsWithin (n : Nat) (v : Value) : Prop :=
  ∀ items frame, v = .array items frame → ∀ c ∈ reading items, c.IsWithin n

theorem throughout_of_isScalar (h : v.isScalar = true) : v.Throughout parts AnswersInside :=
  (IsBare.scalar h).throughout (IsBare.scalar h).answersInside (IsBare.mapping .root).answersInside

theorem throughout_array
    (h : ∀ c ∈ present items, c.Throughout parts AnswersInside) :
    (Value.array items {}).Throughout parts AnswersInside := by
  refine .intro (answersInside_of_method rfl) fun c hc => ?_
  rcases List.mem_append.1 hc with hc | hc
  · exact h c hc
  · cases hc

theorem IsWithin.part (h : v.IsWithin n) (hw : w ∈ v.parts) : w.IsWithin n :=
  ⟨Nat.lt_trans (depth_lt_of_mem_parts hw) h.depth_lt, h.answers.inside hw⟩

theorem IsWithin.undefined (h : v.IsWithin n) : Value.undefined.IsWithin n :=
  ⟨Nat.zero_lt_of_lt h.depth_lt, throughout_of_isScalar rfl⟩

theorem IsReached.answers (h : v.IsReached n) : v.Throughout parts AnswersInside :=
  h.elim IsWithin.answers fun h => h.throughout h.answersInside (IsBare.mapping .root).answersInside

theorem isReached_null : Value.null.IsReached n :=
  .inr (.scalar rfl)

theorem IsReached.orNull (h : v.IsReached n) : v.orNull.IsReached n := by
  cases v <;> first | exact h | exact isReached_null

/-- What is found in a value whose capabilities answer with what they hold is less deep or bare. -/
theorem IsFoundIn.isReached (hv : v.Throughout parts AnswersInside) (h : v.IsFoundIn w) :
    w.IsReached v.depth :=
  h.imp (fun hw => ⟨hw.depth_lt, hv.holds hw⟩) And.left

theorem IsReached.answer (hv : v.IsReached n) (h : v.IsFoundIn w) : w.IsReached n := by
  rcases hv with hv | hv
  · rcases h.isReached hv.answers with hw | hw
    · exact .inl ⟨Nat.lt_trans hw.depth_lt hv.depth_lt, hw.answers⟩
    · exact .inr hw
  · exact .inr (h.elim hv.holds And.left)

theorem IsReached.reading (h : (Value.array items frame).IsReached n) :
    ∀ c ∈ Value.reading items, c.IsWithin n := by
  intro c hc
  rcases h with h | h
  · obtain ⟨item, hitem, rfl⟩ := List.mem_map.1 hc
    cases item with
    | none => exact h.undefined
    | some u => exact h.part (List.mem_append_left _ (mem_present.2 hitem))
  · cases h with
    | scalar h => cases h
    | arrayParent => cases hc

theorem IsReached.listsWithin (h : v.IsReached n) : v.ListsWithin n := by
  rintro items frame rfl
  exact h.reading

theorem listsWithin_of_ne (h : ∀ items frame, v ≠ .array items frame) : v.ListsWithin n :=
  fun items frame hv => absurd hv (h items frame)

theorem listsWithin_list {vs : List Value} (h : ∀ c ∈ vs, c.IsWithin n) :
    (Value.list vs).ListsWithin n := by
  rintro items frame hlist
  obtain ⟨rfl, -⟩ := Value.array.inj hlist
  rwa [reading_map_some]

end Value

open Value

/-! ## Texts of arrays -/

namespace TextTransform

mutual

/-- The transform of a text or an array is not deeper than it. -/
theorem depth_apply {f : TextTransform} {v w : Value} (h : f.apply v = .ok w) :
    w.depth ≤ v.depth := by
  cases v with
  | text t =>
    rw [apply] at h
    cases h
    exact Nat.le_refl _
  | array items frame =>
    rw [apply] at h
    obtain ⟨mapped, hmapped, h⟩ := Outcome.bind_eq_ok.1 h
    cases h
    have hle := depthOfItems_applyItems hmapped
    simp only [depth, depthOfFrame]
    omega
  | _ =>
    simp only [apply] at h
    cases h

theorem depthOfItems_applyItems {f : TextTransform} {items mapped : List (Option Value)}
    (h : f.applyItems items = .ok mapped) : depthOfItems mapped ≤ depthOfItems items := by
  match items with
  | [] =>
    rw [applyItems] at h
    cases h
    exact Nat.le_refl _
  | none :: items =>
    rw [applyItems] at h
    obtain ⟨rest, hrest, h⟩ := Outcome.bind_eq_ok.1 h
    cases h
    have hitems := depthOfItems_applyItems hrest
    rwa [depthOfItems, depthOfItems]
  | some v :: items =>
    rw [applyItems] at h
    split at h
    all_goals
      obtain ⟨first, hfirst, h⟩ := Outcome.bind_eq_ok.1 h
      obtain ⟨rest, hrest, h⟩ := Outcome.bind_eq_ok.1 h
      cases h
      have hitems := depthOfItems_applyItems hrest
    · cases hfirst
      simp only [depthOfItems, depth]
      omega
    · have hitem := depth_apply hfirst
      simp only [depthOfItems]
      omega

end

variable [PureHost]

mutual

/-- Texts, and arrays of texts, have no capabilities. -/
theorem throughout_apply {f : TextTransform} {v w : Value} (h : f.apply v = .ok w) :
    w.Throughout parts AnswersInside := by
  cases v with
  | text t =>
    rw [apply] at h
    cases h
    exact throughout_of_isScalar rfl
  | array items frame =>
    rw [apply] at h
    obtain ⟨mapped, hmapped, h⟩ := Outcome.bind_eq_ok.1 h
    cases h
    exact throughout_array (throughout_applyItems hmapped)
  | _ =>
    simp only [apply] at h
    cases h

theorem throughout_applyItems {f : TextTransform} {items mapped : List (Option Value)}
    (h : f.applyItems items = .ok mapped) :
    ∀ c ∈ present mapped, c.Throughout parts AnswersInside := by
  match items with
  | [] =>
    rw [applyItems] at h
    cases h
    exact nofun
  | none :: items =>
    rw [applyItems] at h
    obtain ⟨rest, hrest, h⟩ := Outcome.bind_eq_ok.1 h
    cases h
    have hitems := throughout_applyItems hrest
    exact hitems
  | some v :: items =>
    rw [applyItems] at h
    split at h
    all_goals
      obtain ⟨first, hfirst, h⟩ := Outcome.bind_eq_ok.1 h
      obtain ⟨rest, hrest, h⟩ := Outcome.bind_eq_ok.1 h
      cases h
      have hitems := throughout_applyItems hrest
    · cases hfirst
      exact List.forall_mem_cons.2 ⟨throughout_of_isScalar rfl, hitems⟩
    · exact List.forall_mem_cons.2 ⟨throughout_apply hfirst, hitems⟩

end

theorem listsWithin_apply {f : TextTransform} (hv : v.IsReached n) (h : f.apply v = .ok w) :
    w.ListsWithin n := by
  rcases hv with hv | hv
  · have hw : w.IsWithin n :=
      ⟨Nat.lt_of_le_of_lt (depth_apply h) hv.depth_lt, throughout_apply h⟩
    exact IsReached.listsWithin (.inl hw)
  · cases hv with
    | scalar hv =>
      cases v with
      | text t =>
        rw [apply] at h
        cases h
        exact listsWithin_of_ne nofun
      | _ =>
        simp only [apply] at h
        first | cases h | cases hv
    | mapping =>
      rw [apply] at h
      · cases h
      · nofun
      · nofun
    | arrayParent =>
      rw [arrayParent, apply, applyItems] at h
      cases h
      have hnil : (Value.list []).ListsWithin n := listsWithin_list nofun
      exact hnil

end TextTransform

variable [PureHost]

/-! ## Sequences -/

namespace Collection

/-- The items of a sequence that is within a bound are so too. An entry of a map is an item just as
deep as the map. -/
theorem isWithin_of_mem_items {vs : List Value} (hv : v.IsReached n) (h : items? v = some vs)
    (hw : w ∈ vs) : w.IsWithin n := by
  cases v with
  | array items frame =>
    cases h
    exact hv.reading w hw
  | set i members frame =>
    cases h
    rcases hv with hv | hv
    · exact hv.part (List.mem_append_left _ hw)
    · cases hv with
      | scalar hv => cases hv
  | map es frame =>
    cases h
    rcases hv with hv | hv
    · obtain ⟨e, he, rfl⟩ := List.mem_map.1 hw
      have hmem {u : Value} (hu : u ∈ [Value.ofKey e.1, e.2]) : u ∈ (Value.map es frame).parts :=
        List.mem_append_left _ (List.mem_flatMap.2 ⟨e, he, hu⟩)
      have hkey := hmem List.mem_cons_self
      have hvalue := hmem (List.mem_cons_of_mem _ List.mem_cons_self)
      -- The entry is one deeper than its key and value, which are less deep than the map.
      have hkeydepth := depth_lt_of_mem_parts hkey
      have hvaluedepth := depth_lt_of_mem_parts hvalue
      have hmapdepth := hv.depth_lt
      refine ⟨?_, throughout_array ?_⟩
      · simp only [Value.list, depth, depthOfItems, depthOfFrame, List.map_cons, List.map_nil]
          at hkeydepth hvaluedepth hmapdepth ⊢
        omega
      · intro c hc
        rcases List.mem_cons.1 hc with rfl | hc
        · exact hv.answers.inside hkey
        · obtain rfl := List.mem_singleton.1 hc
          exact hv.answers.inside hvalue
    · cases hv with
      | scalar hv => cases hv
  | _ => cases h

theorem isReached_text (t : Option Text) : ((t.map Value.text).getD .null).IsReached n := by
  cases t <;> exact .inr (.scalar rfl)

theorem isReached_item {vs : List Value} {o : Option Value} (hv : v.IsReached n)
    (h : items? v = some vs) (ho : ∀ u, o = some u → u ∈ vs) : (o.getD .null).IsReached n := by
  cases o with
  | none => exact isReached_null
  | some u => exact .inl (isWithin_of_mem_items hv h (ho u rfl))

theorem isReached_first (hv : v.IsReached n) (h : first v = .ok w) : w.IsReached n := by
  rw [first.eq_def] at h
  split at h
  · cases h
    exact isReached_text _
  · cases h
    exact isReached_item hv rfl fun _ => List.mem_of_head?
  · obtain ⟨vs, hvs, h⟩ := Outcome.bind_eq_ok.1 h
    cases h
    exact (isReached_item hv (sequence_eq_ok.1 hvs) fun _ => List.mem_of_head?).orNull

theorem isReached_last (hv : v.IsReached n) (h : last v = .ok w) : w.IsReached n := by
  rw [last.eq_def] at h
  split at h
  · cases h
    exact isReached_text _
  · cases h
    exact isReached_item hv rfl fun _ => List.mem_of_getLast?
  · obtain ⟨vs, hvs, h⟩ := Outcome.bind_eq_ok.1 h
    cases h
    exact (isReached_item hv (sequence_eq_ok.1 hvs) fun _ => List.mem_of_getLast?).orNull

mutual

/-- What is spliced in comes from inside the item, or is read at an empty place of an array. -/
theorem isWithin_of_mem_splice {depth : Option Nat} {v w : Value} (hv : v.IsWithin n)
    (h : w ∈ splice depth v) : w.IsWithin n := by
  cases v with
  | array items frame =>
    have hitems {limit : Option Nat} (h : w ∈ splicePresent limit items) : w.IsWithin n :=
      isWithin_of_mem_splicePresent
        (fun u hu => hv.part (List.mem_append_left _ (mem_present.2 hu))) h
    match depth with
    | none =>
      rw [splice] at h
      exact hitems h
    | some 0 =>
      rw [splice, List.mem_singleton] at h
      rwa [h]
    | some 1 =>
      rw [splice] at h
      exact IsReached.reading (.inl hv) w h
    | some (k + 2) =>
      rw [splice] at h
      exact hitems h
  | _ =>
    simp only [splice, List.mem_singleton] at h
    rwa [h]

theorem isWithin_of_mem_splicePresent {depth : Option Nat} {items : List (Option Value)}
    {w : Value} (hitems : ∀ v, some v ∈ items → v.IsWithin n)
    (h : w ∈ splicePresent depth items) : w.IsWithin n := by
  match items with
  | [] => cases h
  | none :: items =>
    exact isWithin_of_mem_splicePresent (fun v hv => hitems v (List.mem_cons_of_mem _ hv)) h
  | some v :: items =>
    rcases List.mem_append.1 h with h | h
    · exact isWithin_of_mem_splice (hitems v List.mem_cons_self) h
    · exact isWithin_of_mem_splicePresent (fun v hv => hitems v (List.mem_cons_of_mem _ hv)) h

end

theorem isWithin_of_mem_flatten {depth : Number} {vs : List Value} (hv : v.IsReached n)
    (h : flatten v depth = .ok vs) (hw : w ∈ vs) : w.IsWithin n := by
  obtain ⟨items, hitems, h⟩ := Outcome.bind_eq_ok.1 h
  cases h
  obtain ⟨u, hu, hw⟩ := List.mem_flatMap.1 hw
  exact isWithin_of_mem_splice (isWithin_of_mem_items hv (sequence_eq_ok.1 hitems) hu) hw

end Collection

/-! ## All transforms -/

theorem Conversion.toFloat_ne_array (h : toFloat v = .ok w) : w ≠ .array items frame := by
  have hfailed : failed "float" "number-like" v ≠ .ok w := by
    rw [failed, Ne, Outcome.bind_eq_ok]
    rintro ⟨t, -, h⟩
    cases h
  rw [toFloat.eq_def] at h
  split at h
  · cases h
    simp
  · cases h
    simp
  · split at h
    · cases h
      simp
    · split at h
      · next found hfound =>
        cases h
        rw [lookUp] at hfound
        split at hfound
        · cases hfound
          simp
        · next i _ =>
          cases hfound
          cases i <;> simp [Inherited.value]
        · cases hfound
      · exact absurd h hfailed
  · exact absurd h hfailed

/-- The items of what a built-in transform yields are within every bound on its input. -/
theorem BuiltinTransform.listsWithin_run {b : BuiltinTransform} (hv : v.IsReached n)
    (h : b.run v = .ok w) : w.ListsWithin n := by
  cases b with
  | upper | lower | capitalize | strip => exact TextTransform.listsWithin_apply hv h
  | first => exact (Collection.isReached_first hv h).listsWithin
  | last => exact (Collection.isReached_last hv h).listsWithin
  | flatten depth =>
    obtain ⟨vs, hvs, rfl⟩ := Outcome.map_eq_ok.1 h
    exact listsWithin_list fun c hc => Collection.isWithin_of_mem_flatten hv hvs hc
  | float => exact listsWithin_of_ne fun _ _ => Conversion.toFloat_ne_array h
  | truncate | join | int =>
    obtain ⟨x, -, rfl⟩ := Outcome.map_eq_ok.1 h
    exact listsWithin_of_ne nofun
  | str =>
    obtain ⟨x, -, rfl⟩ := Outcome.map_eq_ok.1 h
    exact listsWithin_of_ne fun _ _ => textOrUndefined_ne_array x
  | abs | round | length =>
    obtain ⟨x, -, h⟩ := Outcome.bind_eq_ok.1 h
    cases h
    exact listsWithin_of_ne nofun
  | format t =>
    rw [run.eq_def] at h
    dsimp only at h
    split at h
    · cases h
    · obtain ⟨x, -, rfl⟩ := Outcome.map_eq_ok.1 h
      exact listsWithin_of_ne fun _ _ => textOrUndefined_ne_array x

end TreeExtraction
