import TreeExtraction.Proofs.Number.Whole
import TreeExtraction.Proofs.Outcome
import TreeExtraction.Proofs.Value.Parts
import TreeExtraction.Transform.Collection

/-! # Laws of flattening

Flattening twice is flattening once by both depths together. Flattening all the way down leaves no
array among the items, and a depth that reaches the innermost arrays comes to the same. No depth
loses, repeats or moves what is not an array.

Empty places of nested arrays are the exception. An array at the depth itself is read item by item,
and its empty places become undefined; on the way down they are passed over. So flattening may gain
or lose undefined items there, but nothing else.
-/

namespace TreeExtraction

namespace Value

mutual

/-- What a value holds within nested arrays that is no array itself, from left to right; a value
other than an array is all that it holds. -/
def leaves : Value → List Value
  | .array vs _ => leavesOfItems vs
  | v => [v]

def leavesOfItems : List (Option Value) → List Value
  | [] => []
  | none :: vs => leavesOfItems vs
  | some v :: vs => leaves v ++ leavesOfItems vs

end

mutual

/-- How deep arrays are nested in a value, itself included. -/
def arrayDepth : Value → Nat
  | .array vs _ => arrayDepthOfItems vs + 1
  | _ => 0

def arrayDepthOfItems : List (Option Value) → Nat
  | [] => 0
  | none :: vs => arrayDepthOfItems vs
  | some v :: vs => max (arrayDepth v) (arrayDepthOfItems vs)

end

mutual

/-- Whether no nested array has an empty place. -/
def IsDense : Value → Prop
  | .array vs _ => AreDense vs
  | _ => True

def AreDense : List (Option Value) → Prop
  | [] => True
  | none :: _ => False
  | some v :: vs => IsDense v ∧ AreDense vs

end

/-- Whether a value is an array. -/
def IsArray (v : Value) : Prop :=
  ∃ vs frame, v = .array vs frame

def isUndefined : Value → Bool
  | .undefined => true
  | _ => false

end Value

namespace Collection

open Value

variable {vs : List Value} {items : List (Option Value)}

/-! ## Splicing -/

theorem splice_zero (v : Value) : splice (some 0) v = [v] := by
  cases v <;> simp [splice]

/-- Without empty places, an array is read as it is spliced. -/
theorem splice_succ (n : Nat) (frame : Frame Value) (h : AreDense items) :
    splice (some (n + 1)) (.array items frame) = splicePresent (some n) items := by
  cases n with
  | succ n => rw [splice]
  | zero =>
    rw [splice]
    induction items with
    | nil => rfl
    | cons item items ih =>
      cases item with
      | none => cases h
      | some v =>
        rw [splicePresent, splice_zero, ← ih h.2]
        rfl

mutual

theorem splice_splice (a b : Nat) (v : Value) (h : v.IsDense) :
    (splice (some a) v).flatMap (splice (some b)) = splice (some (a + b)) v := by
  cases v with
  | array items frame =>
    cases a with
    | zero => rw [splice_zero, Nat.zero_add, List.flatMap_singleton]
    | succ a =>
      rw [Nat.add_right_comm, splice_succ a frame h, splice_succ (a + b) frame h]
      exact splicePresent_splice a b items h
  | _ => simp [splice]

theorem splicePresent_splice (a b : Nat) (items : List (Option Value)) (h : AreDense items) :
    (splicePresent (some a) items).flatMap (splice (some b)) =
      splicePresent (some (a + b)) items := by
  match items with
  | [] => rfl
  | some v :: items =>
    rw [splicePresent, splicePresent, List.flatMap_append, splice_splice a b v h.1,
      splicePresent_splice a b items h.2]

end

theorem spliceAll_spliceAll (a b : Nat) (h : ∀ v ∈ vs, v.IsDense) :
    spliceAll (some b) (spliceAll (some a) vs) = spliceAll (some (a + b)) vs := by
  rw [spliceAll, spliceAll, spliceAll, List.flatMap_assoc]
  exact List.flatMap_congr fun v hv => splice_splice a b v (h v hv)

mutual

/-- All the way down, no array is left. -/
theorem not_isArray_of_mem_splice {v w : Value} (h : w ∈ splice none v) : ¬w.IsArray := by
  cases v with
  | array items frame =>
    rw [splice] at h
    exact not_isArray_of_mem_splicePresent h
  | _ =>
    simp only [splice, List.mem_singleton] at h
    rintro ⟨items, frame, hitems⟩
    rw [hitems] at h
    cases h

theorem not_isArray_of_mem_splicePresent {items : List (Option Value)} {w : Value}
    (h : w ∈ splicePresent none items) : ¬w.IsArray := by
  match items with
  | [] => cases h
  | none :: items =>
    have hrest : w ∈ splicePresent none items := h
    exact not_isArray_of_mem_splicePresent hrest
  | some v :: items =>
    rcases List.mem_append.1 h with h | h
    · exact not_isArray_of_mem_splice h
    · exact not_isArray_of_mem_splicePresent h

end

mutual

/-- A depth that reaches the innermost arrays reaches all the way down. -/
theorem splice_of_arrayDepth_le {n : Nat} {v : Value} (h : v.arrayDepth ≤ n) (hv : v.IsDense) :
    splice (some n) v = splice none v := by
  cases v with
  | array items frame =>
    cases n with
    | zero => cases h
    | succ n =>
      rw [splice_succ n frame hv, splice]
      exact splicePresent_of_arrayDepth_le (Nat.le_of_succ_le_succ h) hv
  | _ => simp [splice]

theorem splicePresent_of_arrayDepth_le {n : Nat} {items : List (Option Value)}
    (h : arrayDepthOfItems items ≤ n) (hitems : AreDense items) :
    splicePresent (some n) items = splicePresent none items := by
  match items with
  | [] => rfl
  | some v :: items =>
    obtain ⟨hv, hvs⟩ := Nat.max_le.1 h
    rw [splicePresent, splicePresent, splice_of_arrayDepth_le hv hitems.1,
      splicePresent_of_arrayDepth_le hvs hitems.2]

end

theorem spliceAll_of_arrayDepth_le {n : Nat} (h : ∀ v ∈ vs, v.arrayDepth ≤ n)
    (hdense : ∀ v ∈ vs, v.IsDense) : spliceAll (some n) vs = spliceAll none vs :=
  List.flatMap_congr fun v hv => splice_of_arrayDepth_le (h v hv) (hdense v hv)

/-! ## Leaves

A test `p` that undefined does not pass leaves the items that empty places may give out of account.
-/

variable {p : Value → Bool}

/-- Reading adds undefined items at empty places only. -/
theorem leaves_reading (h : p .undefined = false ∨ AreDense items) :
    ((reading items).flatMap leaves).filter p = (leavesOfItems items).filter p := by
  induction items with
  | nil => rfl
  | cons item items ih =>
    cases item with
    | none =>
      obtain h := h.resolve_right id
      rw [reading, List.map_cons, List.flatMap_cons, leavesOfItems, ← ih (.inl h)]
      simp [leaves, h, reading]
    | some v =>
      rw [leavesOfItems, List.filter_append, ← ih (h.imp_right And.right)]
      simp [reading]

mutual

theorem leaves_splice (depth : Option Nat) (v : Value) (h : p .undefined = false ∨ v.IsDense) :
    ((splice depth v).flatMap leaves).filter p = v.leaves.filter p := by
  cases v with
  | array items frame =>
    match depth with
    | none =>
      rw [splice]
      exact leaves_splicePresent none items h
    | some 0 => rw [splice_zero, List.flatMap_singleton]
    | some 1 =>
      rw [splice]
      exact leaves_reading h
    | some (n + 2) =>
      rw [splice]
      exact leaves_splicePresent (some (n + 1)) items h
  | _ => simp [splice]

/-- Splicing keeps what is no array, in order. -/
theorem leaves_splicePresent (depth : Option Nat) (items : List (Option Value))
    (h : p .undefined = false ∨ AreDense items) :
    ((splicePresent depth items).flatMap leaves).filter p = (leavesOfItems items).filter p := by
  match items with
  | [] => rfl
  | none :: items =>
    exact leaves_splicePresent depth items (.inl (h.resolve_right id))
  | some v :: items =>
    rw [splicePresent, List.flatMap_append, leavesOfItems, List.filter_append, List.filter_append,
      leaves_splice depth v (h.imp_right And.left),
      leaves_splicePresent depth items (h.imp_right And.right)]

end

theorem leaves_spliceAll (depth : Option Nat) (h : p .undefined = false ∨ ∀ v ∈ vs, v.IsDense) :
    ((spliceAll depth vs).flatMap leaves).filter p = (vs.flatMap leaves).filter p := by
  induction vs with
  | nil => rfl
  | cons v vs ih =>
    have hv : p .undefined = false ∨ v.IsDense := h.imp_right fun h => h v List.mem_cons_self
    have hvs : p .undefined = false ∨ ∀ v ∈ vs, v.IsDense :=
      h.imp_right fun h w hw => h w (List.mem_cons_of_mem v hw)
    rw [spliceAll, List.flatMap_cons, List.flatMap_append, List.filter_append,
      leaves_splice depth v hv, List.flatMap_cons, List.filter_append, ← ih hvs]
    rfl

/-! ## Depths -/

theorem depthOf_natCast {d : Number} {n : Nat} (h : d.toInt? = some (n : Int)) :
    depthOf d = some n := by
  rw [depthOf, h]
  simp

theorem depthOf_of_neg {d : Number} {i : Int} (h : d.toInt? = some i) (hi : i < 0) :
    depthOf d = none := by
  rw [depthOf, h]
  simp only
  rw [if_neg (by omega)]

theorem flatten_eq {v : Value} (hv : items? v = some vs) (d : Number) :
    flatten v d = .ok (spliceAll (depthOf d) vs) := by
  rw [flatten, sequence_eq_ok.2 hv]
  rfl

theorem items?_list (vs : List Value) : items? (.list vs) = some vs :=
  congrArg some (reading_map_some vs)

/-- The laws of flattening an array, set or map with given items. At a negative depth no array is
left among the items, and at every depth the leaves other than undefined are those of the items, in
their order. Where no array among the items has empty places, depths add up, a negative depth is
any depth that the arrays do not exceed, and the leaves are all leaves of the items. -/
theorem flatten_laws (v : Value) (vs : List Value) (hv : items? v = some vs) :
    (∀ (d : Number) (i : Int), d.toInt? = some i → i < 0 →
      ∃ ws, flatten v d = .ok ws ∧ ∀ w ∈ ws, ¬w.IsArray) ∧
    (∀ d : Number, ∃ ws, flatten v d = .ok ws ∧
      (ws.flatMap leaves).filter (!·.isUndefined) = (vs.flatMap leaves).filter (!·.isUndefined)) ∧
    ((∀ w ∈ vs, w.IsDense) →
      (∀ (c d e : Number) (a b : Nat), c.toInt? = some (a : Int) → d.toInt? = some (b : Int) →
        e.toInt? = some ((a + b : Nat) : Int) →
        ∃ ws us, flatten v c = .ok ws ∧ flatten (.list ws) d = .ok us ∧ flatten v e = .ok us) ∧
      (∀ (d e : Number) (i : Int) (n : Nat), d.toInt? = some i → i < 0 →
        e.toInt? = some (n : Int) → (∀ w ∈ vs, w.arrayDepth ≤ n) → flatten v d = flatten v e) ∧
      ∀ d : Number, ∃ ws, flatten v d = .ok ws ∧ ws.flatMap leaves = vs.flatMap leaves) := by
  refine ⟨?_, ?_, fun hdense => ⟨?_, ?_, ?_⟩⟩
  · intro d i hd hi
    refine ⟨_, flatten_eq hv d, ?_⟩
    rw [depthOf_of_neg hd hi]
    intro w hw
    obtain ⟨u, -, hw⟩ := List.mem_flatMap.1 hw
    exact not_isArray_of_mem_splice hw
  · intro d
    exact ⟨_, flatten_eq hv d, leaves_spliceAll _ (.inl rfl)⟩
  · intro c d e a b hc hd he
    refine ⟨_, _, flatten_eq hv c, flatten_eq (items?_list _) d, ?_⟩
    rw [flatten_eq hv, depthOf_natCast hc, depthOf_natCast hd, depthOf_natCast he,
      spliceAll_spliceAll a b hdense]
  · intro d e i n hd hi he hn
    rw [flatten_eq hv, flatten_eq hv, depthOf_of_neg hd hi, depthOf_natCast he,
      spliceAll_of_arrayDepth_le hn hdense]
  · intro d
    have hleaves := leaves_spliceAll (p := fun _ => true) (depthOf d) (.inr hdense)
    rw [List.filter_true, List.filter_true] at hleaves
    exact ⟨_, flatten_eq hv d, hleaves⟩

/-- A map, the entries of which are arrays themselves: its items are flattened by one and one more
level, by two at once, and all the way down, past an array that is empty. -/
theorem flatten_laws_map :
    let nested : Value := .list [.list [], .list [.bool true]]
    let key : Value := .text (units "k")
    let v : Value := .map [(.text (units "k"), nested)] {}
    items? v = some [.list [key, nested]] ∧ (∀ w ∈ [Value.list [key, nested]], w.IsDense) ∧
      (Number.ofRatio false 1 1).toInt? = some ((1 : Nat) : Int) ∧
      (Number.ofRatio false 2 1).toInt? = some ((1 + 1 : Nat) : Int) ∧
      (Number.ofRatio true 1 1).toInt? = some (-1) ∧
      (∃ ws us, flatten v (.ofRatio false 1 1) = .ok ws ∧
        flatten (.list ws) (.ofRatio false 1 1) = .ok us ∧
        flatten v (.ofRatio false 2 1) = .ok us ∧ us = [key, .list [], .list [.bool true]]) ∧
      ∃ ws, flatten v (.ofRatio true 1 1) = .ok ws ∧ (∀ w ∈ ws, ¬w.IsArray) ∧
        ws = [key, .bool true] := by
  intro nested key v
  have hone : (Number.ofRatio false 1 1).toInt? = some ((1 : Nat) : Int) :=
    Number.toInt?_ofRatio false (by decide)
  have htwo : (Number.ofRatio false 2 1).toInt? = some ((1 + 1 : Nat) : Int) :=
    Number.toInt?_ofRatio false (by decide)
  have hbelow : (Number.ofRatio true 1 1).toInt? = some (-1) :=
    Number.toInt?_ofRatio true (by decide)
  have hdense : ∀ w ∈ [Value.list [key, nested]], w.IsDense := by
    simp [Value.list, IsDense, AreDense, key, nested]
  have hlaws := flatten_laws v [.list [key, nested]] rfl
  obtain ⟨all, hall, hnone⟩ := hlaws.1 _ (-1) hbelow (by decide)
  obtain ⟨ws, us, hfirst, hsecond, htogether⟩ := (hlaws.2.2 hdense).1 _ _ _ 1 1 hone hone htwo
  have hus : us = [key, .list [], .list [.bool true]] := by
    rw [flatten_eq rfl, depthOf_natCast htwo] at htogether
    exact (Except.ok.inj htogether).symm
  have hdown : all = [key, .bool true] := by
    have hdeep := hall
    rw [flatten_eq rfl, depthOf_of_neg hbelow (by decide)] at hdeep
    exact (Except.ok.inj hdeep).symm
  exact ⟨rfl, hdense, hone, htwo, hbelow, ⟨ws, us, hfirst, hsecond, htogether, hus⟩, all, hall,
    hnone, hdown⟩

/-- A nested array with an empty place: flattened by one level twice it gives undefined there, by
two levels at once nothing. -/
theorem not_forall_flatten_flatten :
    ¬∀ (v : Value) (vs : List Value) (c d e : Number) (a b : Nat), items? v = some vs →
      c.toInt? = some (a : Int) → d.toInt? = some (b : Int) →
      e.toInt? = some ((a + b : Nat) : Int) →
      ∃ ws us, flatten v c = .ok ws ∧ flatten (.list ws) d = .ok us ∧ flatten v e = .ok us := by
  intro hall
  have hone : (Number.ofRatio false 1 1).toInt? = some ((1 : Nat) : Int) :=
    Number.toInt?_ofRatio false (by decide)
  have htwo : (Number.ofRatio false 2 1).toInt? = some ((1 + 1 : Nat) : Int) :=
    Number.toInt?_ofRatio false (by decide)
  let nested : Value := .array [none, some (.bool true)] {}
  obtain ⟨ws, us, hfirst, hsecond, htogether⟩ :=
    hall (.list [nested]) [nested] _ _ _ 1 1 rfl hone hone htwo
  rw [flatten_eq rfl, depthOf_natCast hone] at hfirst
  have hws : ws = [.undefined, .bool true] := (Except.ok.inj hfirst).symm
  rw [hws, flatten_eq rfl, depthOf_natCast hone] at hsecond
  rw [flatten_eq rfl, depthOf_natCast htwo] at htogether
  have htwice : us = [.undefined, .bool true] := (Except.ok.inj hsecond).symm
  have honce : us = [.bool true] := (Except.ok.inj htogether).symm
  rw [htwice] at honce
  cases honce

end Collection

end TreeExtraction
