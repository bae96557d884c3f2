import TreeExtraction.Proofs.Outcome
import TreeExtraction.Proofs.Text.Table
import TreeExtraction.Value.Access
import TreeExtraction.Value.Depth

/-! # Parts of values

The values that a value holds are less deep than itself. Whatever is asked of a value, a field, an
item or a key, the answer is held inside it or is bare: a scalar, or one of the empty objects that
others inherit from. So answers never get deeper. For a value that answers field requests through a
method this is a condition on the answers, `AnswersInside`.
-/

namespace TreeExtraction

/-- The values in a frame. -/
def Frame.parts {α : Type} (frame : Frame α) : List α :=
  (frame.fields ++ frame.inherited ++ frame.hidden).map (·.2)

namespace Value

variable {u v w : Value} {es : Entries} {name : Text} {n : Nat}

/-- The values that a value holds, the keys of a map among them. -/
def parts : Value → List Value
  | .array vs frame => present vs ++ frame.parts
  | .mapping es _ => es.map (·.2)
  | .map es frame => es.flatMap (fun e => [ofKey e.1, e.2]) ++ frame.parts
  | .set _ vs frame => vs ++ frame.parts
  | .date _ frame | .invalidDate _ frame | .object _ frame | .function _ _ frame => frame.parts
  | _ => []

theorem mem_present {α : Type} {items : List (Option α)} {a : α} :
    a ∈ present items ↔ some a ∈ items := by
  simp [present]

theorem mem_reading_of_mem_present {items : List (Option Value)} (h : v ∈ present items) :
    v ∈ reading items :=
  List.mem_map.2 ⟨some v, mem_present.1 h, rfl⟩

theorem present_map_some (vs : List Value) : present (vs.map some) = vs := by
  rw [present, List.filterMap_map]
  exact List.filterMap_some

theorem reading_map_some (vs : List Value) : reading (vs.map some) = vs := by
  rw [reading, List.map_map]
  exact List.map_id vs

theorem mem_parts_of_mem_members (h : (name, w) ∈ v.members) : w ∈ v.parts := by
  cases v with
  | mapping es => exact List.mem_map_of_mem h
  | array | map | set | date | invalidDate | object | function =>
    simp only [parts, Frame.parts, members, Frame.members, List.map_append, List.mem_append,
      List.mem_map] at h ⊢
    rcases h with h | h
    · first | exact .inl (.inl ⟨_, h, rfl⟩) | exact .inr (.inl (.inl ⟨_, h, rfl⟩))
    · first | exact .inl (.inr ⟨_, h, rfl⟩) | exact .inr (.inl (.inr ⟨_, h, rfl⟩))
  | _ => cases h

theorem method?_eq_none
    (h : ∀ f source frame, Table.get? v.members name ≠ some (.function f source frame)) :
    v.method? name = none := by
  rw [method?]
  split
  · next f source frame hf => exact absurd hf (h f source frame)
  · rfl

/-! ## Depth of parts -/

theorem depth_le_depthOfItems {items : List (Option Value)} (h : v ∈ present items) :
    v.depth ≤ depthOfItems items := by
  induction items with
  | nil => cases h
  | cons item items ih =>
    cases item with
    | none => exact ih h
    | some w =>
      rw [depthOfItems]
      rcases List.mem_cons.1 h with rfl | h
      · exact Nat.le_max_left _ _
      · exact Nat.le_trans (ih h) (Nat.le_max_right _ _)

theorem depth_le_depthOfMembers {vs : List Value} (h : v ∈ vs) : v.depth ≤ depthOfMembers vs := by
  induction vs with
  | nil => cases h
  | cons w vs ih =>
    rw [depthOfMembers]
    rcases List.mem_cons.1 h with rfl | h
    · exact Nat.le_max_left _ _
    · exact Nat.le_trans (ih h) (Nat.le_max_right _ _)

theorem depth_le_depthOfEntries (h : w ∈ es.map (·.2)) : w.depth ≤ depthOfEntries es := by
  induction es with
  | nil => cases h
  | cons e es ih =>
    rw [depthOfEntries]
    rcases List.mem_cons.1 h with rfl | h
    · exact Nat.le_max_left _ _
    · exact Nat.le_trans (ih h) (Nat.le_max_right _ _)

theorem depth_le_depthOfKeyed {es : List (Key Value × Value)}
    (h : w ∈ es.flatMap fun e => [ofKey e.1, e.2]) : w.depth ≤ depthOfKeyed es := by
  induction es with
  | nil => cases h
  | cons e es ih =>
    have hcons : depthOfKeyed (e :: es) =
        max (max (ofKey e.1).depth e.2.depth) (depthOfKeyed es) := by
      rcases e with ⟨k, v⟩
      cases k <;> simp [depthOfKeyed, ofKey, depth]
    rw [hcons]
    rcases List.mem_append.1 h with h | h
    · refine Nat.le_trans ?_ (Nat.le_max_left _ _)
      rcases List.mem_cons.1 h with rfl | h
      · exact Nat.le_max_left _ _
      · obtain rfl := List.mem_singleton.1 h
        exact Nat.le_max_right _ _
    · exact Nat.le_trans (ih h) (Nat.le_max_right _ _)

theorem depth_lt_depthOfFrame {frame : Frame Value} (h : w ∈ frame.parts) :
    w.depth < depthOfFrame frame := by
  rcases frame with ⟨c, fields, inherited, hidden⟩
  have hpart : w.depth ≤
      max (depthOfEntries fields) (max (depthOfEntries inherited) (depthOfEntries hidden)) := by
    simp only [Frame.parts, List.map_append, List.mem_append] at h
    rcases h with (h | h) | h
    · exact Nat.le_trans (depth_le_depthOfEntries h) (by omega)
    · exact Nat.le_trans (depth_le_depthOfEntries h) (by omega)
    · exact Nat.le_trans (depth_le_depthOfEntries h) (by omega)
  rw [depthOfFrame.eq_def]
  split
  · next hframe =>
    cases hframe
    cases h
  · next hframe =>
    cases hframe
    exact Nat.lt_succ_of_le hpart

/-- What a value holds is less deep than the value. -/
theorem depth_lt_of_mem_parts (h : w ∈ v.parts) : w.depth < v.depth := by
  have hframe {frame : Frame Value} (h : w ∈ frame.parts) : w.depth < depthOfFrame frame :=
    depth_lt_depthOfFrame h
  cases v with
  | mapping es => exact Nat.lt_succ_of_le (depth_le_depthOfEntries h)
  | array vs frame =>
    rw [depth]
    rcases List.mem_append.1 h with h | h
    · have := depth_le_depthOfItems h
      omega
    · have := hframe h
      omega
  | map es frame =>
    rw [depth]
    rcases List.mem_append.1 h with h | h
    · have := depth_le_depthOfKeyed h
      omega
    · have := hframe h
      omega
  | set i vs frame =>
    rw [depth]
    rcases List.mem_append.1 h with h | h
    · have := depth_le_depthOfMembers h
      omega
    · have := hframe h
      omega
  | date | invalidDate | object | function => exact hframe h
  | _ => cases h

/-- Whether a value holds another one, directly or inside its parts. -/
inductive Holds (v : Value) : Value → Prop where
  | part {w : Value} (h : w ∈ v.parts) : Holds v w
  | within {u w : Value} (hu : Holds v u) (h : w ∈ u.parts) : Holds v w

theorem Holds.depth_lt (h : v.Holds w) : w.depth < v.depth := by
  induction h with
  | part h => exact depth_lt_of_mem_parts h
  | within _ h ih => exact Nat.lt_trans (depth_lt_of_mem_parts h) ih

/-! ## What holds inside a value -/

/-- Whether a property holds of a value and of everything inside it, where only the parts that are
listed count. -/
inductive Throughout (listed : Value → List Value) (P : Value → Prop) : Value → Prop where
  | intro {v : Value} (here : P v) (inside : ∀ w ∈ listed v, Throughout listed P w) :
    Throughout listed P v

namespace Throughout

variable {listed : Value → List Value} {P : Value → Prop}

theorem here (h : v.Throughout listed P) : P v := by
  cases h
  assumption

theorem inside (h : v.Throughout listed P) (hw : w ∈ listed v) : w.Throughout listed P := by
  cases h with
  | intro _ hparts => exact hparts w hw

theorem holds (h : v.Throughout parts P) (hw : v.Holds w) : w.Throughout parts P := by
  induction hw with
  | part hw => exact h.inside hw
  | within _ hw ih => exact ih.inside hw

theorem imp {Q : Value → Prop} (h : v.Throughout listed P)
    (hPQ : ∀ w, w.Throughout listed P → Q w) : v.Throughout listed Q := by
  induction h with
  | intro here inside ih => exact .intro (hPQ _ (.intro here inside)) ih

end Throughout

variable {P : Value → Prop}

/-! ## Answers -/

/-- Whether a value is a scalar or one of the empty objects that others inherit from. -/
inductive IsBare : Value → Prop where
  | scalar {v : Value} (h : v.isScalar = true) : IsBare v
  | mapping (ancestry : Ancestry) : IsBare (.mapping [] ancestry)
  | arrayParent : IsBare arrayParent

theorem IsBare.part (hv : v.IsBare) (h : w ∈ v.parts) : w.IsBare := by
  cases hv with
  | scalar hv => cases v <;> first | cases h | cases hv
  | mapping => cases h
  | arrayParent =>
    obtain rfl := List.mem_singleton.1 h
    exact .mapping .root

theorem IsBare.holds (hv : v.IsBare) (h : v.Holds w) : w.IsBare := by
  induction h with
  | part h => exact hv.part h
  | within _ h ih => exact ih.part h

theorem IsBare.method?_eq_none (hv : v.IsBare) : v.method? capabilityName = none := by
  cases hv with
  | scalar hv => cases v <;> first | rfl | cases hv
  | mapping => rfl
  | arrayParent => decide

/-- The one bare value that is held in another one is the root of all objects. -/
theorem IsBare.throughout (hv : v.IsBare) (here : P v) (hroot : P (.mapping [] .root)) :
    v.Throughout parts P := by
  refine .intro here fun w hw => ?_
  cases hv with
  | scalar hv => cases v <;> first | cases hw | cases hv
  | mapping => cases hw
  | arrayParent =>
    obtain rfl := List.mem_singleton.1 hw
    exact .intro hroot nofun

/-- Whether a value is what all sets or what all dates inherit from. -/
def isKindParent : Value → Bool
  | .mapping _ .parentOfSets | .mapping _ .parentOfDates => true
  | _ => false

def isSetOrDate : Value → Bool
  | .set .. | .date .. | .invalidDate .. => true
  | _ => false

/-- Whether a value is held inside another one or bare. What sets and dates inherit from is found in
them only. -/
def IsFoundIn (v w : Value) : Prop :=
  v.Holds w ∨ w.IsBare ∧ (w.isKindParent = true → v.isSetOrDate = true)

theorem isFoundIn_of_isScalar (h : w.isScalar = true) : v.IsFoundIn w := by
  refine .inr ⟨.scalar h, fun hparent => ?_⟩
  cases w <;> first | cases hparent | cases h

theorem isFoundIn_null : v.IsFoundIn .null :=
  isFoundIn_of_isScalar rfl

theorem IsFoundIn.orNull (h : v.IsFoundIn w) : v.IsFoundIn w.orNull := by
  cases w <;> first | exact h | exact isFoundIn_null

theorem IsFoundIn.dataOnly (h : v.IsFoundIn w) : v.IsFoundIn w.dataOnly := by
  cases w <;> first | exact h | exact isFoundIn_null

theorem isFoundIn_getD {o : Option Value} (h : ∀ u, o = some u → v.IsFoundIn u) :
    v.IsFoundIn (o.getD .null) := by
  cases o with
  | none => exact isFoundIn_null
  | some u => exact h u rfl

/-- A property of bare values holds throughout all answers if it does throughout the value that is
asked. -/
theorem Throughout.answer (hbare : ∀ u : Value, u.IsBare → P u) (hv : v.Throughout parts P)
    (h : v.IsFoundIn w) : w.Throughout parts P :=
  h.elim hv.holds fun hw => hw.1.throughout (hbare w hw.1) (hbare _ (.mapping .root))

theorem isFoundIn_common (h : v.common? name = some w) : v.IsFoundIn w := by
  cases v with
  | array items frame =>
    rw [common?] at h
    split at h
    · cases h
      exact isFoundIn_of_isScalar rfl
    · split at h
      · cases h
        exact .inr ⟨.arrayParent, nofun⟩
      · obtain ⟨p, -, hp⟩ := Option.bind_eq_some_iff.1 h
        have hitem : some w ∈ items := by
          rw [List.getD_eq_getElem?_getD] at hp
          cases hget : items[p]? with
          | none =>
            rw [hget] at hp
            cases hp
          | some item =>
            rw [hget] at hp
            obtain rfl : item = some w := hp
            exact List.mem_of_getElem? hget
        exact .inl (.part (List.mem_append_left _ (mem_present.2 hitem)))
  | set i items frame =>
    rw [common?] at h
    split at h
    · cases h
      exact isFoundIn_of_isScalar rfl
    · split at h
      · cases h
        exact .inr ⟨.mapping .parentOfSets, fun _ => rfl⟩
      · cases h
  | date | invalidDate =>
    rw [common?] at h
    split at h
    · cases h
      exact .inr ⟨.mapping .parentOfDates, fun _ => rfl⟩
    · cases h
  | mapping | object =>
    rw [common?] at h
    split at h
    · cases h
      exact .inr ⟨.mapping _, nofun⟩
    · cases h
  | _ => cases h

theorem isFoundIn_property (v : Value) (name : Text) : v.IsFoundIn (v.property name) := by
  refine (isFoundIn_getD fun u hu => ?_).dataOnly
  rcases Option.or_eq_some_iff.1 hu with hu | ⟨-, hu⟩
  · exact .inl (.part (mem_parts_of_mem_members (Table.mem_of_get? hu)))
  · exact isFoundIn_common hu

theorem property_of_readProperty (h : v.readProperty name = .ok w) : v.property name = w := by
  rw [readProperty] at h
  split at h <;> cases h
  rfl

theorem isFoundIn_readProperty (h : v.readProperty name = .ok w) : v.IsFoundIn w :=
  property_of_readProperty h ▸ isFoundIn_property v name

theorem isFoundIn_atKey (es : List (Key Value × Value)) (frame : Frame Value) (k : Key Value) :
    (Value.map es frame).IsFoundIn ((atKey? es k).getD .null) := by
  refine isFoundIn_getD fun u h => ?_
  rcases Option.map_eq_some_iff.1 h with ⟨e, he, rfl⟩
  have hpart : e.2 ∈ es.flatMap fun e => [ofKey e.1, e.2] :=
    List.mem_flatMap.2 ⟨e, List.mem_of_find?_eq_some he, by simp⟩
  exact .inl (.part (List.mem_append_left _ hpart))

theorem isFoundIn_itemAt (items : List (Option Value)) (frame : Frame Value) (k : Number) :
    (Value.array items frame).IsFoundIn ((itemAt items k).join.getD .null) := by
  refine isFoundIn_getD fun u h => ?_
  have hitem : some u ∈ items := by
    rw [itemAt] at h
    split at h
    · split at h
      · exact List.mem_of_getElem? (Option.join_eq_some_iff.1 h)
      · cases h
    · cases h
  exact .inl (.part (List.mem_append_left _ (mem_present.2 hitem)))

/-- An item is found in its list. -/
theorem isFoundIn_getIndex (v : Value) (k : Number) : v.IsFoundIn (v.getIndex k) := by
  cases v with
  | text t =>
    rw [getIndex]
    cases itemAt t k <;> exact isFoundIn_of_isScalar rfl
  | array items frame => exact (isFoundIn_itemAt items frame k).orNull
  | map es frame => exact (isFoundIn_atKey es frame _).orNull
  | _ => exact isFoundIn_null

theorem isFoundIn_ownField (h : v.ownField name = .ok w) : v.IsFoundIn w := by
  cases v with
  | mapping es ancestry =>
    rw [ownField] at h
    split at h <;> cases h
    refine IsFoundIn.dataOnly ?_
    rw [Entries.get]
    cases hget : Table.get? es name with
    | none => exact isFoundIn_of_isScalar rfl
    | some u => exact .inl (.part (List.mem_map_of_mem (Table.mem_of_get? hget)))
  | map es frame =>
    cases h
    exact (isFoundIn_atKey es frame _).dataOnly
  | array | set | date | invalidDate | object | function => exact isFoundIn_readProperty h
  | _ =>
    cases h
    exact isFoundIn_null

/-! ## Own fields -/

theorem depth_dataOnly_le (v : Value) : v.dataOnly.depth ≤ v.depth := by
  cases v <;> simp [dataOnly, orNull, depth]

theorem depth_of_isScalar (h : v.isScalar = true) : v.depth = 0 := by
  cases v <;> first | rfl | cases h

theorem mem_members_of_mem_listedNames (h : name ∈ v.listedNames) :
    name ∈ Table.keys v.members := by
  cases v with
  | mapping es => exact h
  | set | date | invalidDate | object =>
    rw [members, Frame.members, Table.keys_append]
    exact List.mem_append_left _ (List.mem_of_mem_filter h)
  | _ => cases h

/-- A field that a scan lists is an own one, so nothing common to all objects is found there. -/
theorem depth_lt_of_ownField (hname : name ∈ v.listedNames) (h : v.ownField name = .ok w) :
    w.depth < v.depth := by
  obtain ⟨u, hu⟩ := Option.isSome_iff_exists.1
    (Table.has_iff.2 (mem_members_of_mem_listedNames hname))
  have hlt : u.dataOnly.depth < v.depth := Nat.lt_of_le_of_lt (depth_dataOnly_le u)
    (depth_lt_of_mem_parts (mem_parts_of_mem_members (Table.mem_of_get? hu)))
  cases v with
  | mapping es ancestry =>
    rw [ownField] at h
    split at h <;> cases h
    rwa [Entries.get, show Table.get? es name = some u from hu]
  | set | date | invalidDate | object =>
    obtain rfl := property_of_readProperty h
    rwa [property, hu]
  | _ => cases hname

/-! ## Fields -/

section

variable [PureHost]

/-- Whether a value that answers field requests through a method answers with what it holds, or
with scalars. -/
def AnswersInside (v : Value) : Prop :=
  ∀ f name w, v.method? capabilityName = some f → ask f v name = .ok w →
    v.Holds w ∨ w.isScalar = true

theorem AnswersInside.isFoundIn {f : Nat} (hv : v.AnswersInside)
    (hf : v.method? capabilityName = some f) (h : ask f v name = .ok w) : v.IsFoundIn w :=
  (hv f name w hf h).elim .inl isFoundIn_of_isScalar

theorem answersInside_of_method (h : v.method? capabilityName = none) : v.AnswersInside :=
  fun _ _ _ hf => nomatch h.symm.trans hf

theorem IsBare.answersInside (hv : v.IsBare) : v.AnswersInside :=
  answersInside_of_method hv.method?_eq_none

/-- A field is found in its object. -/
theorem isFoundIn_getField (hv : v.AnswersInside) (h : v.getField name = .ok w) :
    v.IsFoundIn w := by
  rw [getField] at h
  split at h
  · next f hf =>
    obtain ⟨u, hu, rfl⟩ := Outcome.map_eq_ok.1 h
    exact (hv.isFoundIn hf hu).dataOnly
  · exact isFoundIn_ownField h

/-- The value of a key is found in its object. -/
theorem isFoundIn_getKey {k : Text} (hv : v.AnswersInside) (h : v.getKey k = .ok w) :
    v.IsFoundIn w := by
  cases v with
  | map es frame =>
    cases h
    exact (isFoundIn_atKey es frame _).orNull
  | undefined | null | text | array =>
    cases h
    exact isFoundIn_null
  | bool | number | bigint | symbol | function => cases h
  | mapping | set | date | invalidDate | object =>
    simp only [getKey] at h
    split at h
    · next f hf =>
      obtain ⟨u, hu, rfl⟩ := Outcome.map_eq_ok.1 h
      exact (hv.isFoundIn hf hu).orNull
    · exact isFoundIn_readProperty h

theorem depth_lt_of_listedNames (hv : v.AnswersInside) (hname : name ∈ v.listedNames)
    (h : v.getField name = .ok w) : w.depth < v.depth := by
  rw [getField] at h
  split at h
  · next f hf =>
    obtain ⟨u, hu, rfl⟩ := Outcome.map_eq_ok.1 h
    refine Nat.lt_of_le_of_lt (depth_dataOnly_le u) ?_
    rcases hv f name u hf hu with hheld | hscalar
    · exact hheld.depth_lt
    · rw [depth_of_isScalar hscalar]
      obtain ⟨m, hm⟩ := Option.isSome_iff_exists.1
        (Table.has_iff.2 (mem_members_of_mem_listedNames hname))
      exact Nat.zero_lt_of_lt
        (depth_lt_of_mem_parts (mem_parts_of_mem_members (Table.mem_of_get? hm)))
  · exact depth_lt_of_ownField hname h

/-- What a scan lists is found in what is scanned, and it is less deep. -/
theorem of_mem_listFields (hv : v.AnswersInside) {fields : List (Text × Value)}
    {e : Text × Value} (h : v.listFields = .ok fields) (he : e ∈ fields) :
    v.IsFoundIn e.2 ∧ e.2.depth < v.depth := by
  have hlisted (h : (v.listedNames.mapM fun name => do return (name, ← v.getField name)) =
      Except.ok fields) : v.IsFoundIn e.2 ∧ e.2.depth < v.depth := by
    obtain ⟨name, hname, hfield⟩ := Outcome.exists_of_mem_mapM h he
    obtain ⟨w, hw, heq⟩ := Outcome.bind_eq_ok.1 hfield
    cases heq
    exact ⟨isFoundIn_getField hv hw, depth_lt_of_listedNames hv hname hw⟩
  cases v with
  | map es frame =>
    cases h
    obtain ⟨⟨k, w⟩, hmem, hkey⟩ := List.mem_filterMap.1 he
    have hpart : w ∈ (Value.map es frame).parts :=
      List.mem_append_left _ (List.mem_flatMap.2 ⟨_, hmem, by simp⟩)
    cases k <;> cases hkey
    exact ⟨.inl (.part hpart), depth_lt_of_mem_parts hpart⟩
  | _ => exact hlisted h

end

end Value

end TreeExtraction
