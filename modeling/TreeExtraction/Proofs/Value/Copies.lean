import TreeExtraction.Proofs.Value.Equality

/-! # Copies

An object of a host is equal to itself alone, and so are functions. A copy of a value has other
objects in their places. Values that have no identity, because nothing that is compared in them is
an object of a host or a function, are equal to all their copies. With the laws of an equivalence,
of absent values, numbers, arrays and entries this makes up a structural equality. It leaves out two
things: what arrays with empty places are equal to, and the classes of dates, which are equal as
counts of milliseconds only.
-/

namespace TreeExtraction

/-- Whether a key is a key by its value. -/
def Key.isByValue {α : Type} : Key α → Bool
  | .reference .. => false
  | _ => true

namespace Value

variable {a b v : Value} {es fs : Entries} {ks ls : List (Key Value × Value)}
  {ancestry ancestry' : Ancestry} {frame frame' : Frame Value}

/-! ## Objects of a host -/

def identity? : Value → Option Nat
  | .set i .. | .invalidDate i _ | .object i _ | .function i .. => some i
  | _ => none

/-- Whether a value is an object of a host or a function. -/
def isOpaque (v : Value) : Bool :=
  v.identity?.isSome

/-- Whether two values can stand side by side in one host, where an identity is that of one
object. -/
def AreOfOneHost (a b : Value) : Prop :=
  ∀ i, a.identity? = some i → b.identity? = some i → a = b

theorem equal_opaque_iff (ha : a.isOpaque = true) (hhost : AreOfOneHost a b) :
    equal a b = true ↔ a = b := by
  constructor
  · intro h
    cases alike_of_equal h with
    | set i | invalidDate i | object i | function i => exact hhost i rfl rfl
    | absent hnull =>
      cases a with
      | undefined | null => cases ha
      | _ => cases hnull
    | _ => cases ha
  · rintro rfl
    apply equal_of_alike
    cases a with
    | set | invalidDate | object | function => constructor
    | _ => cases ha

theorem kind_of_isNull (h : v.isNull = true) : v.kind = units "null" := by
  cases v with
  | undefined | null => rfl
  | _ => cases h

def isDate : Value → Bool
  | .date .. => true
  | _ => false

/-- Equal values are of the same kind, unless they are dates of two classes. -/
theorem kind_of_equal (hhost : AreOfOneHost a b) (h : equal a b = true) :
    a.kind = b.kind ∨ a.isDate = true ∧ b.isDate = true := by
  cases alike_of_equal h with
  | set i | invalidDate i | object i => exact .inl (by rw [hhost i rfl rfl])
  | absent ha hb => exact .inl (by rw [kind_of_isNull ha, kind_of_isNull hb])
  | date => exact .inr ⟨rfl, rfl⟩
  | _ => exact .inl rfl

/-! ## Copies -/

mutual

/-- A copy of a value, in which the objects of the host have new identities. -/
def copy (f : Nat → Nat) : Value → Value
  | .array vs frame => .array (copyItems f vs) (copyFrame f frame)
  | .mapping es ancestry => .mapping (copyEntries f es) ancestry
  | .map ks frame => .map (copyKeyed f ks) (copyFrame f frame)
  | .set i vs frame => .set (f i) (copyMembers f vs) (copyFrame f frame)
  | .date n frame => .date n (copyFrame f frame)
  | .invalidDate i frame => .invalidDate (f i) (copyFrame f frame)
  | .object i frame => .object (f i) (copyFrame f frame)
  | .function i source frame => .function (f i) source (copyFrame f frame)
  | v => v

def copyItems (f : Nat → Nat) : List (Option Value) → List (Option Value)
  | [] => []
  | none :: vs => none :: copyItems f vs
  | some v :: vs => some (copy f v) :: copyItems f vs

def copyMembers (f : Nat → Nat) : List Value → List Value
  | [] => []
  | v :: vs => copy f v :: copyMembers f vs

def copyEntries (f : Nat → Nat) : List (Text × Value) → List (Text × Value)
  | [] => []
  | (k, v) :: es => (k, copy f v) :: copyEntries f es

def copyKeyed (f : Nat → Nat) : List (Key Value × Value) → List (Key Value × Value)
  | [] => []
  | (.reference i k, v) :: ks => (.reference (f i) (copy f k), copy f v) :: copyKeyed f ks
  | (k, v) :: ks => (k, copy f v) :: copyKeyed f ks

def copyFrame (f : Nat → Nat) : Frame Value → Frame Value
  | ⟨className, fields, inherited, hidden⟩ =>
    ⟨className, copyEntries f fields, copyEntries f inherited, copyEntries f hidden⟩

end

/-- Whether a value has no identity of its own: it is no object of a host and no function, and its
keys, if it is a map, are keys by their values. -/
def hasNoIdentity : Value → Bool
  | .map ks _ => ks.all (·.1.isByValue)
  | v => !v.isOpaque

/-- Whether nothing that is compared in a value has an identity. -/
def IsTransparent (v : Value) : Prop :=
  v.Throughout compared fun w => w.hasNoIdentity = true

theorem copyItems_eq_map (f : Nat → Nat) (vs : List (Option Value)) :
    copyItems f vs = vs.map (Option.map (copy f)) := by
  induction vs with
  | nil => rfl
  | cons item vs ih => cases item <;> simp [copyItems, ih]

theorem copyEntries_eq_mapValues (f : Nat → Nat) (es : Entries) :
    copyEntries f es = Table.mapValues (copy f) es := by
  induction es with
  | nil => rfl
  | cons e es ih => rw [copyEntries, ih, Table.mapValues, Table.mapValues, List.map_cons]

theorem copyKeyed_eq_map (f : Nat → Nat) (hkeys : ∀ e ∈ ks, e.1.isByValue = true) :
    copyKeyed f ks = ks.map fun e => (e.1, copy f e.2) := by
  induction ks with
  | nil => rfl
  | cons e ks ih =>
    have hrest := ih fun e' he => hkeys e' (List.mem_cons_of_mem _ he)
    have hkey : e.1.isByValue = true := hkeys e List.mem_cons_self
    rcases e with ⟨k, v⟩
    cases k with
    | reference => cases hkey
    | _ => simp [copyKeyed, hrest]

theorem atKey?_map_copy (f : Nat → Nat) (ks : List (Key Value × Value)) (k : Key Value) :
    atKey? (ks.map fun e => (e.1, copy f e.2)) k = (atKey? ks k).map (copy f) := by
  rw [atKey?, atKey?, List.find?_map, Option.map_map, Option.map_map]
  rfl

/-- Where nothing has an identity, a value is equal to its copies. -/
theorem equal_copy (f : Nat → Nat) (v : Value) (hv : v.isWellFormed = true)
    (h : v.IsTransparent) : equal v (v.copy f) = true := by
  induction v using induction_compared with
  | h v ih =>
    have hpart : ∀ w ∈ v.compared, equal w (w.copy f) = true := fun w hw =>
      ih w hw (isWellFormed_of_mem_compared hv hw) (h.inside hw)
    cases v with
    | array vs frame =>
      rw [copy, copyItems_eq_map]
      refine equal_of_alike (.array _ _ ?_)
      rw [List.forall₂_map_right_iff]
      refine List.forall₂_same.2 fun item hitem w hw => ?_
      obtain rfl : item = some w := hw
      exact hpart w (mem_compared_array hitem)
    | mapping es =>
      have hkeys : (Table.keys (Table.mapValues (copy f) es)).Nodup := by
        rw [Table.keys_mapValues]
        exact Entries.nodup_keys hv
      rw [copy, copyEntries_eq_mapValues]
      refine equal_of_alike (.mapping _ _ (List.length_map _).symm fun e he => ?_)
      have hcopy := (Table.get?_eq_some_iff hkeys).2 (List.mem_map_of_mem he)
      exact ⟨e.2.copy f, hcopy, hpart _ (mem_compared_mapping he)⟩
    | map ks =>
      rw [copy, copyKeyed_eq_map f (List.all_eq_true.1 h.here)]
      refine equal_of_alike (.map _ _ (List.length_map _).symm fun e he => ?_)
      refine ⟨e.2.copy f, ?_, hpart _ (mem_compared_map he)⟩
      rw [atKey?_map_copy, atKey?_of_mem (distinct_of_isWellFormed hv) he]
      rfl
    | set | invalidDate | object | function => cases h.here
    | date n frame => exact equal_of_alike (.date n _ _)
    | _ =>
      rw [copy]
      · exact equal_refl _ hv
      all_goals simp

/-! ## The laws -/

theorem forall₂_equal_self {κ : Type} (same : κ → κ → Prop) (hsame : ∀ k, same k k)
    {es : List (κ × Value)} (hes : ∀ e ∈ es, e.2.isWellFormed = true) :
    List.Forall₂ (fun e g => same e.1 g.1 ∧ equal e.2 g.2 = true) es es :=
  List.forall₂_same.2 fun e he => ⟨hsame e.1, equal_refl e.2 (hes e he)⟩

/-- A mapping is equal to every rearrangement of itself. -/
theorem equal_mapping_of_perm (hperm : es.Perm fs)
    (hes : (mapping es ancestry).isWellFormed = true) :
    equal (.mapping es ancestry) (.mapping fs ancestry') = true := by
  have hkeys : (Table.keys es).Nodup := Entries.nodup_keys hes
  refine (equal_mapping_iff hkeys ((hperm.map _).nodup_iff.1 hkeys)).2 ⟨es, hperm, ?_⟩
  exact forall₂_equal_self (· = ·) (fun _ => rfl) fun e => Entries.value_isWellFormed hes

/-- A map is equal to every rearrangement of itself. -/
theorem equal_map_of_perm (hperm : ks.Perm ls) (hks : (map ks frame).isWellFormed = true) :
    equal (.map ks frame) (.map ls frame') = true := by
  have hkeys := distinct_of_isWellFormed hks
  have hkeys' : ls.Pairwise fun a b => a.1.same b.1 = false :=
    (hperm.pairwise_iff fun {a b} h => ?_).1 hkeys
  · refine (equal_map_iff hkeys hkeys').2 ⟨ks, hperm, ?_⟩
    exact forall₂_equal_self (fun k l => k.same l = true) Key.same_refl fun e he =>
      isWellFormed_of_mem_compared hks (mem_compared_map he)
  · rw [← Bool.not_eq_true] at h ⊢
    exact fun hba => h (Key.same_symm hba)

/-- Whether a value is a truth value, a big integer or a text. -/
def isAtom : Value → Bool
  | .bool _ | .bigint _ | .text _ => true
  | _ => false

theorem equal_atom_iff (ha : a.isAtom = true) : equal a b = true ↔ a = b := by
  constructor
  · intro h
    cases alike_of_equal h with
    | absent hnull =>
      cases a with
      | undefined | null => cases ha
      | _ => cases hnull
    | bool | bigint | text => rfl
    | _ => cases ha
  · rintro rfl
    apply equal_of_alike
    cases a with
    | bool | bigint | text => constructor
    | _ => cases ha

/-- What makes a comparison of values a structural equality: it is an equivalence, it does not tell
copies apart, and it treats every kind of value by what is inside. -/
structure IsStructural (same : Value → Value → Bool) : Prop where
  symm (a b : Value) : a.isWellFormed = true → b.isWellFormed = true → a.IsFullyCompared →
    same a b = true → same b a = true
  trans (a b c : Value) : b.IsFullyCompared → same a b = true → same b c = true →
    same a c = true
  /-- Where nothing that is compared has an identity, copies are equal. -/
  copy (v : Value) (f : Nat → Nat) : v.isWellFormed = true → v.IsTransparent →
    same v (v.copy f) = true
  absent (a b : Value) : a.isNull = true → same a b = b.isNull
  atom (a b : Value) : a.isAtom = true → (same a b = true ↔ a = b)
  /-- Zeros of both signs are equal, and not-a-number equals itself. -/
  number (m n : Number) : same (.number m) (.number n) = true ↔
    m = n ∨ m.isZero = true ∧ n.isZero = true
  symbol (i j : Nat) (s t : Text) : same (.symbol i s) (.symbol j t) = true ↔ i = j
  date (m n : Int) (f g : Frame Value) : same (.date m f) (.date n g) = true ↔ m = n
  /-- Values of different kinds are not equal, but for dates of two classes. -/
  kind (a b : Value) : AreOfOneHost a b → same a b = true →
    a.kind = b.kind ∨ a.isDate = true ∧ b.isDate = true
  array (as bs : List Value) (f g : Frame Value) :
    same (.array (as.map some) f) (.array (bs.map some) g) = true ↔
      List.Forall₂ (fun a b => same a b = true) as bs
  mapping (es fs : Entries) (p q : Ancestry) : (Table.keys es).Nodup → (Table.keys fs).Nodup →
    (same (.mapping es p) (.mapping fs q) = true ↔ MatchUpToOrder (· = ·) same es fs)
  map (ks ls : List (Key Value × Value)) (f g : Frame Value) :
    (ks.Pairwise fun d e => d.1.same e.1 = false) → (ls.Pairwise fun d e => d.1.same e.1 = false) →
    (same (.map ks f) (.map ls g) = true ↔ MatchUpToOrder (fun k l => k.same l = true) same ks ls)
  mapping_order (es fs : Entries) (p q : Ancestry) : es.Perm fs →
    (Value.mapping es p).isWellFormed = true → same (.mapping es p) (.mapping fs q) = true
  map_order (ks ls : List (Key Value × Value)) (f g : Frame Value) : ks.Perm ls →
    (Value.map ks f).isWellFormed = true → same (.map ks f) (.map ls g) = true
  /-- Objects of a host and functions are equal to themselves only. -/
  object (a b : Value) : a.isOpaque = true → AreOfOneHost a b → (same a b = true ↔ a = b)

/-- Equality of values is a structural equality. -/
theorem equal_isStructural : IsStructural equal where
  symm a b := equal_symm
  trans a b c := equal_trans
  copy v f := equal_copy f v
  absent a b ha := by
    cases a with
    | undefined | null => rw [equal]
    | _ => cases ha
  atom a b := equal_atom_iff
  number m n := by rw [equal, Number.same_iff]
  symbol i j s t := by rw [equal, beq_iff_eq]
  date m n f g := by rw [equal, beq_iff_eq]
  kind a b := kind_of_equal
  array as bs f g := by rw [equal, equalItems_iff, forall₂_equalPlaces_iff]
  mapping es fs p q := equal_mapping_iff
  map ks ls f g := equal_map_iff
  mapping_order es fs p q := equal_mapping_of_perm
  map_order ks ls f g := equal_map_of_perm
  object a b := equal_opaque_iff

/-- Dates, and maps with not-a-number as a key, are equal to their copies; sets are not. -/
theorem equal_copy_dated :
    let v := Value.mapping [(units "at", .date 0 {}),
      (units "tags", .map [(.number .nan, .array [some .null, none, some (.number .zero)] {})] {})]
    (v.isWellFormed = true ∧ v.IsTransparent ∧ equal v (v.copy Nat.succ) = true) ∧
    equal (.set 0 [] {}) ((Value.set 0 [] {}).copy Nat.succ) = false := by
  intro v
  have hv : v.isWellFormed = true := by decide
  have hparts : v.IsTransparent := by
    refine .intro rfl (List.forall_mem_cons.2 ⟨.intro rfl nofun, List.forall_mem_singleton.2 ?_⟩)
    refine .intro rfl (List.forall_mem_singleton.2 (.intro rfl ?_))
    exact List.forall_mem_cons.2 ⟨.intro rfl nofun, List.forall_mem_singleton.2 (.intro rfl nofun)⟩
  refine ⟨⟨hv, hparts, equal_isStructural.copy v Nat.succ hv hparts⟩, ?_⟩
  have hhost : AreOfOneHost (.set 0 [] {}) ((Value.set 0 [] {}).copy Nat.succ) := by
    simp [AreOfOneHost, copy, identity?]
  rw [← Bool.not_eq_true, equal_isStructural.object _ _ rfl hhost]
  simp [copy]

/-- An empty place of the first array is not compared, so the order of two arrays matters and
equality is not handed on; and a date of one class is equal to a date of another one. -/
theorem not_forall_equal :
    (¬∀ a b : Value, a.isWellFormed = true → b.isWellFormed = true → equal a b = equal b a) ∧
    (¬∀ a b c : Value, a.isWellFormed = true → b.isWellFormed = true → c.isWellFormed = true →
      equal a b = true → equal b c = true → equal a c = true) ∧
    ¬∀ a b : Value, AreOfOneHost a b → equal a b = true → a.kind = b.kind := by
  refine ⟨fun h => ?_, fun h => ?_, fun h => ?_⟩
  · have hsymm := h (.array [none] {}) (.array [some (.bool true)] {}) rfl rfl
    simp [equal, equalItems] at hsymm
  · have htrans := h (.array [some .null] {}) (.array [none] {}) (.array [some (.bool true)] {})
      rfl rfl rfl (by simp [equal, equalItems, isNull]) (by simp [equal, equalItems])
    simp [equal, equalItems, isNull] at htrans
  · have hkind := h (.date 0 {}) (.date 0 { className := some (units "Moment") })
      (by simp [AreOfOneHost, identity?]) (by simp [equal])
    exact absurd hkind (by decide)

end Value

end TreeExtraction
