import Mathlib.Data.List.Perm.Basic
import TreeExtraction.Proofs.Schema.Reading
import TreeExtraction.Proofs.Value.WellFormed
import TreeExtraction.Value.Equality

/-! # Laws of equality

Equality of values is an equivalence, as long as no array among them has empty places: what stands
there in the first of two arrays is not compared. Mappings and maps are compared from one side only:
as many entries, and each entry of the one has an equal entry in the other. As no key comes twice,
the partners that are found are all entries of the other side, so the two sides have equal entries
up to their order.
-/

namespace TreeExtraction

/-! ## Sameness of keys -/

namespace Number

variable {m n o : Number}

/-- Numbers are the same if they have the same sign and magnitude or are both zero. -/
theorem same_iff : m.same n = true ↔ m = n ∨ m.isZero = true ∧ n.isZero = true := by
  cases m <;> cases n <;> simp [same, equal, isZero]

theorem same_symm (h : m.same n = true) : n.same m = true := by
  rw [same_iff] at h ⊢
  exact h.imp Eq.symm And.symm

theorem same_trans (hmn : m.same n = true) (hno : n.same o = true) : m.same o = true := by
  rw [same_iff] at hmn hno ⊢
  rcases hmn with rfl | ⟨hm, hn⟩
  · exact hno
  · rcases hno with rfl | ⟨-, ho⟩
    · exact .inr ⟨hm, hn⟩
    · exact .inr ⟨hm, ho⟩

end Number

namespace Key

variable {α : Type} {k l m : Key α}

theorem same_refl (k : Key α) : k.same k = true := by
  cases k with
  | number n => exact Number.same_iff.2 (.inl rfl)
  | _ => simp [same]

theorem same_symm (h : k.same l = true) : l.same k = true := by
  cases k with
  | number m =>
    cases l with
    | number n => exact Number.same_symm h
    | _ => cases h
  | _ => cases l <;> simp_all [same]

theorem same_trans (hkl : k.same l = true) (hlm : l.same m = true) : k.same m = true := by
  cases k with
  | number n =>
    cases l with
    | number o =>
      cases m with
      | number p => exact Number.same_trans hkl hlm
      | _ => cases hlm
    | _ => cases hkl
  | _ => cases l <;> cases m <;> simp_all [same]

end Key

namespace Value

variable {a b c v w : Value} {es fs : Entries} {ks ls : List (Key Value × Value)}
  {ancestry ancestry' : Ancestry} {frame frame' : Frame Value}

/-! ## Partners -/

/-- Where each member of a list has a partner of its own in a list of the same length, the partners
are all that is there, in some order. -/
theorem exists_perm_forall₂ {α β : Type} {R : α → β → Prop} {as : List α} {bs : List β}
    (hlength : as.length = bs.length) (hpartner : ∀ a ∈ as, ∃ b ∈ bs, R a b)
    (hown : as.Pairwise fun a a' => ∀ b, R a b → ¬R a' b) :
    ∃ cs, cs.Perm bs ∧ List.Forall₂ R as cs := by
  induction as generalizing bs with
  | nil =>
    obtain rfl : bs = [] := List.length_eq_zero_iff.1 hlength.symm
    exact ⟨[], .nil, .nil⟩
  | cons a as ih =>
    obtain ⟨b, hb, hab⟩ := hpartner a List.mem_cons_self
    obtain ⟨before, after, rfl⟩ := List.append_of_mem hb
    rw [List.pairwise_cons] at hown
    have hrest : ∀ a' ∈ as, ∃ b' ∈ before ++ after, R a' b' := by
      intro a' ha'
      obtain ⟨b', hb', hab'⟩ := hpartner a' (List.mem_cons_of_mem _ ha')
      have hne : b' ≠ b := fun h => hown.1 a' ha' b hab (h ▸ hab')
      exact ⟨b', by simpa [hne] using hb', hab'⟩
    obtain ⟨cs, hcs, hall⟩ := ih (by simp at hlength ⊢; omega) hrest hown.2
    exact ⟨b :: cs, (hcs.cons b).trans List.perm_middle.symm, .cons hab hall⟩

theorem forall₂_flip {α β : Type} {R : α → β → Prop} {S : β → α → Prop} {as : List α}
    {bs : List β} (h : List.Forall₂ R as bs) (hRS : ∀ a ∈ as, ∀ b ∈ bs, R a b → S b a) :
    List.Forall₂ S bs as := by
  induction h with
  | nil => exact .nil
  | cons hab _ ih =>
    refine .cons (hRS _ List.mem_cons_self _ List.mem_cons_self hab) (ih fun a ha b hb => ?_)
    exact hRS a (List.mem_cons_of_mem _ ha) b (List.mem_cons_of_mem _ hb)

theorem forall₂_trans {α β γ : Type} {R : α → β → Prop} {S : β → γ → Prop} {T : α → γ → Prop}
    {as : List α} {bs : List β} {cs : List γ} (h : List.Forall₂ R as bs)
    (h' : List.Forall₂ S bs cs) (hRS : ∀ a ∈ as, ∀ b ∈ bs, ∀ c, R a b → S b c → T a c) :
    List.Forall₂ T as cs := by
  induction h generalizing cs with
  | nil =>
    cases h'
    exact .nil
  | cons hab _ ih =>
    cases h' with
    | cons hbc hrest =>
      refine .cons (hRS _ List.mem_cons_self _ List.mem_cons_self _ hab hbc) ?_
      exact ih hrest fun a ha b hb =>
        hRS a (List.mem_cons_of_mem _ ha) b (List.mem_cons_of_mem _ hb)

/-! ## Items and entries -/

/-- What stands at two places of arrays is equal, or the first one is empty. -/
def EqualPlaces (a b : Option Value) : Prop :=
  ∀ v ∈ a, equal v (b.getD .undefined) = true

theorem equalItems_iff {as bs : List (Option Value)} :
    equalItems as bs = true ↔ List.Forall₂ EqualPlaces as bs := by
  induction as generalizing bs with
  | nil => cases bs <;> simp [equalItems]
  | cons a as ih =>
    cases bs with
    | nil => cases a <;> simp [equalItems]
    | cons b bs => cases a <;> simp [equalItems, ih, EqualPlaces]

/-- Arrays without empty places have equal items in the same order. -/
theorem forall₂_equalPlaces_iff {as bs : List Value} :
    List.Forall₂ EqualPlaces (as.map some) (bs.map some) ↔
      List.Forall₂ (fun a b => equal a b = true) as bs := by
  simp [List.forall₂_map_left_iff, List.forall₂_map_right_iff, EqualPlaces]

theorem equalEntries_iff : equalEntries es fs = true ↔
    ∀ e ∈ es, ∃ b, Table.get? fs e.1 = some b ∧ equal e.2 b = true := by
  induction es with
  | nil => simp [equalEntries]
  | cons e es ih =>
    rw [equalEntries, Bool.and_eq_true, ih, List.forall_mem_cons]
    cases Table.get? fs e.1 <;> simp

theorem equalKeyed_iff : equalKeyed ks ls = true ↔
    ∀ e ∈ ks, ∃ b, atKey? ls e.1 = some b ∧ equal e.2 b = true := by
  induction ks with
  | nil => simp [equalKeyed]
  | cons e ks ih =>
    rw [equalKeyed, Bool.and_eq_true, ih, List.forall_mem_cons]
    cases atKey? ls e.1 <;> simp

/-- Whether entries have the same keys with equal values, in whatever order. -/
def MatchUpToOrder {κ : Type} (same : κ → κ → Prop) (equal : Value → Value → Bool)
    (es fs : List (κ × Value)) : Prop :=
  ∃ gs, gs.Perm fs ∧ List.Forall₂ (fun e g => same e.1 g.1 ∧ equal e.2 g.2 = true) es gs

namespace MatchUpToOrder

variable {κ : Type} {same : κ → κ → Prop} {es fs : List (κ × Value)}

/-- It is enough that each entry has a partner, if there are as many entries on both sides and no
two of one side have the same key. -/
theorem of_partners (hsymm : ∀ k l, same k l → same l k)
    (htrans : ∀ k l m, same k l → same l m → same k m) (hlength : es.length = fs.length)
    (hdistinct : es.Pairwise fun e e' => ¬same e.1 e'.1)
    (hpartner : ∀ e ∈ es, ∃ f ∈ fs, same e.1 f.1 ∧ equal e.2 f.2 = true) :
    MatchUpToOrder same equal es fs := by
  refine exists_perm_forall₂ hlength hpartner (hdistinct.imp fun hne f hef hef' => hne ?_)
  exact htrans _ _ _ hef.1 (hsymm _ _ hef'.1)

theorem length_eq (h : MatchUpToOrder same equal es fs) : es.length = fs.length := by
  obtain ⟨gs, hperm, hall⟩ := h
  exact hall.length_eq.trans hperm.length_eq

theorem exists_mem (h : MatchUpToOrder same equal es fs) {e : κ × Value} (he : e ∈ es) :
    ∃ f ∈ fs, same e.1 f.1 ∧ equal e.2 f.2 = true := by
  obtain ⟨gs, hperm, hall⟩ := h
  obtain ⟨g, hg, heg⟩ := exists_of_mem_forall₂ hall.flip he
  exact ⟨g, hperm.mem_iff.1 hg, heg⟩

theorem symm (hsymm : ∀ k l, same k l → same l k)
    (hequal : ∀ e ∈ es, ∀ f ∈ fs, equal e.2 f.2 = true → equal f.2 e.2 = true)
    (h : MatchUpToOrder same equal es fs) : MatchUpToOrder same equal fs es := by
  obtain ⟨gs, hperm, hall⟩ := h
  have hback : List.Forall₂ (fun g e => same g.1 e.1 ∧ equal g.2 e.2 = true) gs es :=
    forall₂_flip hall fun e he g hg heg =>
      ⟨hsymm _ _ heg.1, hequal e he g (hperm.mem_iff.1 hg) heg.2⟩
  obtain ⟨hs, hall', hperm'⟩ := List.perm_comp_forall₂ hperm.symm hback
  exact ⟨hs, hperm', hall'⟩

end MatchUpToOrder

theorem exists_of_atKey? {k : Key Value} (h : atKey? ks k = some v) :
    ∃ e ∈ ks, e.1.same k = true ∧ e.2 = v := by
  obtain ⟨e, he, rfl⟩ := Option.map_eq_some_iff.1 h
  have hkey : e.1.same k = true := List.find?_some (p := fun f : Key Value × Value => f.1.same k) he
  exact ⟨e, List.mem_of_find?_eq_some he, hkey, rfl⟩

theorem atKey?_congr {k l : Key Value} (h : k.same l = true) : atKey? ks k = atKey? ks l := by
  have hsame : (fun e : Key Value × Value => e.1.same k) = fun e => e.1.same l := by
    funext e
    exact Bool.eq_iff_iff.2 ⟨fun he => Key.same_trans he h,
      fun he => Key.same_trans he (Key.same_symm h)⟩
  rw [atKey?, atKey?, hsame]

/-- In a map without repeated keys the entries are what a look-up finds. -/
theorem atKey?_of_mem (hkeys : ks.Pairwise fun a b => a.1.same b.1 = false)
    {e : Key Value × Value} (he : e ∈ ks) : atKey? ks e.1 = some e.2 := by
  induction ks with
  | nil => cases he
  | cons f ks ih =>
    rw [List.pairwise_cons] at hkeys
    rcases List.mem_cons.1 he with rfl | he
    · simp [atKey?, Key.same_refl]
    · have hfirst : f.1.same e.1 = false := hkeys.1 e he
      rw [atKey?, List.find?_cons_of_neg (by simp [hfirst])]
      exact ih hkeys.2 he

theorem equal_mapping_iff (hes : (Table.keys es).Nodup) (hfs : (Table.keys fs).Nodup) :
    equal (.mapping es ancestry) (.mapping fs ancestry') = true ↔
      MatchUpToOrder (· = ·) equal es fs := by
  rw [equal, Bool.and_eq_true, beq_iff_eq, equalEntries_iff]
  constructor
  · rintro ⟨hlength, hpartner⟩
    refine .of_partners (fun _ _ => Eq.symm) (fun _ _ _ => Eq.trans) hlength
      (List.pairwise_map.1 hes) fun e he => ?_
    obtain ⟨b, hget, hb⟩ := hpartner e he
    exact ⟨(e.1, b), Table.mem_of_get? hget, rfl, hb⟩
  · intro h
    refine ⟨h.length_eq, fun e he => ?_⟩
    obtain ⟨f, hf, hkey, hef⟩ := h.exists_mem he
    exact ⟨f.2, (Table.get?_eq_some_iff hfs).2 (hkey ▸ hf), hef⟩

theorem equal_map_iff (hks : ks.Pairwise fun a b => a.1.same b.1 = false)
    (hls : ls.Pairwise fun a b => a.1.same b.1 = false) :
    equal (.map ks frame) (.map ls frame') = true ↔
      MatchUpToOrder (fun k l => k.same l = true) equal ks ls := by
  rw [equal, Bool.and_eq_true, beq_iff_eq, equalKeyed_iff]
  constructor
  · rintro ⟨hlength, hpartner⟩
    refine .of_partners (fun _ _ => Key.same_symm) (fun _ _ _ => Key.same_trans) hlength
      (hks.imp fun h => Bool.eq_false_iff.1 h) fun e he => ?_
    obtain ⟨b, hget, hb⟩ := hpartner e he
    obtain ⟨f, hf, hkey, rfl⟩ := exists_of_atKey? hget
    exact ⟨f, hf, Key.same_symm hkey, hb⟩
  · intro h
    refine ⟨h.length_eq, fun e he => ?_⟩
    obtain ⟨f, hf, hkey, hef⟩ := h.exists_mem he
    exact ⟨f.2, (atKey?_congr hkey).trans (atKey?_of_mem hls hf), hef⟩

/-! ## The ways to be equal -/

/-- How two values can be equal. -/
inductive Alike : Value → Value → Prop where
  | bool (b : Bool) : Alike (.bool b) (.bool b)
  | number {m n : Number} (h : m.same n = true) : Alike (.number m) (.number n)
  | bigint (n : Int) : Alike (.bigint n) (.bigint n)
  | text (t : Text) : Alike (.text t) (.text t)
  | symbol (i : Nat) (s t : Text) : Alike (.symbol i s) (.symbol i t)
  | date (n : Int) (f g : Frame Value) : Alike (.date n f) (.date n g)
  | array {as bs : List (Option Value)} (f g : Frame Value)
    (h : List.Forall₂ EqualPlaces as bs) : Alike (.array as f) (.array bs g)
  | mapping {es fs : Entries} (p q : Ancestry) (hlength : es.length = fs.length)
    (hpartner : ∀ e ∈ es, ∃ b, Table.get? fs e.1 = some b ∧ equal e.2 b = true) :
    Alike (.mapping es p) (.mapping fs q)
  | map {ks ls : List (Key Value × Value)} (f g : Frame Value) (hlength : ks.length = ls.length)
    (hpartner : ∀ e ∈ ks, ∃ b, atKey? ls e.1 = some b ∧ equal e.2 b = true) :
    Alike (.map ks f) (.map ls g)
  | set (i : Nat) (vs ws : List Value) (f g : Frame Value) : Alike (.set i vs f) (.set i ws g)
  | invalidDate (i : Nat) (f g : Frame Value) : Alike (.invalidDate i f) (.invalidDate i g)
  | object (i : Nat) (f g : Frame Value) : Alike (.object i f) (.object i g)
  | function (i : Nat) (s t : Text) (f g : Frame Value) :
    Alike (.function i s f) (.function i t g)
  | absent {a b : Value} (ha : a.isNull = true) (hb : b.isNull = true) : Alike a b

theorem alike_of_equal (h : equal a b = true) : Alike a b := by
  cases a with
  | undefined | null => exact .absent rfl (by simpa [equal] using h)
  | array as f =>
    cases b with
    | array bs g => exact .array f g (equalItems_iff.1 (by simpa [equal] using h))
    | _ => simp [equal] at h
  | mapping es p =>
    cases b with
    | mapping fs q =>
      rw [equal, Bool.and_eq_true, beq_iff_eq] at h
      exact .mapping p q h.1 (equalEntries_iff.1 h.2)
    | _ => simp [equal] at h
  | map ks f =>
    cases b with
    | map ls g =>
      rw [equal, Bool.and_eq_true, beq_iff_eq] at h
      exact .map f g h.1 (equalKeyed_iff.1 h.2)
    | _ => simp [equal] at h
  | number m =>
    cases b with
    | number n => exact .number (by simpa [equal] using h)
    | _ => simp [equal] at h
  | _ =>
    cases b <;> simp [equal] at h
    subst h
    constructor

theorem equal_of_alike (h : Alike a b) : equal a b = true := by
  cases h with
  | absent ha hb =>
    cases a with
    | undefined | null => rwa [equal]
    | _ => cases ha
  | number h => simpa [equal] using h
  | array _ _ h => simpa [equal] using equalItems_iff.2 h
  | mapping _ _ hlength hpartner => simpa [equal, hlength] using equalEntries_iff.2 hpartner
  | map _ _ hlength hpartner => simpa [equal, hlength] using equalKeyed_iff.2 hpartner
  | _ => simp [equal]

/-! ## An equivalence -/

/-- The parts of a value that are compared. -/
def compared : Value → List Value
  | .array vs _ => present vs
  | .mapping es _ => es.map (·.2)
  | .map ks _ => ks.map (·.2)
  | _ => []

theorem mem_parts_of_mem_compared (h : w ∈ v.compared) : w ∈ v.parts := by
  cases v with
  | array => exact List.mem_append_left _ h
  | mapping => exact h
  | map =>
    obtain ⟨e, he, rfl⟩ := List.mem_map.1 h
    exact List.mem_append_left _ (List.mem_flatMap.2 ⟨e, he, by simp⟩)
  | _ => cases h

/-- What holds of a value if it holds of what is compared of it, holds of every value. -/
theorem induction_compared {P : Value → Prop} (h : ∀ v, (∀ w ∈ v.compared, P w) → P v)
    (v : Value) : P v :=
  h v fun w _ => induction_compared h w
termination_by v.depth
decreasing_by exact depth_lt_of_mem_parts (mem_parts_of_mem_compared ‹_›)

theorem isWellFormed_of_mem_compared (hv : v.isWellFormed = true) (h : w ∈ v.compared) :
    w.isWellFormed = true :=
  isWellFormed_of_mem_parts hv (mem_parts_of_mem_compared h)

theorem mem_compared_mapping {e : Text × Value} (he : e ∈ es) :
    e.2 ∈ (mapping es ancestry).compared :=
  List.mem_map_of_mem he

theorem mem_compared_map {e : Key Value × Value} (he : e ∈ ks) :
    e.2 ∈ (map ks frame).compared :=
  List.mem_map_of_mem he

theorem mem_compared_array {vs : List (Option Value)} (hv : some v ∈ vs) :
    v ∈ (array vs frame).compared :=
  mem_present.2 hv

theorem distinct_of_isWellFormed (h : (map ks frame).isWellFormed = true) :
    ks.Pairwise fun a b => a.1.same b.1 = false := by
  rw [isWellFormed, Bool.and_eq_true, Bool.and_eq_true] at h
  exact of_decide_eq_true h.1.1

/-- Whether all places of a value, if it is an array, are taken. -/
def isFilled : Value → Bool
  | .array vs _ => vs.all (·.isSome)
  | _ => true

/-- Whether no array that is compared in a value has an empty place. -/
def IsFullyCompared (v : Value) : Prop :=
  v.Throughout compared fun w => w.isFilled = true

theorem IsFullyCompared.exists_eq_some {vs : List (Option Value)}
    (h : (array vs frame).IsFullyCompared) {item : Option Value} (hitem : item ∈ vs) :
    ∃ w, item = some w ∧ w.IsFullyCompared := by
  obtain ⟨w, rfl⟩ := Option.isSome_iff_exists.1 (List.all_eq_true.1 h.here item hitem)
  exact ⟨w, rfl, h.inside (mem_compared_array hitem)⟩

/-- A well-formed value is equal to itself. -/
theorem equal_refl (v : Value) (hv : v.isWellFormed = true) : equal v v = true := by
  induction v using induction_compared with
  | h v ih =>
    have hpart : ∀ w ∈ v.compared, equal w w = true := fun w hw =>
      ih w hw (isWellFormed_of_mem_compared hv hw)
    apply equal_of_alike
    cases v with
    | undefined | null => exact .absent rfl rfl
    | number n => exact .number (Number.same_iff.2 (.inl rfl))
    | array vs frame =>
      refine .array _ _ (List.forall₂_same.2 fun item hitem w hw => ?_)
      obtain rfl : item = some w := hw
      exact hpart w (mem_compared_array hitem)
    | mapping es =>
      refine .mapping _ _ rfl fun e he => ⟨e.2, ?_, hpart _ (mem_compared_mapping he)⟩
      exact (Table.get?_eq_some_iff (Entries.nodup_keys hv)).2 he
    | map ks =>
      refine .map _ _ rfl fun e he => ⟨e.2, ?_, hpart _ (mem_compared_map he)⟩
      exact atKey?_of_mem (distinct_of_isWellFormed hv) he
    | _ => constructor

/-- Equality can be turned round if no place of the first value goes uncompared. -/
theorem equal_symm (ha : a.isWellFormed = true) (hb : b.isWellFormed = true)
    (hfull : a.IsFullyCompared) (h : equal a b = true) : equal b a = true := by
  induction a using induction_compared generalizing b with
  | h a ih =>
    have hparts : ∀ v ∈ a.compared, ∀ w ∈ b.compared, equal v w = true → equal w v = true :=
      fun v hv w hw => ih v hv (isWellFormed_of_mem_compared ha hv)
        (isWellFormed_of_mem_compared hb hw) (hfull.inside hv)
    cases alike_of_equal h with
    | absent hnull hnull' => exact equal_of_alike (.absent hnull' hnull)
    | number hsame => exact equal_of_alike (.number (Number.same_symm hsame))
    | array _ _ hall =>
      refine equal_of_alike (.array _ _ (forall₂_flip hall fun x hx y hy hxy w hw => ?_))
      obtain rfl : y = some w := hw
      obtain ⟨v, rfl, -⟩ := hfull.exists_eq_some hx
      exact hparts v (mem_compared_array hx) w (mem_compared_array hy) (hxy v rfl)
    | mapping =>
      have hes := Entries.nodup_keys ha
      have hfs := Entries.nodup_keys hb
      refine (equal_mapping_iff hfs hes).2 (.symm (fun _ _ => Eq.symm) ?_
        ((equal_mapping_iff hes hfs).1 h))
      exact fun e he f hf => hparts _ (mem_compared_mapping he) _ (mem_compared_mapping hf)
    | map =>
      have hks := distinct_of_isWellFormed ha
      have hls := distinct_of_isWellFormed hb
      refine (equal_map_iff hls hks).2 (.symm (fun _ _ => Key.same_symm) ?_
        ((equal_map_iff hks hls).1 h))
      exact fun e he f hf => hparts _ (mem_compared_map he) _ (mem_compared_map hf)
    | _ => exact equal_of_alike (by constructor)

theorem isNull_of_equal (h : equal a b = true) (ha : a.isNull = true) : b.isNull = true := by
  cases alike_of_equal h with
  | absent _ hb => exact hb
  | _ => cases ha

/-- Equality is handed on by a value no place of which goes uncompared. -/
theorem equal_trans (hfull : b.IsFullyCompared) (hab : equal a b = true) (hbc : equal b c = true) :
    equal a c = true := by
  induction a using induction_compared generalizing b c with
  | h a ih =>
    apply equal_of_alike
    cases alike_of_equal hab with
    | absent ha hb => exact .absent ha (isNull_of_equal hbc hb)
    | number hsame =>
      cases alike_of_equal hbc with
      | number hsame' => exact .number (Number.same_trans hsame hsame')
      | absent hb => cases hb
    | array _ _ hall =>
      cases alike_of_equal hbc with
      | array _ _ hall' =>
        refine .array _ _ (forall₂_trans hall hall' fun x hx y hy z hxy hyz v hv => ?_)
        obtain rfl : x = some v := hv
        obtain ⟨w, rfl, hw⟩ := hfull.exists_eq_some hy
        exact ih v (mem_compared_array hx) hw (hxy v rfl) (hyz w rfl)
      | absent hb => cases hb
    | mapping _ _ hlength hpartner =>
      cases alike_of_equal hbc with
      | mapping _ _ hlength' hpartner' =>
        refine .mapping _ _ (hlength.trans hlength') fun e he => ?_
        obtain ⟨f, hf, hef⟩ := hpartner e he
        have hmem := Table.mem_of_get? hf
        obtain ⟨g, hg, hfg⟩ := hpartner' (e.1, f) hmem
        have hfull' : f.IsFullyCompared := hfull.inside (mem_compared_mapping hmem)
        exact ⟨g, hg, ih _ (mem_compared_mapping he) hfull' hef hfg⟩
      | absent hb => cases hb
    | map _ _ hlength hpartner =>
      cases alike_of_equal hbc with
      | map _ _ hlength' hpartner' =>
        refine .map _ _ (hlength.trans hlength') fun e he => ?_
        obtain ⟨b, hb, heb⟩ := hpartner e he
        obtain ⟨f, hf, hkey, rfl⟩ := exists_of_atKey? hb
        obtain ⟨g, hg, hfg⟩ := hpartner' f hf
        have hfull' : f.2.IsFullyCompared := hfull.inside (mem_compared_map hf)
        exact ⟨g, (atKey?_congr hkey) ▸ hg, ih _ (mem_compared_map he) hfull' heb hfg⟩
      | absent hb => cases hb
    | _ =>
      cases alike_of_equal hbc with
      | absent hb => cases hb
      | _ => constructor

end Value

end TreeExtraction
