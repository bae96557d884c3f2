import TreeExtraction.Extraction.Run

/-! # Outcomes

Operations in sequence succeed exactly when each of them does, and they fail only as one of them
fails. If each of them fails under a condition of its own, they fail if one of these conditions
holds. Runs succeed and fail likewise.
-/

namespace TreeExtraction.Outcome

variable {ε ε' α β : Type}

@[simp] theorem ok_bind (a : α) (f : α → Except ε β) : (Except.ok a : Except ε α) >>= f = f a := rfl

@[simp] theorem ok_map (a : α) (f : α → β) : f <$> (Except.ok a : Except ε α) = .ok (f a) := rfl

@[simp] theorem pure_eq_ok (a : α) : (pure a : Except ε α) = .ok a := rfl

theorem bind_eq_ok {r : Except ε α} {f : α → Except ε β} {b : β} :
    r >>= f = .ok b ↔ ∃ a, r = .ok a ∧ f a = .ok b := by
  cases r with
  | error e => simp [bind, Except.bind]
  | ok a => simp

theorem bind_eq_error {r : Except ε α} {f : α → Except ε β} {e : ε} :
    r >>= f = .error e ↔ r = .error e ∨ ∃ a, r = .ok a ∧ f a = .error e := by
  cases r with
  | error e' => simp [bind, Except.bind]
  | ok a => simp

/-- Operations that go on alike from the result of the first one are the same. -/
theorem bind_congr {r : Except ε α} {f g : α → Except ε β} (h : ∀ a, r = .ok a → f a = g a) :
    r >>= f = r >>= g := by
  cases r with
  | error e => rfl
  | ok a => exact h a rfl

theorem map_eq_ok {r : Except ε α} {f : α → β} {b : β} :
    f <$> r = .ok b ↔ ∃ a, r = .ok a ∧ f a = b := by
  cases r with
  | error e => simp [Functor.map, Except.map]
  | ok a => simp

theorem map_eq_error {r : Except ε α} {f : α → β} {e : ε} :
    f <$> r = .error e ↔ r = .error e := by
  cases r with
  | error e' => simp [Functor.map, Except.map]
  | ok a => simp

theorem mapError_eq_ok {r : Except ε α} {f : ε → ε'} {a : α} :
    r.mapError f = .ok a ↔ r = .ok a := by
  cases r with
  | error e => constructor <;> intro h <;> cases h
  | ok b => constructor <;> intro h <;> cases h <;> rfl

theorem toOption_eq_some {r : Except ε α} {a : α} : r.toOption = some a ↔ r = .ok a := by
  cases r <;> simp [Except.toOption]

theorem inContext_eq_ok {r : Except Failure α} {c : Context} {a : α} :
    inContext c r = .ok a ↔ r = .ok a :=
  mapError_eq_ok

/-- What comes of a list is the outcome of one of its members. -/
theorem exists_of_mem_mapM {f : α → Except ε β} {as : List α} {bs : List β} {b : β}
    (h : as.mapM f = .ok bs) (hb : b ∈ bs) : ∃ a ∈ as, f a = .ok b := by
  induction as generalizing bs with
  | nil =>
    cases h
    cases hb
  | cons a as ih =>
    rw [List.mapM_cons] at h
    rcases bind_eq_ok.1 h with ⟨first, hfirst, h⟩
    rcases bind_eq_ok.1 h with ⟨rest, hrest, h⟩
    cases h
    rcases List.mem_cons.1 hb with rfl | hb
    · exact ⟨a, List.mem_cons_self, hfirst⟩
    · rcases ih hrest hb with ⟨c, hc, hfc⟩
      exact ⟨c, List.mem_cons_of_mem _ hc, hfc⟩

/-- A list of operations in sequence fails as the first of them that fails. -/
theorem exists_of_forM_eq_error {f : α → Except ε Unit} {as : List α} {e : ε}
    (h : forM as f = .error e) : ∃ before a after, as = before ++ a :: after ∧
      (∀ b ∈ before, f b = .ok ()) ∧ f a = .error e := by
  induction as with
  | nil => cases h
  | cons a as ih =>
    rw [List.forM_cons] at h
    cases ha : f a with
    | error e' =>
      rw [ha] at h
      exact ⟨[], a, as, rfl, nofun, ha.trans h⟩
    | ok u =>
      rw [ha] at h
      obtain ⟨before, b, after, rfl, hbefore, hb⟩ := ih h
      exact ⟨a :: before, b, after, rfl, List.forall_mem_cons.2 ⟨ha, hbefore⟩, hb⟩

theorem forM_eq_error {f : α → Except ε Unit} {before after : List α} {a : α} {e : ε}
    (hbefore : ∀ b ∈ before, f b = .ok ()) (ha : f a = .error e) :
    forM (before ++ a :: after) f = .error e := by
  induction before with
  | nil =>
    rw [List.nil_append, List.forM_cons, ha]
    rfl
  | cons b before ih =>
    rw [List.cons_append, List.forM_cons, hbefore b List.mem_cons_self]
    exact ih fun c hc => hbefore c (List.mem_cons_of_mem _ hc)

/-! ## Failures -/

/-- Whether an operation fails, if it does, only in ways that have a property. -/
def FailsOnly (P : ε → Prop) (r : Except ε α) : Prop :=
  ∀ e, r = .error e → P e

variable {P Q : ε → Prop} {r : Except ε α}

@[simp] theorem failsOnly_ok (a : α) : FailsOnly P (.ok a : Except ε α) :=
  nofun

@[simp] theorem failsOnly_error {e : ε} : FailsOnly P (.error e : Except ε α) ↔ P e :=
  ⟨fun h => h e rfl, fun h _ he => Except.error.inj he ▸ h⟩

namespace FailsOnly

theorem imp (h : FailsOnly P r) (hPQ : ∀ e, P e → Q e) : FailsOnly Q r :=
  fun e he => hPQ e (h e he)

theorem bind {f : α → Except ε β} (h : FailsOnly P r) (hf : ∀ a, r = .ok a → FailsOnly P (f a)) :
    FailsOnly P (r >>= f) := by
  cases r with
  | error e => exact failsOnly_error.2 (h e rfl)
  | ok a => exact hf a rfl

theorem map {f : α → β} (h : FailsOnly P r) : FailsOnly P (f <$> r) := by
  cases r with
  | error e => exact failsOnly_error.2 (h e rfl)
  | ok a => exact failsOnly_ok _

theorem mapM {f : α → Except ε β} {as : List α} (h : ∀ a ∈ as, FailsOnly P (f a)) :
    FailsOnly P (as.mapM f) := by
  induction as with
  | nil => exact failsOnly_ok _
  | cons a as ih =>
    rw [List.mapM_cons]
    refine (h a List.mem_cons_self).bind fun b _ => ?_
    exact (ih fun c hc => h c (List.mem_cons_of_mem _ hc)).bind fun bs _ => failsOnly_ok _

theorem inContext {P Q : Failure → Prop} {r : Except Failure α} {c : Context}
    (h : FailsOnly P r) (hPQ : ∀ e, P e → Q (e.within c)) :
    FailsOnly Q (TreeExtraction.inContext c r) := by
  cases r with
  | error e => exact failsOnly_error.2 (hPQ e (h e rfl))
  | ok a => exact failsOnly_ok _

end FailsOnly

/-! ## Failures under a condition -/

/-- Whether an operation fails in a certain way if a condition holds, and succeeds otherwise. -/
structure FailsIff (e : ε) (P : Prop) (r : Except ε α) : Prop where
  error : P → r = .error e
  ok : ¬P → ∃ a, r = .ok a

namespace FailsIff

variable {e : ε} {P Q : Prop} {r : Except ε α}

theorem of_ok (hP : ¬P) (a : α) : FailsIff e P (.ok a : Except ε α) :=
  ⟨fun h => absurd h hP, fun _ => ⟨a, rfl⟩⟩

theorem of_error (hP : P) : FailsIff e P (.error e : Except ε α) :=
  ⟨fun _ => rfl, fun h => absurd hP h⟩

theorem congr (h : FailsIff e P r) (hPQ : Q ↔ P) : FailsIff e Q r :=
  ⟨fun hQ => h.error (hPQ.1 hQ), fun hQ => h.ok (mt hPQ.2 hQ)⟩

theorem failsOnly (h : FailsIff e P r) : FailsOnly (fun e' => e' = e ∧ P) r := by
  by_cases hP : P
  · rw [h.error hP]
    exact failsOnly_error.2 ⟨rfl, hP⟩
  · obtain ⟨a, rfl⟩ := h.ok hP
    exact failsOnly_ok a

/-- The second of two operations in sequence fails only where the first one succeeds. -/
theorem bind {f : α → Except ε β} (h : FailsIff e P r)
    (hf : ∀ a, r = .ok a → FailsIff e Q (f a)) : FailsIff e (P ∨ Q) (r >>= f) := by
  by_cases hP : P
  · rw [h.error hP]
    exact of_error (.inl hP)
  · obtain ⟨a, rfl⟩ := h.ok hP
    exact (hf a rfl).congr (or_iff_right hP)

theorem bind_ok {f : α → Except ε β} (h : FailsIff e P r)
    (hf : ∀ a, r = .ok a → ∃ b, f a = .ok b) : FailsIff e P (r >>= f) := by
  have hsecond : ∀ a, r = .ok a → FailsIff e False (f a) := fun a ha =>
    ⟨False.elim, fun _ => hf a ha⟩
  exact (h.bind hsecond).congr (iff_of_eq (or_false P).symm)

theorem map (f : α → β) (h : FailsIff e P r) : FailsIff e P (f <$> r) :=
  ⟨fun hP => map_eq_error.2 (h.error hP), fun hP => (h.ok hP).imp' f fun a ha => by rw [ha]; rfl⟩

/-- A list of operations in sequence fails if one of them does. -/
theorem mapM {f : α → Except ε β} {R : α → Prop} {as : List α}
    (h : ∀ a ∈ as, FailsIff e (R a) (f a)) : FailsIff e (∃ a ∈ as, R a) (as.mapM f) := by
  induction as with
  | nil => exact of_ok (by simp) _
  | cons a as ih =>
    rw [List.mapM_cons]
    have hrest := ih fun b hb => h b (List.mem_cons_of_mem _ hb)
    have hfirst := h a List.mem_cons_self
    exact (hfirst.bind fun b _ => hrest.bind_ok fun bs _ => ⟨_, rfl⟩).congr (by simp)

theorem forM {f : α → Except ε Unit} {R : α → Prop} {as : List α}
    (h : ∀ a ∈ as, FailsIff e (R a) (f a)) : FailsIff e (∃ a ∈ as, R a) (forM as f) := by
  induction as with
  | nil => exact of_ok (by simp) _
  | cons a as ih =>
    rw [List.forM_cons]
    have hrest := ih fun b hb => h b (List.mem_cons_of_mem _ hb)
    exact ((h a List.mem_cons_self).bind fun _ _ => hrest).congr (by simp)

theorem inContext {e : Failure} {r : Except Failure α} (h : FailsIff e P r) {c : Context}
    (he : e.within c = e) : FailsIff e P (TreeExtraction.inContext c r) :=
  ⟨fun hP => by
      rw [h.error hP]
      exact congrArg Except.error he,
    fun hP => (h.ok hP).imp fun _ ha => inContext_eq_ok.2 ha⟩

end FailsIff

end TreeExtraction.Outcome

namespace TreeExtraction.Run

variable {α β : Type}

@[simp] theorem outcome_pure (a : α) : (pure a : Run α).outcome = .ok a := rfl

@[simp] theorem outcome_lift (r : Except Failure α) : (lift r).outcome = r := rfl

@[simp] theorem outcome_fail (f : Failure) : (fail f : Run α).outcome = .error f := rfl

@[simp] theorem outcome_within (c : Context) (r : Run α) :
    (r.within c).outcome = inContext c r.outcome := rfl

theorem outcome_bind (r : Run α) (f : α → Run β) :
    (r >>= f).outcome = r.outcome >>= fun a => (f a).outcome := by
  rcases r with ⟨_ | a, w⟩ <;> rfl

theorem bind_eq_ok {r : Run α} {f : α → Run β} {b : β} :
    (r >>= f).outcome = .ok b ↔ ∃ a, r.outcome = .ok a ∧ (f a).outcome = .ok b := by
  rw [outcome_bind, Outcome.bind_eq_ok]

/-- Runs that go on alike from every result of the first one are the same. -/
theorem bind_congr {r : Run α} {f g : α → Run β} (h : ∀ a, r.outcome = .ok a → f a = g a) :
    r >>= f = r >>= g := by
  rcases r with ⟨_ | a, w⟩
  · rfl
  · change (f a).behind w = (g a).behind w
    rw [h a rfl]

end TreeExtraction.Run
