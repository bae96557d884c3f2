import TreeExtraction.Proofs.Path.Reading

/-! # One unit of lookahead

The readers of the path syntax go forward and look at no unit behind the one at which they stop.
So what they have read, and a problem with the unit in sight, are the same in all texts that agree
up to that unit. The problems that are reported at an earlier position are apart: an open bracket,
an open string and an index out of range.
-/

namespace TreeExtraction

/-- Whether a problem is reported where reading stops, not at a position before. -/
def PathProblem.isImmediate : PathProblem → Bool
  | .openBracket _ | .openString _ | .indexRange _ _ => false
  | _ => true

namespace Path

variable {α β : Type} {p start : Nat}

/-- Whether what reads texts that start at a position fails there or later, and does not look
behind the unit at which it fails. -/
structure FailsAhead (p : Nat) (f : Text → Except PathProblem α) : Prop where
  le_problem : ∀ {t e}, f t = .error e → e.isImmediate = true → p ≤ e.position
  error : ∀ {w s e}, f (w ++ s) = .error e → e.isImmediate = true → e.position < p + w.length →
    ∀ s', f (w ++ s') = .error e

/-- Whether a reader of texts that start at a position goes forward, and looks at no unit behind
the one at which it stops. -/
structure LooksOneAhead (p : Nat) (f : Text → Except PathProblem (Reading α)) : Prop
    extends FailsAhead p f where
  le_position : ∀ {t r}, f t = .ok r → p ≤ r.position
  ok : ∀ {w s r}, f (w ++ s) = .ok r → r.position < p + w.length →
    ∃ v, r.position + v.length = p + w.length ∧ r.rest = v ++ s ∧
      ∀ s', f (w ++ s') = .ok ⟨r.result, r.position, v ++ s'⟩

namespace FailsAhead

variable {f : Text → Except PathProblem α}

theorem fail (e : PathProblem) (he : e.isImmediate = true → e.position = p) :
    FailsAhead p fun _ => (.error e : Except PathProblem α) where
  le_problem h himm := by
    cases h
    exact (he himm).ge
  error h _ _ _ := h

theorem done (a : α) (p : Nat) : FailsAhead p fun _ => (.ok a : Except PathProblem α) :=
  ⟨nofun, nofun⟩

theorem map (hf : FailsAhead p f) (g : α → β) : FailsAhead p fun t => g <$> f t where
  le_problem h := hf.le_problem (Outcome.map_eq_error.1 h)
  error h himm hlt s' :=
    Outcome.map_eq_error.2 (hf.error (Outcome.map_eq_error.1 h) himm hlt s')

/-- The first unit may be passed over. -/
theorem tail (hf : FailsAhead (p + 1) f) : FailsAhead p fun t => f t.tail where
  le_problem h himm := Nat.le_of_succ_le (hf.le_problem h himm)
  error {w s e} h himm hlt := by
    cases w with
    | nil => exact absurd (hf.le_problem h himm) (Nat.not_le.2 (Nat.lt_succ_of_lt hlt))
    | cons u w =>
      rw [List.length_cons, ← Nat.succ_add_eq_add_succ] at hlt
      exact hf.error h himm hlt

/-- The first unit may decide how to go on. -/
theorem of_head (hnil : ∃ g, FailsAhead p g ∧ f [] = g [])
    (hcons : ∀ u, ∃ g, FailsAhead p g ∧ ∀ t, f (u :: t) = g (u :: t)) : FailsAhead p f := by
  have hle : ∀ {t e}, f t = .error e → e.isImmediate = true → p ≤ e.position := by
    intro t e he himm
    cases t with
    | nil =>
      obtain ⟨g, hg, hfg⟩ := hnil
      exact hg.le_problem (hfg.symm.trans he) himm
    | cons u t =>
      obtain ⟨g, hg, hfg⟩ := hcons u
      exact hg.le_problem ((hfg t).symm.trans he) himm
  refine ⟨hle, fun {w s e} he himm hlt s' => ?_⟩
  cases w with
  | nil => exact absurd hlt (Nat.not_lt.2 (hle he himm))
  | cons u w =>
    obtain ⟨g, hg, hfg⟩ := hcons u
    rw [List.cons_append, hfg, ← List.cons_append] at he ⊢
    exact hg.error he himm hlt s'

/-- What follows a reader may fail as well. -/
theorem bind {f : Text → Except PathProblem (Reading α)} {g : α → Nat → Text → Except PathProblem β}
    (hf : LooksOneAhead p f) (hg : ∀ a q, FailsAhead q (g a q)) :
    FailsAhead p fun t => f t >>= fun r => g r.result r.position r.rest where
  le_problem h himm := by
    rcases Outcome.bind_eq_error.1 h with h | ⟨r, hr, h⟩
    · exact hf.le_problem h himm
    · exact Nat.le_trans (hf.le_position hr) ((hg _ _).le_problem h himm)
  error {w s e} h himm hlt s' := by
    rcases Outcome.bind_eq_error.1 h with h | ⟨r, hr, h⟩
    · exact Outcome.bind_eq_error.2 (.inl (hf.error h himm hlt s'))
    · have hle := (hg _ _).le_problem h himm
      obtain ⟨v, hv, hrest, hsame⟩ := hf.ok hr (Nat.lt_of_le_of_lt hle hlt)
      rw [hrest] at h
      exact Outcome.bind_eq_error.2 (.inr ⟨_, hsame s', (hg _ _).error h himm (hv ▸ hlt) s'⟩)

end FailsAhead

namespace LooksOneAhead

variable {f : Text → Except PathProblem (Reading α)}

theorem pure (a : α) (p : Nat) :
    LooksOneAhead p fun t => (.ok ⟨a, p, t⟩ : Except PathProblem (Reading α)) where
  le_problem := nofun
  error := nofun
  le_position h := by
    cases h
    exact Nat.le_refl p
  ok {w s r} h _ := by
    cases h
    exact ⟨w, rfl, rfl, fun _ => rfl⟩

theorem fail (e : PathProblem) (he : e.isImmediate = true → e.position = p) :
    LooksOneAhead p fun _ => (.error e : Except PathProblem (Reading α)) where
  toFailsAhead := .fail e he
  le_position := nofun
  ok := nofun

theorem tail (hf : LooksOneAhead (p + 1) f) : LooksOneAhead p fun t => f t.tail where
  toFailsAhead := hf.toFailsAhead.tail
  le_position h := Nat.le_of_succ_le (hf.le_position h)
  ok {w s r} h hlt := by
    cases w with
    | nil => exact absurd (hf.le_position h) (Nat.not_le.2 (Nat.lt_succ_of_lt hlt))
    | cons u w =>
      rw [List.length_cons, ← Nat.succ_add_eq_add_succ] at hlt ⊢
      exact hf.ok h hlt

theorem of_head (hnil : ∃ g, LooksOneAhead p g ∧ f [] = g [])
    (hcons : ∀ u, ∃ g, LooksOneAhead p g ∧ ∀ t, f (u :: t) = g (u :: t)) : LooksOneAhead p f := by
  have hle : ∀ {t r}, f t = .ok r → p ≤ r.position := by
    intro t r hr
    cases t with
    | nil =>
      obtain ⟨g, hg, hfg⟩ := hnil
      exact hg.le_position (hfg.symm.trans hr)
    | cons u t =>
      obtain ⟨g, hg, hfg⟩ := hcons u
      exact hg.le_position ((hfg t).symm.trans hr)
  have hfails : FailsAhead p f :=
    .of_head (hnil.imp fun g h => ⟨h.1.toFailsAhead, h.2⟩)
      fun u => (hcons u).imp fun g h => ⟨h.1.toFailsAhead, h.2⟩
  refine ⟨hfails, hle, fun {w s r} hr hlt => ?_⟩
  cases w with
  | nil => exact absurd hlt (Nat.not_lt.2 (hle hr))
  | cons u w =>
    obtain ⟨g, hg, hfg⟩ := hcons u
    rw [List.cons_append, hfg, ← List.cons_append] at hr
    obtain ⟨v, hv, hrest, hsame⟩ := hg.ok hr hlt
    exact ⟨v, hv, hrest, fun s' => (hfg (w ++ s')).trans (hsame s')⟩

/-- Readers in sequence look as far ahead as each of them. -/
theorem bind {g : α → Nat → Text → Except PathProblem (Reading β)} (hf : LooksOneAhead p f)
    (hg : ∀ a q, LooksOneAhead q (g a q)) :
    LooksOneAhead p fun t => f t >>= fun r => g r.result r.position r.rest where
  toFailsAhead := .bind hf fun a q => (hg a q).toFailsAhead
  le_position h := by
    obtain ⟨r, hr, hnext⟩ := Outcome.bind_eq_ok.1 h
    exact Nat.le_trans (hf.le_position hr) ((hg _ _).le_position hnext)
  ok {w s r} h hlt := by
    obtain ⟨r', hr, hnext⟩ := Outcome.bind_eq_ok.1 h
    have hle := (hg _ _).le_position hnext
    obtain ⟨v, hv, hrest, hsame⟩ := hf.ok hr (Nat.lt_of_le_of_lt hle hlt)
    rw [hrest] at hnext
    obtain ⟨v', hv', hrest', hsame'⟩ := (hg _ _).ok hnext (hv ▸ hlt)
    refine ⟨v', hv'.trans hv, hrest', fun s' => ?_⟩
    rw [hsame s']
    exact hsame' s'

end LooksOneAhead

/-! ## Runs of units -/

/-- A run that ends within the first part of a text does not depend on the second part. -/
theorem exists_run {q : UInt16 → Bool} {w s : Text}
    (h : ((w ++ s).takeWhile q).length < w.length) :
    ∃ v, ((w ++ s).takeWhile q).length + v.length = w.length ∧
      ∀ s', (w ++ s').takeWhile q = (w ++ s).takeWhile q ∧ (w ++ s').dropWhile q = v ++ s' := by
  have hlength := congrArg List.length (w.takeWhile_append_dropWhile (p := q))
  rw [List.length_append] at hlength
  have hne : (w.takeWhile q).length ≠ w.length := by
    intro hall
    rw [List.takeWhile_append, if_pos hall, List.length_append] at h
    omega
  have hrest : (w.dropWhile q).isEmpty = false := by
    rw [List.isEmpty_eq_false_iff, ← List.length_pos_iff]
    omega
  have htake (s' : Text) : (w ++ s').takeWhile q = w.takeWhile q := by
    rw [List.takeWhile_append, if_neg hne]
  refine ⟨w.dropWhile q, by rw [htake s, hlength], fun s' => ⟨by rw [htake, htake], ?_⟩⟩
  rw [List.dropWhile_append, hrest, if_neg Bool.false_ne_true]

/-- A reader may take a run of units, and fail at once only if there are none. -/
theorem looksOneAhead_run (q : UInt16 → Bool) (check : Text → Except PathProblem α)
    (h : ∀ k e, check k = .error e → e.isImmediate = true → k = [] ∧ e.position = p) :
    LooksOneAhead p fun t => check (t.takeWhile q) >>= fun a =>
      .ok ⟨a, p + (t.takeWhile q).length, t.dropWhile q⟩ where
  le_problem {t e} he himm := by
    rcases Outcome.bind_eq_error.1 he with he | ⟨a, -, he⟩
    · exact (h _ _ he himm).2.ge
    · cases he
  error {w s e} he himm hlt s' := by
    rcases Outcome.bind_eq_error.1 he with he | ⟨a, -, he⟩
    · obtain ⟨hnil, hpos⟩ := h _ _ he himm
      have hrun : ((w ++ s).takeWhile q).length < w.length := by
        rw [hnil, List.length_nil]
        omega
      obtain ⟨v, -, hsame⟩ := exists_run hrun
      rw [(hsame s').1, he]
      rfl
    · cases he
  le_position hr := by
    obtain ⟨a, -, hr⟩ := Outcome.bind_eq_ok.1 hr
    cases hr
    exact Nat.le_add_right _ _
  ok {w s r} hr hlt := by
    obtain ⟨a, hk, hr⟩ := Outcome.bind_eq_ok.1 hr
    cases hr
    obtain ⟨v, hv, hsame⟩ := exists_run (Nat.lt_of_add_lt_add_left hlt)
    refine ⟨v, by rw [Nat.add_assoc, hv], (hsame s).2, fun s' => ?_⟩
    simp only [(hsame s').1, (hsame s').2, hk, Outcome.ok_bind]

theorem looksOneAhead_skipSpaces (p : Nat) : LooksOneAhead p fun t =>
    (.ok ⟨(), (skipSpaces p t).1, (skipSpaces p t).2⟩ : Except PathProblem (Reading Unit)) :=
  looksOneAhead_run isSpace (fun _ => .ok ()) nofun

theorem looksOneAhead_readDigits (start p : Nat) (negative : Bool) :
    LooksOneAhead p (readDigits start negative p) := by
  let check (ds : Text) : Except PathProblem Step :=
    if ds.isEmpty then .error (.noDigit p)
    else if indexLimit < Text.toNat ds then
      .error (.indexRange (if negative then unit '-' :: ds else ds) start)
    else .ok (.index (.ofRatio negative (Text.toNat ds) 1))
  have hread : readDigits start negative p = fun t => check (t.takeWhile Text.isDigit) >>= fun a =>
      .ok ⟨a, p + (t.takeWhile Text.isDigit).length, t.dropWhile Text.isDigit⟩ := by
    funext t
    simp only [readDigits, check]
    split
    · rfl
    · split <;> rfl
  rw [hread]
  refine looksOneAhead_run _ check fun k e he himm => ?_
  simp only [check] at he
  split at he
  · next hempty =>
    cases he
    exact ⟨List.isEmpty_iff.1 hempty, rfl⟩
  · split at he
    · cases he
      cases himm
    · cases he

theorem looksOneAhead_readBare (p : Nat) : LooksOneAhead p (readBare p) := by
  let check (k : Text) : Except PathProblem Step :=
    if k.isEmpty then .error (.emptyKey p) else .ok (.key k)
  have hread : readBare p = fun t => check (t.takeWhile isBareUnit) >>= fun a =>
      .ok ⟨a, p + (t.takeWhile isBareUnit).length, t.dropWhile isBareUnit⟩ := by
    funext t
    simp only [readBare, check]
    split <;> rfl
  rw [hread]
  refine looksOneAhead_run _ check fun k e he himm => ?_
  simp only [check] at he
  split at he
  · next hempty =>
    cases he
    exact ⟨List.isEmpty_iff.1 hempty, rfl⟩
  · cases he

/-! ## Readers that look at the first unit -/

theorem looksOneAhead_readIndex (p : Nat) : LooksOneAhead p (readIndex p) := by
  refine .of_head ⟨_, looksOneAhead_readDigits p p false, rfl⟩ fun u => ?_
  by_cases hminus : (u == unit '-') = true
  · refine ⟨_, (looksOneAhead_readDigits p (p + 1) true).tail, fun t => ?_⟩
    rw [readIndex, if_pos hminus, List.tail_cons]
  · refine ⟨_, looksOneAhead_readDigits p p false, fun t => ?_⟩
    rw [readIndex, if_neg hminus]

/-- What reads a quotation mark behind a key. -/
def closeQuote (start : Nat) (k : Text) (p : Nat) (t : Text) : Except PathProblem (Reading Step) :=
  if t.isEmpty then .error (.openString start) else .ok ⟨.key k, p + 1, t.tail⟩

theorem looksOneAhead_readQuoted (start : Nat) (quote : UInt16) :
    LooksOneAhead (start + 1) (readQuoted start quote) := by
  have hclose (k : Text) (p : Nat) : LooksOneAhead p (closeQuote start k p) :=
    .of_head ⟨_, .fail (.openString start) nofun, rfl⟩
      fun _ => ⟨_, (LooksOneAhead.pure (.key k) (p + 1)).tail, fun _ => rfl⟩
  have hread : readQuoted start quote = fun t =>
      (.ok ⟨t.takeWhile (· != quote), start + 1 + (t.takeWhile (· != quote)).length,
        t.dropWhile (· != quote)⟩ : Except PathProblem (Reading Text)) >>=
          fun r => closeQuote start r.result r.position r.rest := by
    funext t
    simp only [readQuoted, Outcome.ok_bind, closeQuote]
    split
    · next hrest =>
      rw [hrest]
      rfl
    · next hrest =>
      rw [hrest]
      simp only [List.isEmpty_cons, Bool.false_eq_true, if_false, List.tail_cons,
        Except.ok.injEq, Reading.mk.injEq, and_true, true_and]
      omega
  rw [hread]
  exact (looksOneAhead_run (· != quote) .ok nofun).bind hclose

theorem looksOneAhead_readContent (start p : Nat) : LooksOneAhead p (readContent start p) := by
  refine .of_head ⟨_, .fail (.openBracket start) nofun, rfl⟩ fun u => ?_
  by_cases hindex : isIndexStart u = true
  · refine ⟨_, looksOneAhead_readIndex p, fun t => ?_⟩
    rw [readContent, if_pos hindex]
  · by_cases hquote : isQuote u = true
    · refine ⟨_, (looksOneAhead_readQuoted p u).tail, fun t => ?_⟩
      rw [readContent, if_neg hindex, if_pos hquote, List.tail_cons]
    · refine ⟨_, looksOneAhead_readBare p, fun t => ?_⟩
      rw [readContent, if_neg hindex, if_neg hquote]

/-- What reads a bracket behind a step. -/
def closeBracket (start : Nat) (step : Step) (p : Nat) (t : Text) :
    Except PathProblem (Reading Step) :=
  t.head?.elim (.error (.openBracket start)) fun u =>
    if u == unit ']' then .ok ⟨step, p + 1, t.tail⟩ else .error (.noBracket u p)

theorem looksOneAhead_readClose (start : Nat) (step : Step) (p : Nat) :
    LooksOneAhead p fun t => readClose start ⟨step, p, t⟩ := by
  have hclose (p : Nat) : LooksOneAhead p (closeBracket start step p) := by
    refine .of_head ⟨_, .fail (.openBracket start) nofun, rfl⟩ fun u => ?_
    by_cases hu : (u == unit ']') = true
    · exact ⟨_, (LooksOneAhead.pure step (p + 1)).tail, fun _ => if_pos hu⟩
    · exact ⟨_, .fail (.noBracket u p) fun _ => rfl, fun _ => if_neg hu⟩
  have hread : (fun t => readClose start ⟨step, p, t⟩) = fun t =>
      (.ok ⟨(), (skipSpaces p t).1, (skipSpaces p t).2⟩ : Except PathProblem (Reading Unit)) >>=
        fun r => closeBracket start step r.position r.rest := by
    funext t
    simp only [readClose, Outcome.ok_bind, closeBracket]
    split <;> next hskip => rw [hskip]; rfl
  rw [hread]
  exact (looksOneAhead_skipSpaces p).bind fun _ => hclose

/-- An accessor is read without a look behind its closing bracket. -/
theorem looksOneAhead_readAccessor (start : Nat) :
    LooksOneAhead (start + 1) (readAccessor start) :=
  (looksOneAhead_skipSpaces (start + 1)).bind fun _ p =>
    (looksOneAhead_readContent start p).bind fun step p => looksOneAhead_readClose start step p

theorem looksOneAhead_readIdentifier (p : Nat) : LooksOneAhead p (readIdentifier p) := by
  refine .of_head ⟨_, .fail (.noIdentifier none p) fun _ => rfl, rfl⟩ fun u => ?_
  by_cases hu : Text.isIdentifierStart u = true
  · refine ⟨_, (looksOneAhead_run (p := p + 1) Text.isIdentifierPart (fun k => .ok (u :: k))
      nofun).tail, fun t => ?_⟩
    simp only [readIdentifier, if_pos hu, Outcome.ok_bind, List.tail_cons, List.length_cons,
      Except.ok.injEq, Reading.mk.injEq, and_true, true_and]
    omega
  · refine ⟨_, .fail (.noIdentifier (some u) p) fun _ => rfl, fun t => ?_⟩
    rw [readIdentifier, if_neg hu]

/-! ## Steps and paths -/

/-- Whatever is read of a name or an accessor, further steps follow. -/
theorem failsAhead_readSteps (limit : Nat) (mayIndex : Bool) (p : Nat) :
    FailsAhead p (readSteps limit mayIndex p) := by
  induction limit generalizing mayIndex p with
  | zero =>
    exact .of_head ⟨_, .done [] p, by rw [readSteps]⟩
      fun u => ⟨_, .fail (.unexpected u p) fun _ => rfl, fun t => by rw [readSteps]⟩
  | succ limit ih =>
    refine .of_head ⟨_, .done [] p, by rw [readSteps]⟩ fun u => ?_
    by_cases hpoint : (u == unit '.') = true
    · refine ⟨_, (FailsAhead.bind (looksOneAhead_readIdentifier (p + 1)) fun name q =>
        (ih true q).map (.attribute name :: ·)).tail, fun t => ?_⟩
      rw [readSteps, if_pos hpoint]
      rfl
    · by_cases hbracket : (mayIndex && u == unit '[') = true
      · refine ⟨_, (FailsAhead.bind (looksOneAhead_readAccessor p) fun step q =>
          (ih true q).map (step :: ·)).tail, fun t => ?_⟩
        rw [readSteps, if_neg hpoint, if_pos hbracket]
        rfl
      · refine ⟨_, .fail (.unexpected u p) fun _ => rfl, fun t => ?_⟩
        rw [readSteps, if_neg hpoint, if_neg hbracket]

/-- The limit plays no part where it reaches to the end of the text. -/
theorem readSteps_limit {limit limit' : Nat} {t : Text} (h : t.length ≤ limit)
    (h' : t.length ≤ limit') (mayIndex : Bool) (p : Nat) :
    readSteps limit mayIndex p t = readSteps limit' mayIndex p t := by
  induction limit generalizing limit' mayIndex p t with
  | zero =>
    obtain rfl := List.eq_nil_of_length_eq_zero (Nat.le_zero.1 h)
    rw [readSteps, readSteps]
  | succ limit ih =>
    cases t with
    | nil => rw [readSteps, readSteps]
    | cons u t =>
      rw [List.length_cons] at h h'
      obtain ⟨limit', rfl⟩ := Nat.exists_eq_succ_of_ne_zero (n := limit') (by omega)
      have hon {r : Text} (hr : r.length ≤ t.length) (q : Nat) :
          readSteps limit true q r = readSteps limit' true q r :=
        ih (by omega) (by omega) true q
      rw [readSteps, readSteps]
      split
      · refine Outcome.bind_congr fun r hr => ?_
        rw [hon]
        rw [(exists_of_readIdentifier hr).2.1]
        simp
      · split
        · refine Outcome.bind_congr fun r hr => ?_
          rw [hon]
          obtain ⟨a, ha, -⟩ := exists_of_readAccessor hr
          have hlength := congrArg List.length ha
          simp only [Accessor.text, bracketed, List.length_cons, List.length_append] at hlength
          omega
        · rfl

/-- The steps behind the first one, read to the end of the text. -/
theorem failsAhead_readOn (mayIndex : Bool) (p : Nat) :
    FailsAhead p fun t => readSteps t.length mayIndex p t where
  le_problem h := (failsAhead_readSteps _ mayIndex p).le_problem h
  error {w s e} h himm hlt s' := by
    have hlimit (s'' : Text) (hle : (w ++ s'').length ≤ max (w ++ s).length (w ++ s').length) :=
      readSteps_limit (Nat.le_refl _) hle mayIndex p
    simp only [hlimit s (Nat.le_max_left _ _), hlimit s' (Nat.le_max_right _ _)] at h ⊢
    exact (failsAhead_readSteps _ mayIndex p).error h himm hlt s'

/-- A path fails as it does in all texts that agree up to the unit in sight. -/
theorem failsAhead_readPath : FailsAhead 0 readPath := by
  refine .of_head ⟨_, .fail (.noIdentifier none 0) fun _ => rfl, rfl⟩ fun u => ?_
  by_cases hu : (u == unit '[') = true
  · refine ⟨_, (FailsAhead.bind (looksOneAhead_readAccessor 0) fun step q =>
      (failsAhead_readOn false q).map (step :: ·)).tail, fun t => ?_⟩
    rw [readPath, if_pos hu]
    rfl
  · refine ⟨_, FailsAhead.bind (looksOneAhead_readIdentifier 0) fun name q =>
      (failsAhead_readOn true q).map (.attribute name :: ·), fun t => ?_⟩
    rw [readPath, if_neg hu]
    rfl

end Path

end TreeExtraction
