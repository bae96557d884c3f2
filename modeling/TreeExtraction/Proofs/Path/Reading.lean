import TreeExtraction.Proofs.Outcome
import TreeExtraction.Proofs.Path.Grammar

/-! # Reading accepts the grammar

Each reader of the path syntax reads the text of a tree of its rule, and whatever it reads is the
text of such a tree. Together: a text is read as steps exactly if it has a derivation that denotes
them, and every other text is refused with a path error.
-/

namespace TreeExtraction.Path

variable {start p limit : Nat} {t : Text}

theorem skipSpaces_append {s : Text} (hs : s.all isSpace = true)
    (ht : Text.stops isSpace t = true) : skipSpaces p (s ++ t) = (p + s.length, t) := by
  rw [skipSpaces, Text.takeWhile_append hs ht, Text.dropWhile_append hs ht]

theorem exists_skipSpaces (p : Nat) (t : Text) : ∃ s rest : Text, s.all isSpace = true ∧
    t = s ++ rest ∧ skipSpaces p t = (p + s.length, rest) :=
  ⟨t.takeWhile isSpace, _, List.all_takeWhile, List.takeWhile_append_dropWhile.symm, rfl⟩

/-! ## Indexes and keys -/

theorem readDigits_append (start p : Nat) (negative : Bool) {digits : Text} (nonempty : digits ≠ [])
    (decimal : digits.all Text.isDigit = true) (inRange : Text.toNat digits ≤ indexLimit)
    (ht : Text.stops Text.isDigit t = true) :
    readDigits start negative p (digits ++ t) =
      .ok ⟨.index (.ofRatio negative (Text.toNat digits) 1), p + digits.length, t⟩ := by
  rw [readDigits, Text.takeWhile_append decimal ht, Text.dropWhile_append decimal ht]
  simp [nonempty, Nat.not_lt.2 inRange]

theorem exists_of_readDigits {negative : Bool} {r : Reading Step}
    (h : readDigits start negative p t = .ok r) :
    ∃ digits : Text, digits ≠ [] ∧ digits.all Text.isDigit = true ∧
      Text.toNat digits ≤ indexLimit ∧ t = digits ++ r.rest ∧
      r.result = .index (.ofRatio negative (Text.toNat digits) 1) ∧
      r.position = p + digits.length := by
  rw [readDigits] at h
  split at h
  · cases h
  · next hne =>
    split at h
    · cases h
    · next hle =>
      cases h
      exact ⟨t.takeWhile Text.isDigit, by simpa using hne, List.all_takeWhile,
        Nat.le_of_not_lt hle, List.takeWhile_append_dropWhile.symm, rfl, rfl⟩

theorem readIndex_text (negative : Bool) {digits : Text} (nonempty : digits ≠ [])
    (decimal : digits.all Text.isDigit = true) (inRange : Text.toNat digits ≤ indexLimit)
    (ht : Text.stops Text.isDigit t = true) :
    readIndex p (sign negative ++ digits ++ t) =
      .ok ⟨.index (.ofRatio negative (Text.toNat digits) 1),
        p + (sign negative ++ digits).length, t⟩ := by
  cases negative with
  | true =>
    have h := readDigits_append p (p + 1) true nonempty decimal inRange ht
    simp [sign, readIndex, h, Nat.add_assoc, Nat.add_comm 1]
  | false =>
    have h := readDigits_append p p false nonempty decimal inRange ht
    rcases List.exists_cons_of_ne_nil nonempty with ⟨d, rest, rfl⟩
    have hd : (d == unit '-') = false := by
      rw [beq_eq_false_iff_ne]
      rintro rfl
      exact absurd decimal (by simp [Text.isDigit, unit])
    rw [List.cons_append] at h
    simp [sign, readIndex, hd, h]

theorem exists_of_readIndex {r : Reading Step} (h : readIndex p t = .ok r) :
    ∃ (negative : Bool) (digits : Text), digits ≠ [] ∧ digits.all Text.isDigit = true ∧
      Text.toNat digits ≤ indexLimit ∧ t = sign negative ++ digits ++ r.rest ∧
      r.result = .index (.ofRatio negative (Text.toNat digits) 1) ∧
      r.position = p + (sign negative ++ digits).length := by
  rw [readIndex.eq_def] at h
  split at h
  · rcases exists_of_readDigits h with ⟨digits, nonempty, decimal, inRange, ht, hr, hp⟩
    exact ⟨false, digits, nonempty, decimal, inRange, ht, hr, hp⟩
  · next u rest =>
    split at h
    · next hu =>
      rcases exists_of_readDigits h with ⟨digits, nonempty, decimal, inRange, ht, hr, hp⟩
      rw [beq_iff_eq] at hu
      refine ⟨true, digits, nonempty, decimal, inRange, ?_, hr, ?_⟩
      · simp [sign, hu, ht]
      · simp [sign, hp, Nat.add_assoc, Nat.add_comm 1]
    · rcases exists_of_readDigits h with ⟨digits, nonempty, decimal, inRange, ht, hr, hp⟩
      exact ⟨false, digits, nonempty, decimal, inRange, ht, hr, hp⟩

theorem exists_of_readQuoted {quote : UInt16} {r : Reading Step}
    (h : readQuoted start quote t = .ok r) :
    ∃ key : Text, key.all (· != quote) = true ∧ t = key ++ quote :: r.rest ∧
      r.result = .key key ∧ r.position = start + key.length + 2 := by
  rw [readQuoted] at h
  have hstop := Text.stops_dropWhile (p := (· != quote)) (t := t)
  split at h
  · cases h
  · next u rest hrest =>
    cases h
    rw [hrest] at hstop
    obtain rfl : u = quote := by simpa using hstop
    refine ⟨t.takeWhile (· != u), List.all_takeWhile, ?_, rfl, rfl⟩
    calc t = t.takeWhile (· != u) ++ t.dropWhile (· != u) :=
          List.takeWhile_append_dropWhile.symm
      _ = _ := by rw [hrest]

theorem exists_of_readBare {r : Reading Step} (h : readBare p t = .ok r) :
    ∃ key : Text, key ≠ [] ∧ key.all isBareUnit = true ∧ t = key ++ r.rest ∧
      r.result = .key key ∧ r.position = p + key.length := by
  rw [readBare] at h
  split at h
  · cases h
  · next hne =>
    cases h
    exact ⟨t.takeWhile isBareUnit, by simpa using hne, List.all_takeWhile,
      List.takeWhile_append_dropWhile.symm, rfl, rfl⟩

/-! ## Brackets -/

theorem readContent_text (c : Content) (ht : Text.stops isBareUnit t = true) :
    readContent start p (c.text ++ t) = .ok ⟨c.step, p + c.text.length, t⟩ := by
  rcases c.exists_text_eq_cons with ⟨u, rest, hu, -, hc⟩
  cases c with
  | number negative digits nonempty decimal inRange =>
    have h := readIndex_text (p := p) negative nonempty decimal inRange
      (Text.stops_of_imp (fun _ => isBareUnit_of_isDigit) ht)
    rw [Content.text] at hu ⊢
    rw [hu, List.cons_append] at h
    rw [hu, List.cons_append, readContent, if_pos hc.1, h]
    rfl
  | quoted quote key hq inside =>
    have hstop : Text.stops (· != quote) (quote :: t) = true := by simp
    have hread : readQuoted p quote (key ++ quote :: t) =
        .ok ⟨.key key, p + key.length + 2, t⟩ := by
      rw [readQuoted, Text.dropWhile_append inside hstop, Text.takeWhile_append inside hstop]
    simp [Content.text, Content.step, readContent, isIndexStart_of_isQuote hq, hq, hread,
      Nat.add_assoc]
  | bare key standsBare =>
    have hall := all_of_isBareKey standsBare
    rw [Content.text] at hu
    subst hu
    simp only [Content.text, Content.step, List.cons_append, readContent, hc.1, hc.2,
      Bool.false_eq_true, if_false]
    rw [readBare, ← List.cons_append, Text.takeWhile_append hall ht, Text.dropWhile_append hall ht]
    rfl

theorem exists_of_readContent {r : Reading Step} (h : readContent start p t = .ok r) :
    ∃ c : Content, t = c.text ++ r.rest ∧ r.result = c.step ∧
      r.position = p + c.text.length := by
  rw [readContent.eq_def] at h
  split at h
  · cases h
  · next u rest =>
    split at h
    · rcases exists_of_readIndex h with ⟨negative, digits, nonempty, decimal, inRange, ht, hr, hp⟩
      exact ⟨.number negative digits nonempty decimal inRange, ht, hr, hp⟩
    · next hindex =>
      split at h
      · next hquote =>
        rcases exists_of_readQuoted h with ⟨key, inside, ht, hr, hp⟩
        refine ⟨.quoted u key hquote inside, ?_, hr, ?_⟩
        · simp [Content.text, ht]
        · simp [Content.text, hp, Nat.add_assoc]
      · next hquote =>
        rcases exists_of_readBare h with ⟨key, nonempty, hall, ht, hr, hp⟩
        rcases List.exists_cons_of_ne_nil nonempty with ⟨v, key, rfl⟩
        obtain rfl : u = v := (List.cons.inj ht).1
        have standsBare : isBareKey (u :: key) = true := by
          simp only [isBareKey, Bool.and_eq_true, Bool.not_eq_true']
          exact ⟨⟨Bool.eq_false_iff.2 hindex, Bool.eq_false_iff.2 hquote⟩, hall⟩
        exact ⟨.bare (u :: key) standsBare, ht, hr, hp⟩

theorem Accessor.text_append (a : Accessor) (t : Text) :
    a.text ++ t = unit '[' :: (a.before ++ (a.content.text ++ (a.after ++ unit ']' :: t))) := by
  simp [text, bracketed]

theorem readAccessor_text (a : Accessor) :
    readAccessor start (a.before ++ (a.content.text ++ (a.after ++ unit ']' :: t))) =
      .ok ⟨a.step, start + a.text.length, t⟩ := by
  have hclose : readClose start
      ⟨a.step, start + 1 + a.before.length + a.content.text.length, a.after ++ unit ']' :: t⟩ =
        .ok ⟨a.step, start + a.text.length, t⟩ := by
    rw [readClose, skipSpaces_append a.after_spaces rfl]
    simp [Accessor.text, bracketed]
    omega
  rw [readAccessor, skipSpaces_append a.before_spaces (a.content.stops_isSpace _)]
  simp only [readContent_text a.content (stops_isBareUnit a.after_spaces t)]
  exact hclose

theorem exists_of_readClose {r s : Reading Step} (h : readClose start r = .ok s) :
    ∃ after : Text, after.all isSpace = true ∧ r.rest = after ++ unit ']' :: s.rest ∧
      s.result = r.result ∧ s.position = r.position + after.length + 1 := by
  rcases exists_skipSpaces r.position r.rest with ⟨after, rest, hspaces, hsplit, hskip⟩
  rw [readClose, hskip] at h
  cases rest with
  | nil => cases h
  | cons u rest =>
    simp only at h
    split at h
    · next hu =>
      cases h
      rw [beq_iff_eq] at hu
      exact ⟨after, hspaces, by rw [hsplit, hu], rfl, rfl⟩
    · cases h

theorem exists_of_readAccessor {r : Reading Step} (h : readAccessor start t = .ok r) :
    ∃ a : Accessor, unit '[' :: t = a.text ++ r.rest ∧ r.result = a.step ∧
      r.position = start + a.text.length := by
  rcases exists_skipSpaces (start + 1) t with ⟨before, inner, before_spaces, hbefore, hskip⟩
  rw [readAccessor, hskip] at h
  rcases Outcome.bind_eq_ok.1 h with ⟨s, hcontent, hclose⟩
  rcases exists_of_readContent hcontent with ⟨content, htext, hstep, hend⟩
  rcases exists_of_readClose hclose with ⟨after, after_spaces, hafter, hsame, hlast⟩
  refine ⟨⟨before, content, after, before_spaces, after_spaces⟩, ?_, ?_, ?_⟩
  · rw [Accessor.text_append, hbefore, htext, hafter]
  · rw [hsame, hstep]
    rfl
  · rw [hlast, hend]
    simp [Accessor.text, bracketed]
    omega

/-! ## Steps -/

theorem readIdentifier_append {name : Text} (h : Text.isIdentifier name = true)
    (ht : Text.stops Text.isIdentifierPart t = true) :
    readIdentifier p (name ++ t) = .ok ⟨name, p + name.length, t⟩ := by
  cases name with
  | nil => cases h
  | cons u name =>
    simp only [Text.isIdentifier, Bool.and_eq_true] at h
    rw [List.cons_append, readIdentifier, if_pos h.1, Text.takeWhile_append h.2 ht,
      Text.dropWhile_append h.2 ht]

theorem exists_of_readIdentifier {r : Reading Text} (h : readIdentifier p t = .ok r) :
    Text.isIdentifier r.result = true ∧ t = r.result ++ r.rest ∧
      r.position = p + r.result.length := by
  cases t with
  | nil => cases h
  | cons u t =>
    rw [readIdentifier] at h
    split at h
    · next hu =>
      cases h
      refine ⟨?_, ?_, rfl⟩
      · simp [Text.isIdentifier, hu]
      · simp
    · cases h

theorem readSteps_accessor (a : Accessor) (limit p : Nat) (t : Text) :
    readSteps (limit + 1) true p (a.text ++ t) =
      (a.step :: ·) <$> readSteps limit true (p + a.text.length) t := by
  rw [a.text_append, readSteps, if_neg (by decide), if_pos (by decide), readAccessor_text]
  rfl

theorem readSteps_name {name : Text} (h : Text.isIdentifier name = true)
    (ht : Text.stops Text.isIdentifierPart t = true) (limit : Nat) (mayIndex : Bool) (p : Nat) :
    readSteps (limit + 1) mayIndex p (unit '.' :: (name ++ t)) =
      (.attribute name :: ·) <$> readSteps limit true (p + 1 + name.length) t := by
  rw [readSteps, if_pos (by decide), readIdentifier_append h ht]
  rfl

theorem readSteps_accessorText (as : List Accessor) {t : Text} {ss : List Step}
    (ht : ∀ limit p, t.length ≤ limit → readSteps limit true p t = .ok ss) (limit p : Nat)
    (hlimit : (accessorText as ++ t).length ≤ limit) :
    readSteps limit true p (accessorText as ++ t) = .ok (as.map Accessor.step ++ ss) := by
  induction as generalizing limit p with
  | nil => exact ht limit p hlimit
  | cons a as ih =>
    have htext : accessorText (a :: as) ++ t = a.text ++ (accessorText as ++ t) := by
      simp [accessorText]
    rw [htext, List.length_append] at hlimit
    have hpos : 0 < a.text.length := by simp [Accessor.text, bracketed]
    rcases Nat.exists_eq_succ_of_ne_zero (n := limit) (by omega) with ⟨limit, rfl⟩
    rw [htext, readSteps_accessor, ih limit _ (by omega)]
    rfl

/-- The text of parts is read step by step, whether or not an accessor may come first. -/
theorem readSteps_partText (ps : List Part) (limit : Nat) (mayIndex : Bool) (p : Nat)
    (hlimit : (partText ps).length ≤ limit) :
    readSteps limit mayIndex p (partText ps) = .ok (ps.flatMap Part.steps) := by
  induction ps generalizing limit mayIndex p with
  | nil => simp [partText, readSteps]
  | cons q ps ih =>
    have htext : partText (q :: ps) =
        unit '.' :: (q.name ++ (accessorText q.accessors ++ partText ps)) := by
      simp [partText, Part.text]
    rw [htext, List.length_cons, List.length_append] at hlimit
    rcases Nat.exists_eq_succ_of_ne_zero (n := limit) (by omega) with ⟨limit, rfl⟩
    rw [htext, readSteps_name q.isIdentifier (stops_isIdentifierPart_accessorText _ _),
      readSteps_accessorText q.accessors (fun l i h => ih l true i h) limit _ (by omega)]
    simp [Part.steps]

/-- What is read behind the first step is the text of accessors and parts. -/
theorem exists_of_readSteps {mayIndex : Bool} {ss : List Step}
    (h : readSteps limit mayIndex p t = .ok ss) : ∃ (as : List Accessor) (ps : List Part),
      t = accessorText as ++ partText ps ∧ ss = as.map Accessor.step ++ ps.flatMap Part.steps ∧
        (mayIndex = false → as = []) := by
  induction limit generalizing mayIndex p t ss with
  | zero =>
    cases t with
    | nil =>
      cases h
      exact ⟨[], [], rfl, rfl, fun _ => rfl⟩
    | cons u t => cases h
  | succ limit ih =>
    cases t with
    | nil =>
      cases h
      exact ⟨[], [], rfl, rfl, fun _ => rfl⟩
    | cons u t =>
      rw [readSteps] at h
      split at h
      · next hu =>
        rcases Outcome.bind_eq_ok.1 h with ⟨r, hread, h⟩
        rcases Outcome.bind_eq_ok.1 h with ⟨others, hothers, h⟩
        cases h
        rcases ih hothers with ⟨as, ps, hrest, rfl, -⟩
        rcases exists_of_readIdentifier hread with ⟨hname, ht, -⟩
        rw [beq_iff_eq] at hu
        refine ⟨[], ⟨r.result, as, hname⟩ :: ps, ?_, ?_, fun _ => rfl⟩
        · simp [accessorText, partText, Part.text, hu, ht, hrest]
        · simp [Part.steps]
      · split at h
        · next hu =>
          rcases Outcome.bind_eq_ok.1 h with ⟨r, hread, h⟩
          rcases Outcome.bind_eq_ok.1 h with ⟨others, hothers, h⟩
          cases h
          rcases ih hothers with ⟨as, ps, hrest, rfl, -⟩
          rcases exists_of_readAccessor hread with ⟨a, ht, hstep, -⟩
          rw [Bool.and_eq_true, beq_iff_eq] at hu
          refine ⟨a :: as, ps, ?_, ?_, ?_⟩
          · rw [hu.2, ht, hrest]
            simp [accessorText]
          · simp [hstep]
          · intro hfalse
            rw [hfalse] at hu
            exact absurd hu.1 (by decide)
        · cases h

/-! ## Paths -/

/-- The text of a derivation is read as the steps that it denotes. -/
theorem readPath_text (d : Derivation) : readPath d.text = .ok d.steps := by
  cases d with
  | accessor a ps =>
    rw [Derivation.text, a.text_append, readPath, if_pos (by decide), readAccessor_text]
    simp only [Outcome.ok_bind]
    rw [readSteps_partText ps _ false _ (Nat.le_refl _)]
    rfl
  | part q ps =>
    rcases q.exists_text_eq_cons with ⟨u, rest, hu, hstart, hbracket⟩
    have htext : (Derivation.part q ps).text =
        q.name ++ (accessorText q.accessors ++ partText ps) := by
      simp [Derivation.text, Part.text]
    have hread := readIdentifier_append (p := 0) q.isIdentifier
      (stops_isIdentifierPart_accessorText q.accessors ps)
    rw [← htext, Derivation.text, hu, List.cons_append] at hread
    rw [Derivation.text, hu, List.cons_append, readPath, hbracket, if_neg (by decide), hread]
    simp only [Outcome.ok_bind]
    rw [readSteps_accessorText q.accessors
      (fun l i h => readSteps_partText ps l true i h) _ _ (Nat.le_refl _)]
    simp [Derivation.steps, Part.steps]

/-- What is read as a path has a derivation. -/
theorem exists_of_readPath {ss : List Step} (h : readPath t = .ok ss) :
    ∃ d : Derivation, d.text = t ∧ d.steps = ss := by
  cases t with
  | nil => cases h
  | cons u t =>
    rw [readPath] at h
    split at h
    · next hu =>
      rcases Outcome.bind_eq_ok.1 h with ⟨r, hread, h⟩
      rcases Outcome.bind_eq_ok.1 h with ⟨others, hothers, h⟩
      cases h
      rcases exists_of_readAccessor hread with ⟨a, ht, hstep, -⟩
      rcases exists_of_readSteps hothers with ⟨as, ps, hrest, rfl, hnone⟩
      obtain rfl := hnone rfl
      rw [beq_iff_eq] at hu
      refine ⟨.accessor a ps, ?_, ?_⟩
      · rw [hu, ht, hrest]
        rfl
      · simp [Derivation.steps, hstep]
    · rcases Outcome.bind_eq_ok.1 h with ⟨r, hread, h⟩
      rcases Outcome.bind_eq_ok.1 h with ⟨others, hothers, h⟩
      cases h
      rcases exists_of_readIdentifier hread with ⟨hname, ht, -⟩
      rcases exists_of_readSteps hothers with ⟨as, ps, hrest, rfl, -⟩
      refine ⟨.part ⟨r.result, as, hname⟩ ps, ?_, ?_⟩
      · rw [ht, hrest]
        simp [Derivation.text, Part.text]
      · simp [Derivation.steps, Part.steps]

/-- A text with a derivation is not blank. -/
theorem trim_text_ne_nil (d : Derivation) : Text.trim d.text ≠ [] := by
  cases d with
  | accessor a ps => exact Text.trim_cons_ne_nil (by decide) _
  | part q ps =>
    rcases q.exists_text_eq_cons with ⟨u, rest, hu, hstart, -⟩
    rw [Derivation.text, hu]
    exact Text.trim_cons_ne_nil (Text.isBlank_of_isIdentifierStart hstart) _

theorem read_text (d : Derivation) : read d.text = .ok d.steps := by
  rw [read, steps, List.isEmpty_eq_false_iff.2 (trim_text_ne_nil d), readPath_text]
  rfl

theorem exists_of_read {ss : List Step} (h : read t = .ok ss) :
    ∃ d : Derivation, d.text = t ∧ d.steps = ss := by
  rw [read, Outcome.mapError_eq_ok, steps] at h
  split at h
  · cases h
  · exact exists_of_readPath h

/-- Reading a path fails with an error of the path itself. -/
theorem exists_path_of_read_error {f : Failure} (h : read t = .error f) :
    ∃ problem, f = .path problem t := by
  rw [read] at h
  cases hs : steps t with
  | ok ss => rw [hs] at h; cases h
  | error problem =>
    rw [hs] at h
    cases h
    exact ⟨problem, rfl⟩

/-- A text is read as steps exactly if a derivation of it denotes them. No text has two
derivations, and a text without one is refused with an error of the path. -/
theorem read_derivation (t : Text) :
    (∀ ss : List Step, read t = .ok ss ↔ ∃ d : Derivation, d.text = t ∧ d.steps = ss) ∧
      (∀ d e : Derivation, d.text = t → e.text = t → d = e) ∧
      ((¬∃ d : Derivation, d.text = t) → ∃ problem, read t = .error (.path problem t)) := by
  refine ⟨fun ss => ⟨exists_of_read, ?_⟩, ?_, ?_⟩
  · rintro ⟨d, rfl, rfl⟩
    exact read_text d
  · intro d e hd he
    exact Derivation.text_injective (hd.trans he.symm)
  · intro hnone
    cases hread : read t with
    | ok ss =>
      rcases exists_of_read hread with ⟨d, hd, -⟩
      exact absurd ⟨d, hd⟩ hnone
    | error f =>
      rcases exists_path_of_read_error hread with ⟨problem, rfl⟩
      exact ⟨problem, rfl⟩

end TreeExtraction.Path
