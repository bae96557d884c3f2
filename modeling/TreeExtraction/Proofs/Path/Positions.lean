import TreeExtraction.Proofs.Path.Lookahead

/-! # Positions of problems

A text that is no path is refused with a problem, and the position of the problem says where the
text goes wrong. The units before it can be extended to a path. An open bracket or string is
reported where it opens, and the whole text can be extended to a path. All other problems, but for
an index out of range, are reported at the end of the text or at the first unit with which no path
goes on.
-/

namespace TreeExtraction.Path

variable {t w s rest : Text} {start p limit : Nat} {e : PathProblem}

/-- Whether a text is read as a path. -/
def IsPath (t : Text) : Prop :=
  ∃ ss, read t = .ok ss

/-- Whether a text can be extended to a path. -/
def BeginsPath (t : Text) : Prop :=
  ∃ s, IsPath (t ++ s)

/-- Whether a text can be extended to an accessor. -/
def BeginsAccessor (t : Text) : Prop :=
  ∃ (a : Accessor) (s : Text), a.text = t ++ s

/-- Whether a text can be extended to what stands in brackets. -/
def BeginsContent (t : Text) : Prop :=
  ∃ (c : Content) (s : Text), c.text = t ++ s

theorem isPath_text (d : Derivation) : IsPath d.text :=
  ⟨d.steps, read_text d⟩

theorem IsPath.beginsPath (h : IsPath t) : BeginsPath t :=
  ⟨[], by rwa [List.append_nil]⟩

/-- The content `0`. -/
def zero : Content :=
  .number false [unit '0'] (List.cons_ne_nil _ _) (by decide) (by decide)

theorem beginsContent_nil : BeginsContent [] :=
  ⟨zero, zero.text, rfl⟩

theorem beginsContent_minus : BeginsContent [unit '-'] :=
  ⟨.number true [unit '0'] (List.cons_ne_nil _ _) (by decide) (by decide), [unit '0'], rfl⟩

/-- A bracket and what begins its content begin an accessor. -/
theorem BeginsContent.beginsAccessor (h : BeginsContent t) {before : Text}
    (hbefore : before.all isSpace = true) : BeginsAccessor (unit '[' :: (before ++ t)) := by
  obtain ⟨c, s, hc⟩ := h
  refine ⟨⟨before, c, [], hbefore, rfl⟩, s ++ [unit ']'], ?_⟩
  simp [Accessor.text, bracketed, hc]

theorem beginsAccessor_of_content (c : Content) {before after : Text}
    (hbefore : before.all isSpace = true) (hafter : after.all isSpace = true) :
    BeginsAccessor (unit '[' :: (before ++ (c.text ++ after))) :=
  ⟨⟨before, c, after, hbefore, hafter⟩, [unit ']'], by simp [Accessor.text, bracketed]⟩

/-! ## Problems in brackets -/

/-- Whether a problem is that something is not closed. -/
def isOpen : PathProblem → Bool
  | .openBracket _ | .openString _ => true
  | _ => false

/-- How a text at a position fails to be the content of brackets that open at `start`: it is empty,
or it is a string that is not closed, or the problem is found behind units that begin content. -/
inductive ContentFault (start p : Nat) : Text → PathProblem → Prop where
  | bracket : ContentFault start p [] (.openBracket start)
  | string {quote : UInt16} {key : Text} (hquote : isQuote quote = true)
      (inside : key.all (· != quote) = true) : ContentFault start p (quote :: key) (.openString p)
  | inside {w s : Text} {e : PathProblem} (hbegins : BeginsContent w)
      (hposition : e.position = p + w.length) (hopen : isOpen e = false) :
      ContentFault start p (w ++ s) e

/-- How a text fails to be an accessor behind the bracket that opens at `start`. -/
inductive AccessorFault (start : Nat) : Text → PathProblem → Prop where
  | bracket {t : Text} (hbegins : BeginsAccessor (unit '[' :: t)) :
      AccessorFault start t (.openBracket start)
  | string {spaces key : Text} {quote : UInt16} (hspaces : spaces.all isSpace = true)
      (hquote : isQuote quote = true) (inside : key.all (· != quote) = true) :
      AccessorFault start (spaces ++ quote :: key) (.openString (start + 1 + spaces.length))
  | inside {w s : Text} {e : PathProblem} (hbegins : BeginsAccessor (unit '[' :: w))
      (hposition : e.position = start + 1 + w.length) (hopen : isOpen e = false) :
      AccessorFault start (w ++ s) e

theorem readDigits_eq_error {negative : Bool} (h : readDigits start negative p t = .error e) :
    e = .noDigit p ∨ ∃ numeral, e = .indexRange numeral start := by
  rw [readDigits] at h
  split at h
  · cases h
    exact .inl rfl
  · split at h
    · cases h
      exact .inr ⟨_, rfl⟩
    · cases h

theorem contentFault_of_readIndex {u : UInt16} (h : readIndex p (u :: t) = .error e) :
    ContentFault start p (u :: t) e := by
  have hfirst {e : PathProblem} (hposition : e.position = p) (hopen : isOpen e = false) :
      ContentFault start p (u :: t) e :=
    .inside (w := []) beginsContent_nil hposition hopen
  rw [readIndex] at h
  split at h
  · next hu =>
    obtain rfl := beq_iff_eq.1 hu
    rcases readDigits_eq_error h with rfl | ⟨numeral, rfl⟩
    · exact .inside (w := [unit '-']) beginsContent_minus rfl rfl
    · exact hfirst rfl rfl
  · rcases readDigits_eq_error h with rfl | ⟨numeral, rfl⟩
    · exact hfirst rfl rfl
    · exact hfirst rfl rfl

theorem contentFault_of_readContent (h : readContent start p t = .error e) :
    ContentFault start p t e := by
  cases t with
  | nil =>
    cases h
    exact .bracket
  | cons u t =>
    rw [readContent] at h
    split at h
    · exact contentFault_of_readIndex h
    · split at h
      · next hquote =>
        rw [readQuoted] at h
        split at h
        · next hrest =>
          cases h
          rw [List.dropWhile_eq_nil_iff] at hrest
          exact .string hquote (List.all_eq_true.2 hrest)
        · cases h
      · rw [readBare] at h
        split at h
        · cases h
          exact .inside (w := []) beginsContent_nil rfl rfl
        · cases h

theorem readClose_eq_error {r : Reading Step} (h : readClose start r = .error e) :
    ∃ after rest, r.rest = after ++ rest ∧ after.all isSpace = true ∧
      (rest = [] ∧ e = .openBracket start ∨ ∃ u, e = .noBracket u (r.position + after.length)) := by
  obtain ⟨after, rest, hafter, hsplit, hskip⟩ := exists_skipSpaces r.position r.rest
  rw [readClose, hskip] at h
  refine ⟨after, rest, hsplit, hafter, ?_⟩
  cases rest with
  | nil =>
    cases h
    exact .inl ⟨rfl, rfl⟩
  | cons u rest =>
    simp only at h
    split at h
    · cases h
    · cases h
      exact .inr ⟨u, rfl⟩

/-- A bracket that is not read as an accessor fails in one of these ways. -/
theorem accessorFault_of_readAccessor (h : readAccessor start t = .error e) :
    AccessorFault start t e := by
  obtain ⟨before, inner, hbefore, hsplit, hskip⟩ := exists_skipSpaces (start + 1) t
  rw [readAccessor, hskip] at h
  rcases Outcome.bind_eq_error.1 h with hcontent | ⟨r, hcontent, hclose⟩
  · rw [hsplit]
    cases contentFault_of_readContent hcontent with
    | bracket => exact .bracket (beginsContent_nil.beginsAccessor hbefore)
    | string hquote inside => exact .string hbefore hquote inside
    | inside hbegins hposition hopen =>
      rw [← List.append_assoc]
      refine .inside (hbegins.beginsAccessor hbefore) ?_ hopen
      rw [hposition, List.length_append, Nat.add_assoc _ before.length]
  · obtain ⟨c, htext, -, hend⟩ := exists_of_readContent hcontent
    obtain ⟨after, rest, hrest, hafter, hcases⟩ := readClose_eq_error hclose
    have hbegins := beginsAccessor_of_content c hbefore hafter
    have hsplit : t = (before ++ (c.text ++ after)) ++ rest := by
      rw [hsplit, htext, hrest]
      simp
    rcases hcases with ⟨rfl, rfl⟩ | ⟨u, rfl⟩
    · rw [List.append_nil] at hsplit
      exact .bracket (hsplit ▸ hbegins)
    · rw [hsplit]
      refine .inside hbegins ?_ rfl
      simp only [PathProblem.position, hend, List.length_append]
      omega

/-! ## Problems behind a path -/

/-- How a text fails to go on behind what has been read: with a unit that starts nothing, with a
point and no identifier behind it, or with a bracket that is no accessor. -/
inductive StepFault (mayIndex : Bool) (p : Nat) : Text → PathProblem → Prop where
  | unexpected (u : UInt16) (rest : Text) : StepFault mayIndex p (u :: rest) (.unexpected u p)
  | identifier (rest : Text) (found : Option UInt16) :
      StepFault mayIndex p (unit '.' :: rest) (.noIdentifier found (p + 1))
  | accessor {rest : Text} {e : PathProblem} (hindex : mayIndex = true)
      (h : readAccessor p rest = .error e) : StepFault mayIndex p (unit '[' :: rest) e

theorem readIdentifier_eq_error (h : readIdentifier p t = .error e) :
    ∃ found, e = .noIdentifier found p := by
  cases t with
  | nil =>
    cases h
    exact ⟨none, rfl⟩
  | cons u t =>
    rw [readIdentifier] at h
    split at h
    · cases h
    · cases h
      exact ⟨some u, rfl⟩

/-- Steps are read up to where they fail: accessors and parts, and a fault behind them. -/
theorem exists_of_readSteps_error {mayIndex : Bool} (hlimit : t.length ≤ limit)
    (h : readSteps limit mayIndex p t = .error e) :
    ∃ (as : List Accessor) (ps : List Part) (rest : Text),
      t = accessorText as ++ (partText ps ++ rest) ∧ (mayIndex = false → as = []) ∧
        StepFault (mayIndex || !ps.isEmpty) (p + (accessorText as ++ partText ps).length)
          rest e := by
  induction limit generalizing mayIndex p t with
  | zero =>
    obtain rfl := List.eq_nil_of_length_eq_zero (Nat.le_zero.1 hlimit)
    cases h
  | succ limit ih =>
    cases t with
    | nil => cases h
    | cons u t =>
      rw [List.length_cons, Nat.add_le_add_iff_right] at hlimit
      rw [readSteps] at h
      split at h
      · next hu =>
        obtain rfl := beq_iff_eq.1 hu
        rcases Outcome.bind_eq_error.1 h with hname | ⟨r, hname, h⟩
        · obtain ⟨found, rfl⟩ := readIdentifier_eq_error hname
          exact ⟨[], [], _, rfl, fun _ => rfl, .identifier t found⟩
        · obtain ⟨hidentifier, htext, hend⟩ := exists_of_readIdentifier hname
          have hothers := Outcome.map_eq_error.1 h
          have hle : r.rest.length ≤ limit := by
            rw [htext, List.length_append] at hlimit
            omega
          obtain ⟨as, ps, rest, hrest, -, hfault⟩ := ih hle hothers
          have hposition : r.position + (accessorText as ++ partText ps).length =
              p + (accessorText [] ++ partText (⟨r.result, as, hidentifier⟩ :: ps)).length := by
            simp [accessorText, partText, Part.text, hend]
            omega
          refine ⟨[], ⟨r.result, as, hidentifier⟩ :: ps, rest, ?_, fun _ => rfl, ?_⟩
          · simp [accessorText, partText, Part.text, htext, hrest]
          · rw [← hposition]
            simpa using hfault
      · split at h
        · next hu =>
          rw [Bool.and_eq_true, beq_iff_eq] at hu
          obtain ⟨rfl, rfl⟩ := hu
          rcases Outcome.bind_eq_error.1 h with haccessor | ⟨r, haccessor, h⟩
          · exact ⟨[], [], _, rfl, fun _ => rfl, .accessor rfl haccessor⟩
          · obtain ⟨a, htext, -, hend⟩ := exists_of_readAccessor haccessor
            have hothers := Outcome.map_eq_error.1 h
            have hle : r.rest.length ≤ limit := by
              have hlength := congrArg List.length htext
              simp only [a.text_append, List.length_cons, List.length_append] at hlength
              omega
            obtain ⟨as, ps, rest, hrest, -, hfault⟩ := ih hle hothers
            have hposition : r.position + (accessorText as ++ partText ps).length =
                p + (accessorText (a :: as) ++ partText ps).length := by
              simp [accessorText, hend]
              omega
            refine ⟨a :: as, ps, rest, ?_, fun hfalse => absurd hfalse (by decide), ?_⟩
            · rw [htext, hrest]
              simp [accessorText]
            · rw [← hposition]
              exact hfault
        · cases h
          exact ⟨[], [], _, rfl, fun _ => rfl, .unexpected u t⟩

/-- Whether an accessor may follow the text of a derivation. -/
def Derivation.mayIndex : Derivation → Bool
  | .accessor _ ps => !ps.isEmpty
  | .part _ _ => true

/-- An accessor behind a part belongs to it. -/
theorem Part.exists_text_append (q : Part) (a : Accessor) :
    ∃ q' : Part, q'.text = q.text ++ a.text :=
  ⟨⟨q.name, q.accessors ++ [a], q.isIdentifier⟩, by simp [text, accessorText]⟩

theorem exists_partText_append {ps : List Part} (h : ps ≠ []) (a : Accessor) :
    ∃ ps', partText ps' = partText ps ++ a.text := by
  obtain ⟨qs, q, rfl⟩ := List.eq_nil_or_concat ps |>.resolve_left h
  obtain ⟨q', hq'⟩ := q.exists_text_append a
  exact ⟨qs ++ [q'], by simp [partText, hq']⟩

theorem isPath_append_accessor (d : Derivation) (h : d.mayIndex = true) (a : Accessor) :
    IsPath (d.text ++ a.text) := by
  have hparts {ps : List Part} (hps : ps ≠ []) (first : Text) (f : List Part → Derivation)
      (hf : ∀ ps, (f ps).text = first ++ partText ps) : IsPath ((f ps).text ++ a.text) := by
    obtain ⟨ps', hps'⟩ := exists_partText_append hps a
    rw [hf, List.append_assoc, ← hps', ← hf]
    exact isPath_text _
  cases d with
  | accessor first ps =>
    have hps : ps ≠ [] := by simpa [Derivation.mayIndex] using h
    exact hparts hps _ (.accessor first) fun _ => rfl
  | part first ps =>
    by_cases hps : ps = []
    · obtain ⟨q, hq⟩ := first.exists_text_append a
      have htext : (Derivation.part q []).text = (Derivation.part first ps).text ++ a.text := by
        simp [Derivation.text, partText, hps, hq]
      rw [← htext]
      exact isPath_text _
    · exact hparts hps _ (.part first) fun _ => rfl

/-- The part `a`. -/
def letter : Part :=
  ⟨units "a", [], by decide⟩

theorem beginsPath_nil : BeginsPath [] :=
  ⟨_, isPath_text (.part letter [])⟩

/-- Behind the text of a derivation a point begins a part. -/
theorem beginsPath_append_point (d : Derivation) : BeginsPath (d.text ++ [unit '.']) := by
  have hpart (ps : List Part) :
      partText (ps ++ [letter]) = partText ps ++ ([unit '.'] ++ letter.text) := by
    simp [partText]
  refine ⟨letter.text, ?_⟩
  rw [List.append_assoc]
  cases d with
  | accessor first ps =>
    rw [Derivation.text, List.append_assoc, ← hpart]
    exact isPath_text (.accessor first (ps ++ [letter]))
  | part first ps =>
    rw [Derivation.text, List.append_assoc, ← hpart]
    exact isPath_text (.part first (ps ++ [letter]))

/-- A path fails at its start, in a bracket that leads it, or behind a path. -/
theorem exists_of_readPath_error (h : readPath t = .error e) :
    (∃ found, e = .noIdentifier found 0) ∨
      (∃ rest, t = unit '[' :: rest ∧ readAccessor 0 rest = .error e) ∨
      ∃ (d : Derivation) (rest : Text), t = d.text ++ rest ∧
        StepFault d.mayIndex d.text.length rest e := by
  cases t with
  | nil =>
    cases h
    exact .inl ⟨none, rfl⟩
  | cons u t =>
    rw [readPath] at h
    split at h
    · next hu =>
      obtain rfl := beq_iff_eq.1 hu
      rcases Outcome.bind_eq_error.1 h with haccessor | ⟨r, haccessor, h⟩
      · exact .inr (.inl ⟨t, rfl, haccessor⟩)
      · obtain ⟨a, htext, -, hend⟩ := exists_of_readAccessor haccessor
        obtain ⟨as, ps, rest, hrest, hnone, hfault⟩ :=
          exists_of_readSteps_error (Nat.le_refl _) (Outcome.map_eq_error.1 h)
        obtain rfl := hnone rfl
        refine .inr (.inr ⟨.accessor a ps, rest, ?_, ?_⟩)
        · rw [htext, hrest]
          simp [Derivation.text, accessorText]
        · have hposition : r.position + (accessorText [] ++ partText ps).length =
              (Derivation.accessor a ps).text.length := by
            simp [Derivation.text, accessorText, hend]
          rw [← hposition]
          exact hfault
    · rcases Outcome.bind_eq_error.1 h with hname | ⟨r, hname, h⟩
      · obtain ⟨found, rfl⟩ := readIdentifier_eq_error hname
        exact .inl ⟨found, rfl⟩
      · obtain ⟨hidentifier, htext, hend⟩ := exists_of_readIdentifier hname
        obtain ⟨as, ps, rest, hrest, -, hfault⟩ :=
          exists_of_readSteps_error (Nat.le_refl _) (Outcome.map_eq_error.1 h)
        refine .inr (.inr ⟨.part ⟨r.result, as, hidentifier⟩ ps, rest, ?_, ?_⟩)
        · rw [htext, hrest]
          simp [Derivation.text, Part.text]
        · have hposition : r.position + (accessorText as ++ partText ps).length =
              (Derivation.part ⟨r.result, as, hidentifier⟩ ps).text.length := by
            simp [Derivation.text, Part.text, hend]
          rw [← hposition]
          exact hfault

/-! ## Positions -/

/-- Whether an opening bracket at a position stands at the start or behind a path, and no accessor
closes it. -/
def IsOpenBracket (t : Text) (p : Nat) : Prop :=
  ∃ w rest : Text, t = w ++ unit '[' :: rest ∧ w.length = p ∧ (w = [] ∨ IsPath w) ∧
    ∀ (a : Accessor) (s : Text), a.text ++ s ≠ unit '[' :: rest

/-- Whether a quote at a position opens the content of brackets and is not found again. -/
def IsOpenString (t : Text) (p : Nat) : Prop :=
  ∃ (w spaces key : Text) (quote : UInt16), t = (w ++ unit '[' :: spaces) ++ quote :: key ∧
    (w ++ unit '[' :: spaces).length = p ∧ (w = [] ∨ IsPath w) ∧ spaces.all isSpace = true ∧
    isQuote quote = true ∧ key.all (· != quote) = true

/-- Whether a text is good up to the position of a problem, and to its end if something is not
closed. -/
structure IsGoodUntil (t : Text) (e : PathProblem) : Prop where
  le_length : e.position ≤ t.length
  beginsPath : BeginsPath (t.take e.position)
  openBracket : ∀ p, e = .openBracket p → IsOpenBracket t p ∧ BeginsPath t
  openString : ∀ p, e = .openString p → IsOpenString t p ∧ BeginsPath t

/-- Whether a problem is reported where a text goes wrong: the text is good until there, and a
problem that is reported where reading stops is found at the end of the text or at a unit with which
no path goes on. -/
structure IsLocated (t : Text) (e : PathProblem) : Prop extends IsGoodUntil t e where
  impossible : e.isImmediate = true →
    e.position = t.length ∨ ¬BeginsPath (t.take (e.position + 1))

theorem IsGoodUntil.of_append (hlength : w.length = e.position) (hbegins : BeginsPath w)
    (hbracket : ∀ p, e = .openBracket p → IsOpenBracket (w ++ s) p ∧ BeginsPath (w ++ s))
    (hstring : ∀ p, e = .openString p → IsOpenString (w ++ s) p ∧ BeginsPath (w ++ s)) :
    IsGoodUntil (w ++ s) e where
  le_length := by
    rw [List.length_append]
    omega
  beginsPath := by rwa [← hlength, List.take_left]
  openBracket := hbracket
  openString := hstring

theorem IsGoodUntil.of_not_isOpen (hopen : isOpen e = false) (hlength : w.length = e.position)
    (hbegins : BeginsPath w) : IsGoodUntil (w ++ s) e := by
  refine .of_append hlength hbegins ?_ ?_
  · rintro p rfl
    cases hopen
  · rintro p rfl
    cases hopen

/-- Where an accessor may stand, what begins an accessor goes on to a path. -/
theorem BeginsAccessor.beginsPath (h : BeginsAccessor t)
    (hfollow : ∀ a : Accessor, IsPath (w ++ a.text)) : BeginsPath (w ++ t) := by
  obtain ⟨a, s, ha⟩ := h
  exact ⟨s, by rw [List.append_assoc, ← ha]; exact hfollow a⟩

/-- A bracket that is no accessor, where one may stand. -/
theorem isGoodUntil_of_readAccessor (hw : w = [] ∨ IsPath w)
    (hfollow : ∀ a : Accessor, IsPath (w ++ a.text)) (h : readAccessor w.length rest = .error e) :
    IsGoodUntil (w ++ unit '[' :: rest) e := by
  cases accessorFault_of_readAccessor h with
  | bracket hbegins =>
    have hopen : IsOpenBracket (w ++ unit '[' :: rest) w.length := by
      refine ⟨w, rest, rfl, rfl, hw, fun a s ha => ?_⟩
      rw [a.text_append] at ha
      rw [← (List.cons.inj ha).2, readAccessor_text] at h
      cases h
    refine .of_append rfl ⟨_, hfollow ⟨[], zero, [], rfl, rfl⟩⟩ ?_ nofun
    rintro _ ⟨⟩
    exact ⟨hopen, hbegins.beginsPath hfollow⟩
  | @string spaces key quote hspaces hquote inside =>
    have hbegins : BeginsAccessor (unit '[' :: spaces) := by
      have hnil := beginsContent_nil.beginsAccessor hspaces
      rwa [List.append_nil] at hnil
    have hwhole : BeginsContent (quote :: key) :=
      ⟨.quoted quote key hquote inside, [quote], rfl⟩
    have hsplit : w ++ unit '[' :: (spaces ++ quote :: key) =
        (w ++ unit '[' :: spaces) ++ quote :: key := by simp
    have hlength : (w ++ unit '[' :: spaces).length = w.length + 1 + spaces.length := by
      simp
      omega
    have hpath : BeginsPath (w ++ unit '[' :: (spaces ++ quote :: key)) :=
      (hwhole.beginsAccessor hspaces).beginsPath hfollow
    rw [hsplit] at hpath ⊢
    refine .of_append hlength (hbegins.beginsPath hfollow) nofun ?_
    rintro _ ⟨⟩
    exact ⟨⟨w, spaces, key, quote, rfl, hlength, hw, hspaces, hquote, inside⟩, hpath⟩
  | @inside v s _ hbegins hposition hopen =>
    have hsplit : w ++ unit '[' :: (v ++ s) = (w ++ unit '[' :: v) ++ s := by simp
    have hlength : (w ++ unit '[' :: v).length = e.position := by
      rw [hposition]
      simp
      omega
    rw [hsplit]
    refine .of_append hlength (hbegins.beginsPath hfollow) ?_ ?_
    · rintro _ rfl
      cases hopen
    · rintro _ rfl
      cases hopen

/-- Reading a path goes on up to the position of its problem. -/
theorem isGoodUntil_of_readPath (h : readPath t = .error e) : IsGoodUntil t e := by
  rcases exists_of_readPath_error h with
    ⟨found, rfl⟩ | ⟨rest, rfl, haccessor⟩ | ⟨d, rest, rfl, hfault⟩
  · exact .of_not_isOpen (w := []) rfl rfl beginsPath_nil
  · have hfollow (a : Accessor) : IsPath ([] ++ a.text) := by
      simpa [Derivation.text, partText] using isPath_text (.accessor a [])
    exact isGoodUntil_of_readAccessor (w := []) (.inl rfl) hfollow haccessor
  · cases hfault with
    | unexpected u rest => exact .of_not_isOpen rfl rfl (isPath_text d).beginsPath
    | identifier rest found =>
      have hsplit : d.text ++ unit '.' :: rest = (d.text ++ [unit '.']) ++ rest := by simp
      rw [hsplit]
      exact .of_not_isOpen rfl (by simp [PathProblem.position]) (beginsPath_append_point d)
    | accessor hindex haccessor =>
      exact isGoodUntil_of_readAccessor (.inr (isPath_text d)) (isPath_append_accessor d hindex)
        haccessor

theorem readPath_of_isPath (h : IsPath t) : ∃ ss, readPath t = .ok ss := by
  obtain ⟨ss, hread⟩ := h
  obtain ⟨d, rfl, rfl⟩ := exists_of_read hread
  exact ⟨d.steps, readPath_text d⟩

/-- No path goes on with the unit at which a problem is found. -/
theorem not_beginsPath_of_readPath (h : readPath t = .error e) (himm : e.isImmediate = true)
    (hlt : e.position < t.length) : ¬BeginsPath (t.take (e.position + 1)) := by
  rintro ⟨s, hpath⟩
  obtain ⟨ss, hread⟩ := readPath_of_isPath hpath
  rw [← List.take_append_drop (e.position + 1) t] at h
  have hsame := failsAhead_readPath.error h himm (by rw [List.length_take]; omega) s
  rw [hsame] at hread
  cases hread

theorem isLocated_of_readPath (h : readPath t = .error e) : IsLocated t e where
  toIsGoodUntil := isGoodUntil_of_readPath h
  impossible himm := by
    rcases Nat.eq_or_lt_of_le (isGoodUntil_of_readPath h).le_length with heq | hlt
    · exact .inl heq
    · exact .inr (not_beginsPath_of_readPath h himm hlt)

/-- A text that starts with a blank fails there. -/
theorem readPath_of_isBlank {u : UInt16} (hu : Text.isBlank u = true) (t : Text) :
    readPath (u :: t) = .error (.noIdentifier (some u) 0) := by
  have hbracket : (u == unit '[') = false := by
    rw [beq_eq_false_iff_ne]
    rintro rfl
    exact absurd hu (by decide)
  have hstart : Text.isIdentifierStart u = false := by
    cases hs : Text.isIdentifierStart u with
    | false => rfl
    | true => rw [Text.isBlank_of_isIdentifierStart hs] at hu; cases hu
  rw [readPath, hbracket, if_neg Bool.false_ne_true, readIdentifier, hstart,
    if_neg Bool.false_ne_true]
  rfl

/-- A blank text fails at its first unit or, if it has none, at its end. -/
theorem isLocated_empty (h : Text.trim t = []) : IsLocated t .empty where
  toIsGoodUntil := .of_not_isOpen (w := []) rfl rfl beginsPath_nil
  impossible _ := by
    cases t with
    | nil => exact .inl rfl
    | cons u t =>
      have hblank : Text.isBlank u = true := by
        by_contra hu
        exact Text.trim_cons_ne_nil (Bool.eq_false_iff.2 hu) t h
      have hfirst := readPath_of_isBlank hblank t
      have hnone := not_beginsPath_of_readPath hfirst rfl (Nat.zero_lt_succ _)
      exact .inr hnone

/-- A text is a path, or its problem is reported where the text goes wrong. -/
theorem isPath_or_isLocated (t : Text) :
    IsPath t ∨ ∃ e, read t = .error (.path e t) ∧ IsLocated t e := by
  cases hsteps : steps t with
  | ok ss => exact .inl ⟨ss, by rw [read, hsteps]; rfl⟩
  | error e =>
    refine .inr ⟨e, by rw [read, hsteps]; rfl, ?_⟩
    rw [steps] at hsteps
    split at hsteps
    · next hempty =>
      cases hsteps
      exact isLocated_empty (List.isEmpty_iff.1 hempty)
    · exact isLocated_of_readPath hsteps

end TreeExtraction.Path
