import TreeExtraction.Proofs.Glob.Expression

/-! # What glob patterns match

The parts of a search pattern hand on the place where they end, so whether what follows a part
matches there can depend on the text behind that place only. Each piece of a glob pattern then adds
what it describes itself, a star every run of units from the longest on. As a search pattern begins
with the start of the text, it is tried at the first place with success or not at all.
-/

namespace TreeExtraction.Glob

open Pattern

section Pieces

variable {k : Continuation} {good : Text → Prop} {p : Piece} {ps : List Piece} {t : Text}

/-- Whether what happens behind a place succeeds just for some texts behind it. -/
def SucceedsOn (k : Continuation) (good : Text → Prop) : Prop :=
  ∀ q : Place, (k q).isSome ↔ good q.after

theorem succeedsOn_step {test : UInt16 → Bool} (hk : SucceedsOn k good) :
    SucceedsOn (fun q => (q.step true test).bind k) fun t =>
      ∃ u rest, t = u :: rest ∧ test u = true ∧ good rest := by
  rintro ⟨before, after, taken⟩
  cases after with
  | nil => simp [Place.step]
  | cons u rest =>
    cases htest : test u with
    | false => simp [Place.step, htest]
    | true => simp [Place.step, htest, hk _]

/-- The rounds of a star take every run of units. -/
theorem isSome_rounds_iff (hk : SucceedsOn k good) {first next limit : Nat} {q : Place}
    (hlimit : q.after.length ≤ limit) :
    (rounds (fun q k' => Node.anyUnit.run true q k') true first next limit 0 none q k).isSome ↔
      ∃ run rest, q.after = run ++ rest ∧ good rest := by
  induction limit generalizing q with
  | zero =>
    have hafter : q.after = [] := List.length_eq_zero_iff.1 (Nat.le_zero.1 hlimit)
    rw [rounds, hk q, hafter]
    simp
  | succ limit ih =>
    obtain ⟨before, after, taken⟩ := q
    cases after with
    | nil =>
      have hround : rounds (fun q k' => Node.anyUnit.run true q k') true first next (limit + 1) 0
          none ⟨before, [], taken⟩ k = k ⟨before, [], taken⟩ := rfl
      rw [hround, hk]
      simp
    | cons u after =>
      -- A round takes a unit, so it is never one that takes nothing.
      have hround : rounds (fun q k' => Node.anyUnit.run true q k') true first next (limit + 1) 0
          none ⟨before, u :: after, taken⟩ k =
        (rounds (fun q k' => Node.anyUnit.run true q k') true first next limit 0 none
          ⟨u :: before, after, (Place.forget ⟨before, u :: after, taken⟩ first next).taken⟩ k).or
            (k ⟨before, u :: after, taken⟩) := by
        simp [rounds, Node.run, Place.step, Place.forget]
      rw [hround, Option.isSome_or, Bool.or_eq_true, ih (by simpa using hlimit), hk]
      constructor
      · rintro (⟨run, rest, hcut, hgood⟩ | hgood)
        · exact ⟨u :: run, rest, congrArg (u :: ·) hcut, hgood⟩
        · exact ⟨[], u :: after, rfl, hgood⟩
      · rintro ⟨_ | ⟨v, run⟩, rest, hcut, hgood⟩
        · exact .inr (hcut ▸ hgood)
        · exact .inl ⟨run, rest, (List.cons.inj hcut).2, hgood⟩

/-! ## Pieces -/

theorem describes_star_iff :
    Describes (.star :: ps) t ↔ ∃ run rest, t = run ++ rest ∧ Describes ps rest := by
  constructor
  · intro h
    cases h with
    | star h => exact ⟨_, _, rfl, h⟩
  · rintro ⟨run, rest, rfl, h⟩
    exact .star h

theorem describes_any_iff :
    Describes (.any :: ps) t ↔ ∃ u rest, t = u :: rest ∧ Describes ps rest := by
  constructor
  · intro h
    cases h with
    | any h => exact ⟨_, _, rfl, h⟩
  · rintro ⟨u, rest, rfl, h⟩
    exact .any h

theorem describes_literal_iff {u : UInt16} :
    Describes (.literal u :: ps) t ↔ ∃ rest, t = u :: rest ∧ Describes ps rest := by
  constructor
  · intro h
    cases h with
    | literal h => exact ⟨_, rfl, h⟩
  · rintro ⟨rest, rfl, h⟩
    exact .literal h

theorem describes_set_iff {negated : Bool} {members : Text} :
    Describes (.set negated members :: ps) t ↔
      ∃ u rest, t = u :: rest ∧ (IsMember u members ↔ negated = false) ∧ Describes ps rest := by
  constructor
  · intro h
    cases h with
    | set hu h => exact ⟨_, _, rfl, hu, h⟩
  · rintro ⟨u, rest, rfl, hu, h⟩
    exact .set hu h

theorem classHas_iff {negated : Bool} {members : Text} {u : UInt16} :
    (classHas false ((ranges members).map fun r => .range r.1 r.2) u != negated) = true ↔
      (IsMember u members ↔ negated = false) := by
  have hmember : classHas false ((ranges members).map fun r => .range r.1 r.2) u = true ↔
      IsMember u members := by
    simp [classHas, ClassItem.has, IsMember]
  rw [← hmember]
  cases classHas false ((ranges members).map fun r => .range r.1 r.2) u <;> cases negated <;> simp

theorem succeedsOn_piece (p : Piece) (hk : SucceedsOn k (Describes ps)) :
    SucceedsOn (fun q => p.node.run true q k) (Describes (p :: ps)) := by
  intro q
  cases p with
  | star =>
    rw [describes_star_iff]
    exact isSome_rounds_iff hk (by omega)
  | any =>
    rw [describes_any_iff]
    exact (succeedsOn_step hk q).trans (by simp)
  | literal u =>
    rw [describes_literal_iff]
    exact (succeedsOn_step hk q).trans (by simp [agree])
  | set negated members =>
    rw [describes_set_iff]
    simp only [← classHas_iff]
    exact succeedsOn_step hk q

/-- Matches pieces one behind the other. -/
def runPieces (k : Continuation) : List Piece → Continuation
  | [] => k
  | p :: ps => fun q => p.node.run true q (runPieces k ps)

theorem run_chain {current : Node} {q : Place} :
    (chain current ps).run true q k = current.run true q (runPieces k ps) := by
  induction ps generalizing current with
  | nil => rfl
  | cons p ps ih =>
    have hchain : chain current (p :: ps) = chain (.sequence current p.node) ps := rfl
    rw [hchain, ih]
    rfl

theorem succeedsOn_runPieces (hk : SucceedsOn k (Describes [])) (ps : List Piece) :
    SucceedsOn (runPieces k ps) (Describes ps) := by
  induction ps with
  | nil => exact hk
  | cons p ps ih => exact succeedsOn_piece p ih

end Pieces

/-! ## Whole texts -/

section Texts

variable {pattern value before : Text} {ps : List Piece}

/-- The search pattern of pieces between the start and the end of the text. -/
abbrev anchored (ps : List Piece) : Node :=
  .sequence (chain (.sequence .nothing .textStart) ps) .textEnd

theorem succeedsOn_textEnd : SucceedsOn (fun q => Node.textEnd.run true q some) (Describes []) := by
  rintro ⟨before, after, taken⟩
  cases after with
  | nil => exact ⟨fun _ => .nil, fun _ => rfl⟩
  | cons u after =>
    constructor
    · intro h
      cases h
    · intro h
      cases h

theorem run_anchored {q : Place} :
    (anchored ps).run true q some =
      if q.before.isEmpty then runPieces (fun q => Node.textEnd.run true q some) ps q else none :=
  run_chain

/-- Behind the start of the text there is no match. -/
theorem searchFrom_anchored (hbefore : before ≠ []) :
    searchFrom (anchored ps) before value = false := by
  have hfails : ∀ before after, before ≠ [] →
      ((anchored ps).run true ⟨before, after, []⟩ some).isSome = false := by
    intro before after hbefore
    rw [run_anchored, if_neg (by simpa using hbefore)]
    rfl
  induction value generalizing before with
  | nil => exact hfails before [] hbefore
  | cons u value ih =>
    rw [searchFrom, hfails before _ hbefore, ih (List.cons_ne_nil u before)]
    rfl

theorem matchesIn_anchored_iff : matchesIn (anchored ps) value = true ↔ Describes ps value := by
  have hstart : matchesIn (anchored ps) value =
      ((anchored ps).run true ⟨[], value, []⟩ some).isSome := by
    cases value with
    | nil => rfl
    | cons u value =>
      rw [matchesIn, searchFrom, searchFrom_anchored (List.cons_ne_nil u []), Bool.or_false]
  rw [hstart, run_anchored, if_pos List.isEmpty_nil]
  exact succeedsOn_runPieces succeedsOn_textEnd ps ⟨[], value, []⟩

/-- A pattern whose ranges run forwards matches the texts that its pieces describe. -/
theorem exists_matchesText (h : Reads pattern ps) (ordered : ¬HasReversedRange pattern) :
    ∃ answer, matchesText value pattern = some answer ∧ (answer = true ↔ Describes ps value) := by
  have hordered : ps.all (·.isInOrder) = true := by
    simpa [hasReversedRange_iff h] using ordered
  refine ⟨matchesIn (anchored ps) value, ?_, matchesIn_anchored_iff⟩
  rw [matchesText, expression?_eq h, if_pos hordered]
  rfl

/-- Just the patterns with a range that runs backwards match no text and fail. -/
theorem matchesText_eq_none_iff : matchesText value pattern = none ↔ HasReversedRange pattern := by
  obtain ⟨ps, h⟩ := exists_reads pattern
  rw [matchesText, expression?_eq h, hasReversedRange_iff h]
  split <;> simp_all

/-- Every pattern has one reading as pieces, and if its ranges run forwards, it matches just the
texts that these pieces describe as a whole. -/
theorem matchesText_iff_describes (value pattern : Text) (ordered : ¬HasReversedRange pattern) :
    ∃ pieces, (∀ ps, Reads pattern ps ↔ ps = pieces) ∧
      ∃ answer, matchesText value pattern = some answer ∧
        (answer = true ↔ Describes pieces value) := by
  obtain ⟨pieces, h⟩ := exists_reads pattern
  refine ⟨pieces, fun ps => ⟨fun h' => h'.unique h, ?_⟩, exists_matchesText h ordered⟩
  rintro rfl
  exact h

theorem matchesText_negated_set :
    ¬HasReversedRange (units "[!]a-c]*") ∧
      ∃ pieces, (∀ ps, Reads (units "[!]a-c]*") ps ↔ ps = pieces) ∧
        ∃ answer, matchesText (units "d\n") (units "[!]a-c]*") = some answer ∧
          (answer = true ↔ Describes pieces (units "d\n")) := by
  have hbody : IsBody true (units "]a-c") (units "!]a-c") := .negated (by decide)
  have hread : Reads (units "[!]a-c]*") [.set true (units "]a-c"), .star] :=
    .set hbody rfl (.star .nil)
  have ordered : ¬HasReversedRange (units "[!]a-c]*") := by
    rw [hasReversedRange_iff hread]
    decide
  exact ⟨ordered, matchesText_iff_describes (units "d\n") (units "[!]a-c]*") ordered⟩

example : matchesText (units "]x") (units "[!]a-c]*") = some false := by rfl

end Texts

end TreeExtraction.Glob
