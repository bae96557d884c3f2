import TreeExtraction.Pattern.Basic
import TreeExtraction.Pattern.Folding

/-! # Matching patterns

A pattern is tried at a place of a text, and what follows it decides whether the place where it
ends is good; otherwise the next way of matching is tried. Alternatives are tried from left to
right, a greedy repetition tries another round first. Behind the place, patterns are matched from
right to left.
-/

namespace TreeExtraction.Pattern

/-- A place in a text, with what each group has taken. The units before the place are listed from
right to left. -/
structure Place where
  before : Text
  after : Text
  taken : List (Nat × Text)

abbrev Continuation := Place → Option Place

def Place.step (p : Place) (forward : Bool) (test : UInt16 → Bool) : Option Place :=
  if forward then
    match p.after with
    | u :: rest => if test u then some { p with before := u :: p.before, after := rest } else none
    | [] => none
  else
    match p.before with
    | u :: rest => if test u then some { p with before := rest, after := u :: p.after } else none
    | [] => none

def Place.over (p : Place) (forward caseless : Bool) (t : Text) : Option Place :=
  (if forward then t else t.reverse).foldlM (fun q u => q.step forward (agree caseless u)) p

/-- Whether one of the parts of a class has a unit or, without regard to letter case, a variant of
it. -/
def classHas (caseless : Bool) (items : List ClassItem) (u : UInt16) : Bool :=
  items.any (·.has u) || (caseless && (variants u).any fun v => items.any (·.has v))

def Place.between (p q : Place) : Text :=
  if q.after.length ≤ p.after.length then p.after.take (p.after.length - q.after.length)
  else q.after.take (q.after.length - p.after.length)

/-- Whether exactly one of the units around a place belongs to a word. -/
def Place.isBoundary (p : Place) : Bool :=
  (p.before.head?.any isWordUnit) != (p.after.head?.any isWordUnit)

def Place.forget (p : Place) (first next : Nat) : Place :=
  { p with taken := p.taken.filter fun e => e.1 < first || next ≤ e.1 }

/-- Rounds of a repetition. A round that is not needed and takes nothing is no round; `limit` is
the number of rounds that the rest of the text admits. -/
def rounds (round : Place → Continuation → Option Place) (greedy : Bool) (first next : Nat) :
    (limit least : Nat) → (most : Option Nat) → Place → Continuation → Option Place
  | 0, _, _, p, k => k p
  | limit + 1, least, most, p, k =>
    let another : Option Place :=
      round (p.forget first next) fun q =>
        if least = 0 && q.after.length == p.after.length then none
        else rounds round greedy first next limit (least - 1) (most.map (· - 1)) q k
    if most = some 0 then k p
    else if least ≠ 0 then another
    else if greedy then another.or (k p)
    else (k p).or another

def Node.run : Node → (forward : Bool) → Place → Continuation → Option Place
  | .nothing, _, p, k => k p
  | .literal caseless u, forward, p, k => (p.step forward (agree caseless u)).bind k
  | .anyOfLine, forward, p, k => (p.step forward fun u => !isLineEnd u).bind k
  | .anyUnit, forward, p, k => (p.step forward fun _ => true).bind k
  | .oneOf caseless negated items, forward, p, k =>
    (p.step forward fun u => classHas caseless items u != negated).bind k
  | .sequence a b, forward, p, k =>
    if forward then a.run forward p fun q => b.run forward q k
    else b.run forward p fun q => a.run forward q k
  | .choice a b, forward, p, k => (a.run forward p k).or (b.run forward p k)
  | .group number body, forward, p, k =>
    body.run forward p fun q =>
      k { q with taken := (number, p.between q) :: q.taken.filter (·.1 != number) }
  | .repetition least most greedy first next body, forward, p, k =>
    rounds (fun q k' => body.run forward q k') greedy first next
      (least + p.before.length + p.after.length + 1) least most p k
  | .reference caseless number, forward, p, k =>
    (p.over forward caseless ((p.taken.lookup number).getD [])).bind k
  | .namedReference .., _, p, k => k p
  | .textStart, _, p, k => if p.before.isEmpty then k p else none
  | .textEnd, _, p, k => if p.after.isEmpty then k p else none
  | .lineStart, _, p, k => if p.before.head?.all isLineEnd then k p else none
  | .lineEnd, _, p, k => if p.after.head?.all isLineEnd then k p else none
  | .wordBoundary negated, _, p, k => if p.isBoundary != negated then k p else none
  | .look ahead negated body, _, p, k =>
    match body.run ahead p some with
    | some q => if negated then none else k { p with taken := q.taken }
    | none => if negated then k p else none

/-- Whether a pattern matches at a place or somewhere behind it. -/
def searchFrom (n : Node) (before : Text) : Text → Bool
  | [] => (n.run true ⟨before, [], []⟩ some).isSome
  | u :: rest =>
    (n.run true ⟨before, u :: rest, []⟩ some).isSome || searchFrom n (u :: before) rest

def matchesIn (n : Node) (t : Text) : Bool :=
  searchFrom n [] t

end TreeExtraction.Pattern
