import TreeExtraction.Pattern.GroupName
import TreeExtraction.Pattern.Modes

/-! # Reading patterns

Patterns are read in the lenient dialect: a brace that begins no repetition count and a closing
bracket stand for themselves, an escape that means nothing else stands for its unit, and an escaped
number beyond the last group is an octal code. A pattern with named groups takes `\k` as a
reference to one of them; groups in different alternatives can share a name.
-/

namespace TreeExtraction.Pattern

/-- How many groups a pattern has and whether one of them is named. -/
structure Census where
  groups : Nat
  hasNames : Bool

def census (inClass : Bool) : Text → Census
  | [] => ⟨0, false⟩
  | u :: rest =>
    if u == unit '\\' then
      match rest with
      | [] => ⟨0, false⟩
      | _ :: after => census inClass after
    else if inClass then census (u != unit ']') rest
    else if u == unit '[' then census true rest
    else if u == unit '(' then
      let following := census false rest
      match rest with
      | q :: l :: c :: _ =>
        if q == unit '?' then
          if l == unit '<' && c != unit '=' && c != unit '!' then ⟨following.groups + 1, true⟩
          else following
        else ⟨following.groups + 1, following.hasNames⟩
      | q :: _ =>
        if q == unit '?' then following else ⟨following.groups + 1, following.hasNames⟩
      | [] => ⟨following.groups + 1, following.hasNames⟩
    else census false rest
termination_by t => t.length

/-- The greatest repetition count; greater ones count as this one. -/
def countLimit : Nat := 0x7FFFFFFF

def readCount (t : Text) : Option (Nat × Text) :=
  let ds := t.takeWhile Text.isDigit
  if ds.isEmpty then none else some (min (Text.toNat ds) countLimit, t.dropWhile Text.isDigit)

def readBraces (t : Text) : Option (Nat × Option Nat × Text) :=
  match readCount t with
  | none => none
  | some (_, []) => none
  | some (least, u :: rest) =>
    if u == unit '\x7d' then some (least, some least, rest)
    else if u == unit ',' then
      match readCount rest with
      | some (most, v :: after) => if v == unit '\x7d' then some (least, some most, after) else none
      | some (_, []) => none
      | none =>
        match rest with
        | v :: after => if v == unit '\x7d' then some (least, none, after) else none
        | [] => none
    else none

def readMark : Text → Option (Nat × Option Nat × Text)
  | [] => none
  | u :: rest =>
    if u == unit '*' then some (0, none, rest)
    else if u == unit '+' then some (1, none, rest)
    else if u == unit '?' then some (0, some 1, rest)
    else if u == unit '\x7b' then readBraces rest
    else none

/-- An atom of a class: one unit, or a class of its own. -/
inductive ClassAtom where
  | one (u : UInt16)
  | many (item : ClassItem)

/-- Reads an atom of a class; the text is not empty. -/
def readClassAtom (info : Census) : Text → Option (Read ClassAtom)
  | [] => none
  | u :: rest =>
    if u == unit '\\' then
      match rest with
      | [] => none
      | e :: after =>
        match classOfEscape? e with
        | some item => some ⟨.many item, after⟩
        | none =>
          if e == unit 'b' then some ⟨.one 0x08, after⟩
          else if e == unit 'k' && info.hasNames then none
          else
            let r := readUnitEscape true rest
            some ⟨.one r.result, r.rest⟩
    else some ⟨.one u, rest⟩

def ClassAtom.item : ClassAtom → ClassItem
  | .one u => .range u u
  | .many i => i

def readClass (info : Census) : (limit : Nat) → Text → Option (Read (List ClassItem))
  | 0, _ => none
  | _, [] => none
  | limit + 1, u :: rest =>
    if u == unit ']' then some ⟨[], rest⟩
    else do
      let a ← readClassAtom info (u :: rest)
      match a.rest with
      | d :: e :: after =>
        if d == unit '-' && e != unit ']' then
          let b ← readClassAtom info (e :: after)
          let others ← readClass info limit b.rest
          match a.result, b.result with
          | .one first, .one last =>
            if last < first then none else some ⟨.range first last :: others.result, others.rest⟩
          | x, y =>
            some ⟨x.item :: .range (unit '-') (unit '-') :: y.item :: others.result, others.rest⟩
        else
          let others ← readClass info limit a.rest
          some ⟨a.result.item :: others.result, others.rest⟩
      | _ =>
        let others ← readClass info limit a.rest
        some ⟨a.result.item :: others.result, others.rest⟩

/-- The groups opened so far: how many they are, the numbers of those with names, and the names of
those that may have taken part in a match together with what is read next. -/
structure Groups where
  opened : Nat
  names : List (Text × Nat)
  together : List Text

def Groups.empty : Groups := ⟨0, [], []⟩

/-- Opens a group. Two groups of one name cannot take part in a match together. -/
def Groups.open? (g : Groups) : (name : Option Text) → Option Groups
  | none => some { g with opened := g.opened + 1 }
  | some name =>
    if g.together.contains name then none
    else some ⟨g.opened + 1, (name, g.opened + 1) :: g.names, name :: g.together⟩

/-- What has been read of a pattern: a part, whether it may be repeated, the text behind it, and the
groups opened so far. -/
structure Progress where
  node : Node
  repeatable : Bool
  rest : Text
  groups : Groups

def readEscape (info : Census) (modes : Modes) (groups : Groups) (t : Text) : Option Progress :=
  let one (r : Read UInt16) : Progress :=
    ⟨.literal modes.caseless r.result, true, r.rest, groups⟩
  match t with
  | [] => none
  | u :: rest =>
    match classOfEscape? u with
    | some item => some ⟨.oneOf modes.caseless false [item], true, rest, groups⟩
    | none =>
      if u == unit 'b' then some ⟨.wordBoundary false, false, rest, groups⟩
      else if u == unit 'B' then some ⟨.wordBoundary true, false, rest, groups⟩
      else if u == unit 'k' && info.hasNames then
        match rest with
        | l :: after =>
          if l == unit '<' then do
            let r ← readName? after
            some ⟨.namedReference modes.caseless r.result, true, r.rest, groups⟩
          else none
        | [] => none
      else if Text.isDigit u && u != unit '0' then
        let ds := t.takeWhile Text.isDigit
        if Text.toNat ds ≤ info.groups then
          some ⟨.reference modes.caseless (Text.toNat ds), true, t.dropWhile Text.isDigit, groups⟩
        else some (one (readUnitEscape false t))
      else some (one (readUnitEscape false t))

/-- Puts the repetition mark behind a part into effect. -/
def applyMark (openedBefore : Nat) (p : Progress) : Option Progress :=
  match readMark p.rest with
  | none => some p
  | some (least, most, rest) =>
    if !p.repeatable then none
    else if most.any (· < least) then none
    else
      let (greedy, rest) :=
        match rest with
        | u :: after => if u == unit '?' then (false, after) else (true, rest)
        | [] => (true, [])
      some { p with
        node := .repetition least most greedy (openedBefore + 1) (p.groups.opened + 1) p.node
        rest := rest }

inductive Opening where
  | plain (modes : Modes)
  | capture (name : Option Text)
  | look (ahead negated : Bool)

def readOpening (modes : Modes) (t : Text) : Option (Read Opening) :=
  match t with
  | q :: rest =>
    if q == unit '?' then
      match rest with
      | [] => none
      | k :: after =>
        if k == unit '=' then some ⟨.look true false, after⟩
        else if k == unit '!' then some ⟨.look true true, after⟩
        else if k == unit '<' then
          match after with
          | [] => none
          | c :: inner =>
            if c == unit '=' then some ⟨.look false false, inner⟩
            else if c == unit '!' then some ⟨.look false true, inner⟩
            else (readName? after).map fun r => ⟨.capture (some r.result), r.rest⟩
        else (modes.read? rest).map fun r => ⟨.plain r.result, r.rest⟩
    else some ⟨.capture none, t⟩
  | [] => some ⟨.capture none, t⟩

/-- The alternatives read before the one at hand, with the names in force before all of them and
those in force behind them. -/
structure Finished where
  choice : Option Node
  outer : List Text
  inner : List Text

def Finished.start (groups : Groups) : Finished := ⟨none, groups.together, []⟩

/-- The finished alternatives with another one, and the names in force behind them. -/
def Finished.add (f : Finished) (current : Node) (groups : Groups) : Node × List Text :=
  ((f.choice.map fun d => .choice d current).getD current,
    f.inner ++ groups.together.filter (!f.inner.contains ·))

/-- Reads alternatives up to the end or a closing parenthesis; `current` is the one at hand. Every
part takes one of the `limit`. -/
def readAlternatives (info : Census) : (limit : Nat) → (modes : Modes) → (finished : Finished) →
    (current : Node) → Groups → Text → Option Progress
  | 0, _, _, _, _, _ => none
  | limit + 1, modes, finished, current, groups, t =>
    let (choice, names) := finished.add current groups
    let closed : Option Progress := some ⟨choice, true, t, { groups with together := names }⟩
    let proceed (p : Option Progress) : Option Progress := do
      let p ← p
      let q ← applyMark groups.opened p
      readAlternatives info limit modes finished (.sequence current q.node) q.groups q.rest
    match t with
    | [] => closed
    | u :: rest =>
      let condition (n : Node) : Option Progress := proceed (some ⟨n, false, rest, groups⟩)
      let oneUnit (n : Node) : Option Progress := proceed (some ⟨n, true, rest, groups⟩)
      if u == unit ')' then closed
      else if u == unit '|' then
        readAlternatives info limit modes ⟨some choice, finished.outer, names⟩ .nothing
          { groups with together := finished.outer } rest
      else if u == unit '^' then condition (if modes.byLine then .lineStart else .textStart)
      else if u == unit '$' then condition (if modes.byLine then .lineEnd else .textEnd)
      else if u == unit '.' then oneUnit (if modes.anyUnit then .anyUnit else .anyOfLine)
      else if u == unit '\\' then proceed (readEscape info modes groups rest)
      else if u == unit '[' then
        let (negated, body) :=
          match rest with
          | n :: after => if n == unit '^' then (true, after) else (false, rest)
          | [] => (false, [])
        proceed ((readClass info (body.length + 1) body).map fun r =>
          ⟨.oneOf modes.caseless negated r.result, true, r.rest, groups⟩)
      else if u == unit '(' then
        proceed do
          let o ← readOpening modes rest
          let inside ←
            match o.result with
            | .capture name => groups.open? name
            | _ => some groups
          let modes :=
            match o.result with
            | .plain modes => modes
            | _ => modes
          let p ← readAlternatives info limit modes (.start inside) .nothing inside o.rest
          match p.rest with
          | [] => none
          | _ :: after =>
            match o.result with
            | .plain _ => some { p with rest := after }
            | .capture _ => some { p with node := .group inside.opened p.node, rest := after }
            | .look ahead negated =>
              some { p with node := .look ahead negated p.node, repeatable := ahead, rest := after }
      else if (readMark t).isSome then none
      else oneUnit (.literal modes.caseless u)

/-- Replaces a name by the groups that have it, of which at most one takes part in a match; a group
that takes no part matches nothing. -/
def resolveName (names : List (Text × Nat)) (caseless : Bool) (name : Text) : Option Node :=
  match names.filter (·.1 == name) with
  | [] => none
  | e :: others =>
    some (others.foldl (fun n o => .sequence n (.reference caseless o.2)) (.reference caseless e.2))

/-- Replaces names by the numbers of their groups. -/
def Node.resolve (names : List (Text × Nat)) : Node → Option Node
  | .namedReference caseless name => resolveName names caseless name
  | .sequence a b => do return .sequence (← a.resolve names) (← b.resolve names)
  | .choice a b => do return .choice (← a.resolve names) (← b.resolve names)
  | .group n body => do return .group n (← body.resolve names)
  | .repetition least most greedy first next body => do
    return .repetition least most greedy first next (← body.resolve names)
  | .look ahead negated body => do return .look ahead negated (← body.resolve names)
  | n => some n

/-- Reads a pattern with some modes in force from its start on. -/
def readIn (modes : Modes) (t : Text) : Option Node := do
  let limit := t.length + 1
  let p ← readAlternatives (census false t) limit modes (.start .empty) .nothing .empty t
  if p.rest.isEmpty then p.node.resolve p.groups.names else none

def read (t : Text) : Option Node :=
  readIn .initial t

end TreeExtraction.Pattern
