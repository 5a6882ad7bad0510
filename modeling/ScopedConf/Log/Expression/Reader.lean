import ScopedConf.Log.Expression.Bracket
import ScopedConf.Text.Alphabetic

/-! Which texts are regular expressions. Of what has been read only the depth to which it nests is
kept: no expression nests deeper than 250 levels. Braces do not count repetitions here, and nothing
looks ahead or behind. -/

namespace ScopedConf.Log.Expression

/-- A group that is open: the flags to go back to, the depths of the branches before the last bar,
and the depths of the items since then. Only an item that is not a change of flags can repeat. -/
structure Group where
  before : Mode
  branches : List Nat
  items : List (Nat × Bool)

namespace Group

def fresh (before : Mode) : Group := ⟨before, [], []⟩

def add (g : Group) (depth : Nat) : Group :=
  { g with items := (depth, true) :: g.items }

def addFlags (g : Group) : Group :=
  { g with items := (0, false) :: g.items }

def branch (g : Group) : Nat :=
  joinDepths (g.items.map Prod.fst)

def alternate (g : Group) : Group :=
  ⟨g.before, g.branch :: g.branches, []⟩

def depth (g : Group) : Nat :=
  joinDepths (g.branch :: g.branches)

def repeated? (g : Group) : Option Group :=
  match g.items with
  | (depth, true) :: items => some { g with items := (depth + 1, true) :: items }
  | _ => none

end Group

/-- What opens a group: flags for all behind them, or a group with its flags and perhaps a name. -/
inductive Opening
  | flags (flags : List Char)
  | group (flags : List Char) (name : Option (List Char))

def isName : List Char → Bool
  | [] => false
  | c :: cs =>
    (c == '_' || Text.isAlphabetic c) &&
      cs.all fun c => c == '_' || c == '.' || c == '[' || c == ']' || Text.isAlphanumeric c

def readName (cs : List Char) : Option (Opening × List Char) :=
  let name := cs.takeWhile (· ≠ '>')
  match cs.dropWhile (· ≠ '>') with
  | _ :: rest => if isName name then some (.group [] (some name), rest) else none
  | [] => none

def readOpening (m : Mode) (cs : List Char) : Option (Opening × List Char) :=
  match m.skip cs with
  | '?' :: '=' :: _ => none
  | '?' :: '!' :: _ => none
  | '?' :: '<' :: '=' :: _ => none
  | '?' :: '<' :: '!' :: _ => none
  | '?' :: 'P' :: '<' :: cs => readName cs
  | '?' :: '<' :: cs => readName cs
  | '?' :: cs => do
    let (flags, stop, rest) ← readFlags cs
    if stop = ':' then return (.group flags none, rest)
    else if flags = [] then none
    else return (.flags flags, rest)
  | cs => some (.group [] none, cs)

/-- Reads one item that opens nothing: how deep it nests, and the text behind. -/
def readItem (m : Mode) : List Char → Option (Nat × List Char)
  | [] => none
  | '[' :: cs => readBracket m cs
  | '.' :: cs => if m.allowsAny then some (0, cs) else none
  | '^' :: cs => some (0, cs)
  | '$' :: cs => some (0, cs)
  | '\x7b' :: _ => none
  | '\\' :: cs => do
    let (escape, rest) ← readEscape m cs
    let allowed :=
      match escape with
      | .symbol s => m.allows s
      | .kind negated => m.allowsKind negated
      | .place edge => !edge || m.allowsEdge
    if allowed then some (0, rest) else none
  | c :: cs => if m.allows ⟨c, false⟩ then some (0, cs) else none

/-- Reads to the end of the text, with the names that groups have so far. -/
def readAll : Nat → Mode → List (List Char) → Group → List Group → List Char → Option Nat
  | 0, _, _, _, _, _ => none
  | fuel + 1, m, names, group, outer, cs =>
    let repetition (rest : List Char) := do
      let group ← group.repeated?
      let rest :=
        match rest with
        | '?' :: rest => rest
        | rest => rest
      readAll fuel m names group outer rest
    match m.skip cs with
    | [] => if outer.isEmpty then some group.depth else none
    | '(' :: rest => do
      match ← readOpening m rest with
      | (.flags flags, rest) => readAll fuel (m.set flags) names group.addFlags outer rest
      | (.group flags name, rest) =>
        if name.any names.contains then none
        else readAll fuel (m.set flags) (name.toList ++ names) (.fresh m) (group :: outer) rest
    | ')' :: rest =>
      match outer with
      | [] => none
      | parent :: outer =>
        readAll fuel group.before names (parent.add (group.depth + 1)) outer rest
    | '|' :: rest => readAll fuel m names group.alternate outer rest
    | '*' :: rest => repetition rest
    | '+' :: rest => repetition rest
    | '?' :: rest => repetition rest
    | cs => do
      let (depth, rest) ← readItem m cs
      readAll fuel m names (group.add depth) outer rest

def maxDepth : Nat := 250

def isExpression (cs : List Char) : Bool :=
  (readAll (cs.length + 1) .plain [] (.fresh .plain) [] cs).any (· ≤ maxDepth)

end ScopedConf.Log.Expression
