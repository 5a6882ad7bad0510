import ScopedConf.Log.Expression.Escape

/-! Brackets in regular expressions: sets of characters with ranges, classes with names, brackets
inside of brackets, and operators between sets. Of a bracket only the depth to which it nests is
kept. -/

namespace ScopedConf.Log.Expression

/-- The depth of things side by side: one thing is as deep as it is by itself. -/
def joinDepths : List Nat → Nat
  | [] => 0
  | [d] => d
  | ds => ds.foldl max 0 + 1

/-- A bracket that is open: the depth of what stands before the last operator, and the depths of the
members behind it. -/
structure Bracket where
  left : Option Nat
  members : List Nat

namespace Bracket

def fresh : Bracket := ⟨none, []⟩

def depth (b : Bracket) : Nat :=
  match b.left with
  | none => joinDepths b.members
  | some left => max left (joinDepths b.members) + 1

def add (b : Bracket) (depth : Nat) : Bracket :=
  { b with members := depth :: b.members }

def operator (b : Bracket) : Bracket :=
  ⟨some b.depth, []⟩

end Bracket

/-- How far a bracket has got: hyphens at its start are members, and so is a closing bracket in
front of all other members. -/
inductive Progress
  | first
  | hyphens
  | inside
  deriving DecidableEq

def classNames : List String :=
  ["alnum", "alpha", "ascii", "blank", "cntrl", "digit", "graph", "lower", "print", "punct",
    "space", "upper", "word", "xdigit"]

/-- A class by its name, between colons and brackets; only what is behind the first bracket is
given. -/
def readNamed? : List Char → Option (Bool × List Char)
  | ':' :: cs =>
    let (negated, cs) :=
      match cs with
      | '^' :: cs => (true, cs)
      | cs => (false, cs)
    match cs.dropWhile (· ≠ ':') with
    | ':' :: ']' :: rest =>
      if classNames.contains (String.ofList (cs.takeWhile (· ≠ ':'))) then some (negated, rest)
      else none
    | _ => none
  | _ => none

def readMember (m : Mode) : List Char → Option (Escape × List Char)
  | [] => none
  | '\\' :: cs => readEscape m cs
  | c :: cs => some (.symbol ⟨c, false⟩, cs)

/-- The character behind a hyphen that decides what the hyphen means. A mark of a comment is passed
over, but not the comment. -/
def behindHyphen (m : Mode) (cs : List Char) : Option Char :=
  if m.spaced then
    match cs.dropWhile Text.isBlank with
    | '#' :: cs => (cs.dropWhile Text.isBlank).head?
    | cs => cs.head?
  else cs.head?

def opensRange (m : Mode) : List Char → Bool
  | '-' :: cs => behindHyphen m cs != some ']' && behindHyphen m cs != some '-'
  | _ => false

def readRange (m : Mode) (cs : List Char) : Option (List Char) := do
  let (start, rest) ← readMember m cs
  let rest := m.skip rest
  if opensRange m rest then
    let (stop, rest) ← readMember m (m.skip (rest.drop 1))
    match start, stop with
    | .symbol a, .symbol b =>
      if m.allowsMember a && m.allowsMember b && a.char ≤ b.char then some rest else none
    | _, _ => none
  else
    match start with
    | .symbol a => if m.allowsMember a then some rest else none
    | .kind negated => if m.allowsKind negated then some rest else none
    | .place _ => none

/-- The text behind the start of a bracket, if a bracket of its sort may stand here. -/
def openBracket (m : Mode) (cs : List Char) : Option (List Char) :=
  match m.skip cs with
  | '^' :: cs => if m.allowsBracket true then some cs else none
  | cs => some cs

/-- Reads to the end of the outermost bracket: how deep it nests, and the text behind. -/
def readMembers (m : Mode) : Nat → Progress → Bracket → List Bracket → List Char →
    Option (Nat × List Char)
  | 0, _, _, _, _ => none
  | fuel + 1, progress, bracket, outer, cs =>
    let literal (c : Char) (progress : Progress) (rest : List Char) :=
      if m.allowsMember ⟨c, false⟩ then readMembers m fuel progress (bracket.add 0) outer rest
      else none
    match m.skip cs, progress with
    | [], _ => none
    | '-' :: rest, .first => literal '-' .hyphens rest
    | '-' :: rest, .hyphens => literal '-' .hyphens rest
    | ']' :: rest, .first => literal ']' .inside rest
    | ']' :: rest, _ =>
      match outer with
      | [] => some (bracket.depth + 1, rest)
      | parent :: outer => readMembers m fuel .inside (parent.add (bracket.depth + 1)) outer rest
    | '[' :: rest, _ =>
      match readNamed? rest with
      | some (negated, rest) =>
        if m.allowsNamed negated then readMembers m fuel .inside (bracket.add 0) outer rest
        else none
      | none => do
        let rest ← openBracket m rest
        readMembers m fuel .first .fresh (bracket :: outer) rest
    | '&' :: '&' :: rest, _ => readMembers m fuel .inside bracket.operator outer rest
    | '-' :: '-' :: rest, _ => readMembers m fuel .inside bracket.operator outer rest
    | '~' :: '~' :: rest, _ => readMembers m fuel .inside bracket.operator outer rest
    | cs, _ => do
      let rest ← readRange m cs
      readMembers m fuel .inside (bracket.add 0) outer rest

/-- Reads what stands behind an opening bracket: how deep it nests, and the text behind. -/
def readBracket (m : Mode) (cs : List Char) : Option (Nat × List Char) := do
  let rest ← openBracket m cs
  readMembers m (rest.length + 1) .first .fresh [] rest

end ScopedConf.Log.Expression
