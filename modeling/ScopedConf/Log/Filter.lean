import ScopedConf.Event
import ScopedConf.Log.Expression.Reader
import ScopedConf.Log.Number
import ScopedConf.Options.Validation
import ScopedConf.Text.Alphanumeric
import ScopedConf.Text.Blank
import ScopedConf.Text.Decimal
import ScopedConf.Text.Split
import ScopedConf.Text.Utf8

/-! Log filters: which events are written. A filter is a list of rules between commas; a rule has a
target, a level, or both, and may name a field. The most specific rule for an event decides. -/

namespace ScopedConf.Log

/-- Events up to `limit`, from targets that start with `target`, that have the field `field`. -/
structure Rule where
  target : Option String
  field : Option String
  limit : Nat
  deriving DecidableEq

abbrev Filter := List Rule

def everything : Nat := Level.trace.verbosity

/-- A level by name or by number; `off` is below every level. -/
def readLimit? (s : String) : Option Nat :=
  let byName :=
    if s.map Char.toLower = "off" then some 0 else (Level.ofName? s).map Level.verbosity
  ((Text.unsigned? (everything + 1) s.toList) <|> byName)

/-- One piece of a filter by its form: a word alone, or a target with perhaps a bracket and perhaps
a level behind an equals sign. -/
inductive Form
  | word (cs : List Char)
  | parts (target : Option (List Char)) (bracket : Option (List Char × Option (List Char)))
      (level : Option (List Char))

def readTail? : List Char → Option (Option (List Char))
  | [] => some none
  | '=' :: cs => some (some cs)
  | _ => none

/-- A piece behind its opening bracket, which holds a span and perhaps a field between braces. -/
def readBracket? (target : Option (List Char)) (cs : List Char) : Option Form :=
  let inSpan (c : Char) : Bool := c ≠ ']' && c ≠ '\x7b'
  let span := cs.takeWhile inSpan
  match cs.dropWhile inSpan with
  | ']' :: rest => (readTail? rest).map (.parts target (some (span, none)))
  | '\x7b' :: rest =>
    let field := rest.takeWhile (· ≠ '\x7d')
    match field, rest.dropWhile (· ≠ '\x7d') with
    | _ :: _, '\x7d' :: ']' :: rest =>
      (readTail? rest).map (.parts target (some (span, some field)))
    | _, _ => none
  | _ => none

def opensWord (c : Char) : Bool :=
  c == '-' || c == ':' || c == '_' || Text.isAlphanumeric c

def readForm? : List Char → Option Form
  | [] => none
  | '[' :: rest => readBracket? none rest
  | c :: cs =>
    if !opensWord c then none
    else
      let inWord (c : Char) : Bool := c ≠ '=' && c ≠ '['
      let word := c :: cs.takeWhile inWord
      match cs.dropWhile inWord with
      | '=' :: rest => some (.parts (some word) none (some rest))
      | '[' :: rest => readBracket? (some word) rest
      | _ => some (.word word)

def size (cs : List Char) : Nat :=
  (String.ofList cs).utf8ByteSize

/-- The part of `piece` that takes the same bytes as `part` does in a text where `before` bytes
stand in front of it. -/
def cut? (piece : List Char) (before : Nat) (part : List Char) : Option (List Char) := do
  let (_, rest) ← Utf8.splitAt? before piece
  let (front, _) ← Utf8.splitAt? (size part) rest
  return front

/-- A form that was read off the text of a piece without the blanks around it, with the parts that
stand in the same bytes of the piece itself. What stands last reaches to the end of the piece. -/
def Form.within? (piece : List Char) : Form → Option Form
  | word _ => some (word piece)
  | parts target bracket level => do
    let start := (target.map size).getD 0 + 1
    let target ← target.mapM (cut? piece 0)
    let bracket ← bracket.mapM fun (span, field) => do
      let field ← field.mapM (cut? piece (start + size span + 1))
      return (← cut? piece start span, field)
    let level ← level.mapM fun cs => do
      let (_, rest) ← Utf8.splitAt? (size (Text.trim piece) - size cs) piece
      return rest
    return parts target bracket level

/-- Whether a field may have the value: a number, or else an expression for the text of it. -/
def isValue (cs : List Char) : Bool :=
  isNumber cs || Expression.isExpression cs

def valuesOf (field : List Char) : List (List Char) :=
  (Text.splitOn '=' field).tail

/-- What a form says about events. A word is a level or else a target for every level. A named span
concerns no event, and neither does a field with a value. -/
def Form.rules? : Form → Option (List Rule)
  | word cs =>
    match readLimit? (String.ofList cs) with
    | some limit => some [⟨none, none, limit⟩]
    | none => some [⟨some (String.ofList cs), none, everything⟩]
  | parts target bracket level => do
    let limit ←
      match level with
      | none | some [] => some everything
      | some cs => readLimit? (String.ofList cs)
    match bracket with
    | none => return [⟨target.map String.ofList, none, limit⟩]
    | some (_, none) => return []
    | some (span, some field) =>
      match valuesOf field with
      | value :: _ => if isValue value then return [] else none
      | [] =>
        if span = [] then
          return [⟨target.map String.ofList, some (String.ofList field), limit⟩]
        else return []

/-- The rules of a piece. Its form is that of the text between the blanks around it. -/
def readPiece? (cs : List Char) : Option (List Rule) := do
  let form ← readForm? (Text.trim cs)
  (← form.within? cs).rules?

def Filter.ofText? (s : String) : Option Filter :=
  (((Text.splitOn ',' s.toList).filter (· ≠ [])).mapM readPiece?).map List.flatten

def Filter.ofLevel (name : String) : Filter :=
  match Level.ofName? name with
  | some level => [⟨some Topic.commandLine.target, none, level.verbosity⟩]
  | none => []

/-- The filter that the environment asks for; the settings decide where it is missing or bad. -/
def Filter.choose (wanted? : Option String) (level : String) : Filter :=
  (wanted?.bind Filter.ofText?).getD (Filter.ofLevel level)

namespace Rule

def concerns (r : Rule) (e : Event) : Bool :=
  r.target.all (fun t => t.toList.isPrefixOf e.topic.target.toList) &&
    r.field.all fun f => f == "message" || e.details.any fun detail => detail.1 == f

/-- How specific a rule is: by the length of its target, then by its field. -/
def rank (r : Rule) : Nat × Nat :=
  ((r.target.map fun t => t.utf8ByteSize + 1).getD 0, if r.field.isSome then 1 else 0)

/-- Whether a rule that comes later goes before one that came earlier and concerns the same event:
it does unless it is less specific. -/
def overrules (later earlier : Rule) : Bool :=
  earlier.rank.1 < later.rank.1 ||
    (earlier.rank.1 == later.rank.1 &&
      (earlier.rank.2 < later.rank.2 ||
        (earlier.rank.2 == later.rank.2 && earlier.field.getD "" ≤ later.field.getD "")))

end Rule

def Filter.deciding? (f : Filter) (e : Event) : Option Rule :=
  (f.filter (·.concerns e)).foldl
    (fun best r =>
      match best with
      | none => some r
      | some b => if r.overrules b then some r else some b)
    none

def Filter.accepts (f : Filter) (e : Event) : Bool :=
  (f.deciding? e).any fun r => e.level.verbosity ≤ r.limit

end ScopedConf.Log
