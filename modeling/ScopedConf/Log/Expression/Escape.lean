import ScopedConf.Log.Expression.Mode
import ScopedConf.Text.Hexadecimal

/-! Escapes in regular expressions: what stands behind a backslash. -/

namespace ScopedConf.Log.Expression

/-- A symbol; digits, blanks or word characters, or all others; or a place in the text, perhaps the
edge of a word. -/
inductive Escape
  | symbol (s : Symbol)
  | kind (negated : Bool)
  | place (edge : Bool)
  deriving DecidableEq

def takeDigits (m : Mode) : Nat → List Char → Option (List Char × List Char)
  | 0, cs => some ([], cs)
  | count + 1, cs =>
    match m.skip cs with
    | [] => none
    | c :: cs => (takeDigits m count cs).map fun (digits, rest) => (c :: digits, rest)

def digitCount? : Char → Option Nat
  | 'x' => some 2
  | 'u' => some 4
  | 'U' => some 8
  | _ => none

def lettered? : Char → Option Char
  | 'a' => some '\x07'
  | 'f' => some '\x0c'
  | 'n' => some '\n'
  | 'r' => some '\r'
  | 't' => some '\t'
  | 'v' => some '\x0b'
  | _ => none

/-- Whether the character stands for itself behind a backslash. -/
def isPunctuation (c : Char) : Bool :=
  c.toNat < 128 && !c.isAlphanum && c != '<' && c != '>'

/-- What a single letter or mark behind a backslash stands for. -/
def short? (c : Char) : Option Escape :=
  if isPunctuation c then some (.symbol ⟨c, false⟩)
  else if ['d', 's', 'w'].contains c then some (.kind false)
  else if ['D', 'S', 'W'].contains c then some (.kind true)
  else if ['b', 'B', '<', '>'].contains c then some (.place true)
  else if ['A', 'z'].contains c then some (.place false)
  else (lettered? c).map fun d => .symbol ⟨d, false⟩

/-- Reads what stands behind a backslash. Classes by property have no form here: there are no
properties to ask for. -/
def readEscape (m : Mode) : List Char → Option (Escape × List Char)
  | [] => none
  | c :: cs =>
    match digitCount? c with
    | none => (short? c).map fun e => (e, cs)
    | some count => do
      let (digits, rest) ← takeDigits m count cs
      let d ← Text.codePoint? count digits
      return (.symbol ⟨d, c == 'x'⟩, rest)

end ScopedConf.Log.Expression
