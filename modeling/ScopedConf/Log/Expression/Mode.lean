import ScopedConf.Text.Blank

/-! What the flags of a regular expression say about the characters behind them. Expressions match
whole characters and are compiled without tables of character properties. So while characters are
meant, nothing may ask for a property: letters of either case, digits, blanks, words and their
edges. And while bytes are meant, nothing may match a part of a character: any byte, all bytes but
some, a byte above 127. -/

namespace ScopedConf.Log.Expression

/-- The flags in force: whether letters stand for either case, whether characters are meant or
bytes, and whether blanks and comments may stand between the characters of the expression. -/
structure Mode where
  caseless : Bool
  unicode : Bool
  spaced : Bool
  deriving DecidableEq

def Mode.plain : Mode := ⟨false, true, false⟩

/-- A character of an expression; `byte` says that it was written as the number of a byte. -/
structure Symbol where
  char : Char
  byte : Bool
  deriving DecidableEq

def skipBlanks (inComment : Bool) : List Char → List Char
  | [] => []
  | c :: cs =>
    if inComment then skipBlanks (c != '\n') cs
    else if Text.isBlank c then skipBlanks false cs
    else if c = '#' then skipBlanks true cs
    else c :: cs

namespace Mode

def skip (m : Mode) (cs : List Char) : List Char :=
  if m.spaced then skipBlanks false cs else cs

def set (m : Mode) (flags : List Char) : Mode :=
  let on := flags.takeWhile (· ≠ '-')
  let off := flags.dropWhile (· ≠ '-')
  let apply (old : Bool) (flag : Char) : Bool := (old || on.contains flag) && !off.contains flag
  ⟨apply m.caseless 'i', apply m.unicode 'u', apply m.spaced 'x'⟩

def allows (m : Mode) (s : Symbol) : Bool :=
  if m.unicode then !m.caseless else !s.byte || s.char.toNat < 128

def allowsMember (m : Mode) (s : Symbol) : Bool :=
  if m.unicode then !m.caseless else s.char.toNat < 128

def allowsAny (m : Mode) : Bool :=
  m.unicode

def allowsEdge (m : Mode) : Bool :=
  !m.unicode

/-- Whether digits, blanks or word characters may be asked for, or all others. -/
def allowsKind (m : Mode) (negated : Bool) : Bool :=
  !m.unicode && !negated

/-- Whether a class with a name may stand in a bracket, or all characters outside of it. -/
def allowsNamed (m : Mode) (negated : Bool) : Bool :=
  if m.unicode then !m.caseless else !negated

/-- Whether a bracket may stand for its members, or for all other characters. -/
def allowsBracket (m : Mode) (negated : Bool) : Bool :=
  m.unicode || !negated

end Mode

def flagLetters : List Char := ['i', 'm', 's', 'U', 'R', 'u', 'x', '-']

/-- Flags, the colon or bracket that ends them, and the text behind. No flag stands twice, and a
hyphen has a flag behind it. -/
def readFlags (cs : List Char) : Option (List Char × Char × List Char) :=
  let inFlags (c : Char) : Bool := c ≠ ':' && c ≠ ')'
  let flags := cs.takeWhile inFlags
  match cs.dropWhile inFlags with
  | [] => none
  | stop :: rest =>
    if flags.all flagLetters.contains ∧ flags.Nodup ∧ flags.getLast? ≠ some '-' then
      some (flags, stop, rest)
    else none

end ScopedConf.Log.Expression
