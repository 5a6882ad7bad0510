/-! Statements: groups of arguments closed by a semicolon or a brace. -/

namespace ScopedConf

/-- A line of a source, counted from 1. -/
structure Location where
  file : String
  line : Nat
  deriving DecidableEq

def Location.text (l : Location) : String :=
  l.file ++ ":" ++ toString l.line

/-- How a statement ends. A closing brace stands alone. -/
inductive Terminator
  | semicolon
  | openBrace
  | closeBrace
  deriving DecidableEq

/-- One argument, with the line of its first byte. -/
structure Token where
  value : String
  line : Nat
  quoted : Bool
  deriving DecidableEq

/-- One group of arguments; the first is the name, and a closing brace has none. -/
structure Statement where
  args : List Token
  terminator : Terminator
  location : Location
  deriving DecidableEq

namespace Statement

def name (s : Statement) : String :=
  (s.args.head?.map Token.value).getD ""

def values (s : Statement) : List Token :=
  s.args.tail

/-- The first argument after the name; empty if there is none. -/
def argument (s : Statement) : String :=
  (s.values.head?.map Token.value).getD ""

def words (s : Statement) : List String :=
  s.args.map Token.value

end Statement

end ScopedConf
