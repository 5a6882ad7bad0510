import ScopedConf.Files.Search

/-! Files of which only what was asked for is known. Whoever reads from them and ends for want of a
path can ask for it and read again. -/

namespace ScopedConf

/-- What there is to know about a path: the bytes it leads to, and the paths it stands for. -/
structure Answer where
  content : Except Cause (List UInt8)
  paths : Except Cause (List Path)

abbrev Answers := List (Path × Answer)

namespace Answers

/-- A path that was not asked for yet counts as not there. -/
def read (known : Answers) (p : Path) : Except Cause (List UInt8) :=
  match known.lookup p with
  | some answer => answer.content
  | none => .error (.notFound p.text)

def expand (known : Answers) (p : Path) : Except Cause (List Path) :=
  match known.lookup p with
  | some answer => answer.paths
  | none => if Wildcard.isWild p.text then .error (.notFound p.text) else .ok [p]

def files (known : Answers) : Files :=
  .ofCauses known.read known.expand

end Answers

namespace Path

def tameParts (p : Path) : List (List Char) :=
  (parts p.text.toList).takeWhile fun part => !Wildcard.isWild (String.ofList part)

def wildParts (p : Path) : List (List Char) :=
  (parts p.text.toList).drop p.tameParts.length

/-- How often a pattern may lead up: its wild parts do where they open with a dot, and so do two
dots behind them. -/
def climb (p : Path) : Nat :=
  p.wildParts.countP fun part => part.head? == some '.'

/-- The folder above everything that a pattern leads to. -/
def tameFolder (p : Path) : Path :=
  ⟨String.ofList (joinParts (p.tameParts ++ List.replicate p.climb ['.', '.'] ++ [[]]))⟩

/-- How far below that folder a pattern leads; two stars lead as far as paths go. -/
def wildDepth (p : Path) : Nat :=
  if ['*', '*'] ∈ p.wildParts then Disk.maxPath else p.climb + p.wildParts.length

end Path

end ScopedConf
