import ScopedConf.Toml.Value

/-! Settings files as a whole: keys with values, and headers of tables, line by line. -/

namespace ScopedConf.Toml

inductive Line
  | blank
  | pair (key : List String) (value : Toml)
  | table (path : List String)
  | element (path : List String)

def closeHeader? : Nat → List Char → Option (List Char)
  | 0, cs => some cs
  | n + 1, ']' :: cs => closeHeader? n cs
  | _ + 1, _ => none

def readHeader (brackets : Nat) (line : List String → Line) (cs : List Char) :
    Option (Line × List Char) := do
  let (path, rest) ← readKey cs
  let rest ← closeHeader? brackets rest
  return (line path, rest)

def readLine (cs : List Char) : Option (Line × List Char) :=
  match skipSpaces cs with
  | [] => some (.blank, [])
  | '[' :: '[' :: rest => readHeader 2 .element rest
  | '[' :: rest => readHeader 1 .table rest
  | c :: rest =>
    if c = '#' ∨ c = '\n' ∨ c = '\r' then some (.blank, c :: rest)
    else
      (readPair (readValue (maxDepth - 1)) (c :: rest)).map fun ((key, v), rest) =>
        (.pair key v, rest)

structure Draft where
  tree : Tree
  header : List String

def Draft.add (d : Draft) : Line → Option Draft
  | .blank => some d
  | .pair key v => (d.tree.defineAt d.header key v).map fun tree => { d with tree := tree }
  | .table path => (d.tree.openTable path).map fun tree => ⟨tree, path⟩
  | .element path => (d.tree.openElement path).map fun tree => ⟨tree, path⟩

def readLines (d : Draft) (cs : List Char) : Option Draft :=
  if cs.isEmpty then some d
  else
    match readLine cs with
    | none => none
    | some (line, rest) =>
      match d.add line, endLine? rest with
      | some d, some rest => if rest.length < cs.length then readLines d rest else none
      | _, _ => none
termination_by cs.length

def skipByteOrderMark : List Char → List Char
  | '\uFEFF' :: cs => cs
  | cs => cs

def parse? (s : String) : Option Toml :=
  (readLines ⟨Tree.empty, []⟩ (skipByteOrderMark s.toList)).map fun d => d.tree.toToml

end ScopedConf.Toml
