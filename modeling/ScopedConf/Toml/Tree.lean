import ScopedConf.Toml.Basic

/-! Tables under construction. A table knows how it came about, for that decides what may still be
added to it. -/

namespace ScopedConf.Toml

/-- How a table came about: by its own header, as part of the way to another header, or as part of
a dotted key. -/
inductive Origin
  | header
  | way
  | dotted
  deriving DecidableEq

inductive Tree
  | value (v : Toml)
  | table (origin : Origin) (members : List (String × Tree))
  /-- Tables under one name, the last one first. -/
  | tables (elements : List (List (String × Tree)))

namespace Tree

abbrev Members := List (String × Tree)

def empty : Tree := table .header []

/-- Puts a member in the place of an older one of that name, or at the end. -/
def put (name : String) (t : Tree) : Members → Members
  | [] => [(name, t)]
  | (other, old) :: rest =>
    if name = other then (name, t) :: rest else (other, old) :: put name t rest

/-- Changes the table that `path` leads to; tables that are missing on the way are made. A dotted
key does not enter tables that have a header. In an array of tables, the last one is meant. -/
def modify (dotted : Bool) (change : Origin → Members → Option Tree) :
    List String → Origin → Members → Option Tree
  | [], origin, members => change origin members
  | name :: path, origin, members =>
    match members.lookup name with
    | none => do
      let t ← modify dotted change path (if dotted then .dotted else .way) []
      return table origin (put name t members)
    | some (table inner old) =>
      if dotted ∧ inner = .header then none
      else do
        let t ← modify dotted change path inner old
        return table origin (put name t members)
    | some (tables (last :: before)) =>
      match modify dotted change path .header last with
      | some (table _ changed) =>
        some (table origin (put name (tables (changed :: before)) members))
      | _ => none
    | some _ => none

/-- Adds the value of a dotted key, whose last part must be new. A table that a header passed
through is not reached by a dotted key. -/
def defineIn (key : List String) (v : Toml) (origin : Origin) (members : Members) : Option Tree :=
  match key.reverse with
  | [] => none
  | last :: path =>
    let change (origin : Origin) (members : Members) : Option Tree :=
      if path ≠ [] ∧ origin ≠ .dotted then none
      else if (members.lookup last).isSome then none
      else some (table origin (put last (value v) members))
    modify true change path.reverse origin members

def define (t : Tree) (key : List String) (v : Toml) : Option Tree :=
  match t with
  | table origin members => defineIn key v origin members
  | _ => none

def defineAt (t : Tree) (path key : List String) (v : Toml) : Option Tree :=
  match t with
  | table origin members => modify false (defineIn key v) path origin members
  | _ => none

/-- Makes a table by its header. It may have been passed on the way to another one before. -/
def openTable (t : Tree) (path : List String) : Option Tree :=
  let change (name : String) (origin : Origin) (members : Members) : Option Tree :=
    match members.lookup name with
    | none => some (table origin (put name (table .header []) members))
    | some (table .way old) => some (table origin (put name (table .header old) members))
    | some _ => none
  match t, path.reverse with
  | table origin members, name :: before => modify false (change name) before.reverse origin members
  | _, _ => none

def openElement (t : Tree) (path : List String) : Option Tree :=
  let change (name : String) (origin : Origin) (members : Members) : Option Tree :=
    match members.lookup name with
    | none => some (table origin (put name (tables [[]]) members))
    | some (tables elements) => some (table origin (put name (tables ([] :: elements)) members))
    | some _ => none
  match t, path.reverse with
  | table origin members, name :: before => modify false (change name) before.reverse origin members
  | _, _ => none

mutual

def toToml : Tree → Toml
  | value v => v
  | table _ members => .table (membersToToml members)
  | tables elements => .list (elementsToToml elements).reverse

def membersToToml : List (String × Tree) → List (String × Toml)
  | [] => []
  | (name, t) :: rest => (name, toToml t) :: membersToToml rest

def elementsToToml : List (List (String × Tree)) → List Toml
  | [] => []
  | members :: rest => .table (membersToToml members) :: elementsToToml rest

end

end Tree

end ScopedConf.Toml
