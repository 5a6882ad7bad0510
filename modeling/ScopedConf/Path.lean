import ScopedConf.Text.Split

/-! Paths: texts whose parts are separated by slashes. Two paths are the same when their components
are; empty parts and single dots are no components, except for a dot that opens a relative path. -/

namespace ScopedConf

structure Path where
  text : String
  deriving DecidableEq

namespace Path

inductive Component
  | root
  | here
  | up
  | name (s : String)
  deriving DecidableEq

def parts (cs : List Char) : List (List Char) :=
  Text.splitOn '/' cs

def joinParts (ps : List (List Char)) : List Char :=
  Text.joinWith '/' ps

def component? (part : List Char) : Option Component :=
  if part = [] ∨ part = ['.'] then none
  else if part = ['.', '.'] then some .up
  else some (.name (String.ofList part))

/-- The opening of a path that is no part among the others, and the text after it. -/
def splitHead : List Char → List Char × List Char
  | '/' :: cs => (['/'], cs)
  | ['.'] => (['.'], [])
  | '.' :: '/' :: cs => (['.'], '/' :: cs)
  | cs => ([], cs)

def head (p : Path) : List Char :=
  (splitHead p.text.toList).1

def body (p : Path) : List Char :=
  (splitHead p.text.toList).2

def isAbsolute (p : Path) : Bool :=
  p.head == ['/']

def components (p : Path) : List Component :=
  let first :=
    if p.isAbsolute then [Component.root] else if p.head = ['.'] then [.here] else []
  first ++ (parts p.body).filterMap component?

/-- Whether two paths name the same place by their components. -/
def same (p q : Path) : Bool :=
  p.components == q.components

/-- The names that lead from the root to the place of the path, as seen from the place `home`. -/
def namesFrom (home : List String) (p : Path) : List String :=
  p.components.foldl
    (fun names component =>
      match component with
      | .root => []
      | .here => names
      | .up => names.dropLast
      | .name s => names ++ [s])
    home

namespace Component

/-- The root comes first, then the dots, then the names. -/
def rank : Component → Nat
  | root => 0
  | here => 1
  | up => 2
  | name _ => 3

def le : Component → Component → Bool
  | name s, name t => s ≤ t
  | c, d => c.rank ≤ d.rank

end Component

/-- The order by components, the first difference deciding. -/
def leComponents : List Component → List Component → Bool
  | [], _ => true
  | _ :: _, [] => false
  | c :: cs, d :: ds => if c = d then leComponents cs ds else c.le d

def le (p q : Path) : Bool :=
  leComponents p.components q.components

/-- Parts without those at the end that are no components. -/
def trimParts (ps : List (List Char)) : List (List Char) :=
  (ps.reverse.dropWhile fun p => (component? p).isNone).reverse

/-- The path without its last component, if it has one to lose. -/
def parent? (p : Path) : Option Path :=
  match (trimParts (parts p.body)).reverse with
  | _ :: init => some ⟨String.ofList (p.head ++ joinParts (trimParts init.reverse))⟩
  | [] => if p.head = ['.'] then some ⟨""⟩ else none

/-- `q` as seen from `p`; an absolute `q` stands for itself. -/
def join (p q : Path) : Path :=
  if q.isAbsolute then q
  else if p.text.isEmpty ∨ p.text.toList.getLast? = some '/' then ⟨p.text ++ q.text⟩
  else ⟨p.text ++ "/" ++ q.text⟩

end Path

end ScopedConf
