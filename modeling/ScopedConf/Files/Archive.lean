import ScopedConf.Files.Basic

/-! Files in memory, in the order of their paths. -/

namespace ScopedConf

structure Archive where
  entries : List (Path × List UInt8)

namespace Archive

/-- Puts a file at its place among others; where the path is there already, its text stays and the
content is replaced. -/
def insertEntry (p : Path) (content : List UInt8) :
    List (Path × List UInt8) → List (Path × List UInt8)
  | [] => [(p, content)]
  | (q, old) :: rest =>
    if p.same q then (q, content) :: rest
    else if p.le q then (p, content) :: (q, old) :: rest
    else (q, old) :: insertEntry p content rest

def insert (a : Archive) (p : Path) (content : List UInt8) : Archive :=
  ⟨insertEntry p content a.entries⟩

def ofList (files : List (Path × List UInt8)) : Archive :=
  files.foldl (fun a (p, content) => a.insert p content) ⟨[]⟩

def read (a : Archive) (p : Path) : Except Cause (List UInt8) :=
  match a.entries.find? fun (q, _) => p.same q with
  | some (_, content) => .ok content
  | none => .error (.notFound p.text)

def matching (a : Archive) (p : Path) : Except Wildcard.Fault (List Path) :=
  (Wildcard.ofText p.text).map fun w => (a.entries.map Prod.fst).filter fun q => w.accepts q.text

def files (a : Archive) : Files :=
  .ofCauses a.read (Files.expandBy a.matching)

end Archive

end ScopedConf
