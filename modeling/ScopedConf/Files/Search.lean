import ScopedConf.Files.Disk
import ScopedConf.Wildcard

/-! Search on a disk: a pattern is followed part by part, and the files it leads to come out in the
order of their paths. Of paths that are the same by their components, the one that is found first
comes first: what is above a folder is found before what is in it, and a dot before the names. -/

namespace ScopedConf.Disk

def here : Path := ⟨"."⟩

/-- `name` as seen from `p`; what lies in the working folder goes by its bare name. -/
def extend (p : Path) (name : String) : Path :=
  if p.same here then ⟨name⟩ else p.join ⟨name⟩

def extendAll (p : Path) : List String → Path
  | [] => p
  | name :: names => names.foldl (fun q n => q.join ⟨n⟩) (extend p name)

/-- The parts of a pattern. A slash at the end opens no further part. -/
def patternParts (pattern : List Char) : List (List Char) :=
  match (Path.parts pattern).reverse with
  | [] :: before => before.reverse
  | all => all.reverse

/-- Of several parts of two stars in a row, one is enough. -/
def collapse : List Wildcard → List Wildcard
  | [] => []
  | w :: ws =>
    match collapse ws with
    | v :: vs => if w.isDeep && v.isDeep then v :: vs else w :: v :: vs
    | [] => [w]

variable (d : Disk) (onlyFolders : Bool)

def dots (w : Wildcard) : List String :=
  if w.items.head? = some (.char '.') then ["..", "."].filter w.accepts else []

/-- Where the first part of a pattern leads from `p`, one level down. -/
def descend (w : Wildcard) (p : Path) : List Path :=
  match w.literal? with
  | some name =>
    let there :=
      if name = "." ∨ name = ".." then d.isFolder p else d.holds (extend p name)
    if there then [extend p name] else []
  | none =>
    if d.isFolder p then
      let inside := (d.below p).filter fun names => names.length == 1 && names.all w.accepts
      (dots w).map (fun dot => p.join ⟨dot⟩) ++ inside.map (extendAll p)
    else []

/-- What lies below `p` at any depth and has a name that `w` accepts. -/
def descendDeep (w : Wildcard) (p : Path) : List Path :=
  ((d.below p).filter fun names => (names.getLast?.map w.accepts).getD false).map (extendAll p)

/-- Everything a pattern leads to from `p`. Two stars at the end lead to the folders below. -/
def search : List Wildcard → Path → List Path
  | [], p => if onlyFolders && !d.isFolder p then [] else [p]
  | w :: v :: ws, p =>
    if w.isDeep then (d.descendDeep v p).flatMap (search ws)
    else (d.descend w p).flatMap (search (v :: ws))
  | [w], p =>
    if w.isDeep then ((d.below p).map (extendAll p)).filter d.isFolder
    else (d.descend w p).flatMap (search [])

def matching (p : Path) : Except Wildcard.Fault (List Path) := do
  let _ ← Wildcard.ofText p.text
  let (start, pattern) :=
    match p.text.toList with
    | '/' :: cs => ((⟨"/"⟩ : Path), cs)
    | cs => (here, cs)
  let parts ← (patternParts pattern).mapM fun part => Wildcard.ofText (String.ofList part)
  let onlyFolders := p.text.toList.getLast? == some '/'
  return ((d.search onlyFolders (collapse parts) start).filter d.isFile).mergeSort Path.le

def files : Files :=
  .ofCauses d.read (Files.expandBy d.matching)

end ScopedConf.Disk
