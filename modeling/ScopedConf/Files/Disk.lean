import ScopedConf.Files.Basic
import ScopedConf.Text.Utf8

/-! A tree of files and folders, and the folder in which the program works. -/

namespace ScopedConf

/-- Files with their content and folders without, each under the names that lead to it from the
root. The root and the working folder `home` with all folders around it are always there. -/
structure Disk where
  home : List String
  entries : List (List String × Option (List UInt8))

namespace Disk

def entry? (d : Disk) (names : List String) : Option (Option (List UInt8)) :=
  if names.isPrefixOf d.home then some none else d.entries.lookup names

def isFolderAt (d : Disk) (names : List String) : Bool :=
  d.entry? names == some none

def folders (names : List String) : List (List String) :=
  (List.range names.length).map names.take

def addFolder (d : Disk) (names : List String) : Disk :=
  if (d.entry? names).isSome then d else { d with entries := d.entries ++ [(names, none)] }

/-- Puts a file where the names lead to, in the place of an older one, or a folder where there is no
content. -/
def insert (d : Disk) (names : List String) (content : Option (List UInt8)) : Disk :=
  let d := (folders names).foldl addFolder d
  match content with
  | none => d.addFolder names
  | some _ => { d with entries := d.entries.filter (·.1 ≠ names) ++ [(names, content)] }

def ofList (home : List String) (files : List (Path × Option (List UInt8))) : Disk :=
  files.foldl (fun d (p, content) => d.insert (p.namesFrom home) content) ⟨home, []⟩

def maxName : Nat := 255

def maxPath : Nat := 4095

/-- Why a path leads nowhere; `none` is a name that is not there. -/
abbrev Miss := Option Unreadable

/-- One part of a path further on. Only a folder has something behind it, itself included. -/
def follow (d : Disk) (names : List String) (part : String) : Except Miss (List String) :=
  if !d.isFolderAt names then .error (some .notDirectory)
  else if part = "" ∨ part = "." then .ok names
  else if part = ".." then .ok names.dropLast
  else if maxName < part.utf8ByteSize then .error (some .nameTooLong)
  else if (d.entry? (names ++ [part])).isSome then .ok (names ++ [part])
  else .error none

def locate (d : Disk) (p : Path) : Except Miss (List String) :=
  if p.text.toList.contains '\x00' then .error (some .nulInName)
  else if maxPath < p.text.utf8ByteSize then .error (some .nameTooLong)
  else if p.text.isEmpty then .error none
  else
    let parts := (Path.parts p.text.toList).map String.ofList
    parts.foldlM d.follow (if p.isAbsolute then [] else d.home)

def read (d : Disk) (p : Path) : Except Cause (List UInt8) :=
  match (d.locate p).map d.entry? with
  | .ok (some (some content)) => .ok content
  | .ok (some none) => .error (.unreadable p.text .isDirectory)
  | .error (some why) => .error (.unreadable p.text why)
  | .ok none => .error (.notFound p.text)
  | .error none => .error (.notFound p.text)

def holds (d : Disk) (p : Path) : Bool :=
  (d.locate p).toOption.isSome

def isFolder (d : Disk) (p : Path) : Bool :=
  (d.locate p).toOption.any d.isFolderAt

def isFile (d : Disk) (p : Path) : Bool :=
  (d.locate p).toOption.any fun names => !d.isFolderAt names

/-- The names that lead from a path to everything below it. -/
def below (d : Disk) (p : Path) : List (List String) :=
  match d.locate p with
  | .error _ => []
  | .ok names =>
    let all := (folders d.home).drop 1 ++ d.home :: d.entries.map Prod.fst
    (all.filter fun other => names.isPrefixOf other && other ≠ names).map (·.drop names.length)

end Disk

end ScopedConf
