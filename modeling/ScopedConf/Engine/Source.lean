import ScopedConf.Files.Basic
import ScopedConf.Statement.Scan

/-! Open sources: texts that are being read, the innermost include in front. -/

namespace ScopedConf

structure Source where
  cursor : Cursor
  /-- Where relative includes are looked up. -/
  directory : Option Path
  /-- The number of blocks that were open when the source was opened. -/
  baseDepth : Nat
  /-- The number of includes that led to the source. -/
  includeDepth : Nat

namespace Source

def ofText (name : String) (bytes : List UInt8) : Source :=
  ⟨Cursor.ofBytes name bytes, none, 0, 0⟩

def ofFile (p : Path) (bytes : List UInt8) (baseDepth includeDepth : Nat) : Source :=
  ⟨Cursor.ofBytes p.text bytes, p.parent?, baseDepth, includeDepth⟩

def advance (s : Source) (cursor : Cursor) : Source :=
  { s with cursor := cursor }

theorem includeDepth_advance (s : Source) (cursor : Cursor) :
    (s.advance cursor).includeDepth = s.includeDepth := rfl

/-- The path that an include of `target` in this source means. -/
def resolve (s : Source) (target : String) : Path :=
  match s.directory with
  | some directory => directory.join ⟨target⟩
  | none => ⟨target⟩

end Source

end ScopedConf
