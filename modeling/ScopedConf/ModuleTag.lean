import ScopedConf.Text.Utf8

/-! The type of a module: four bytes, shown as text. -/

namespace ScopedConf

structure ModuleTag where
  first : UInt8
  second : UInt8
  third : UInt8
  fourth : UInt8
  deriving DecidableEq

namespace ModuleTag

def bytes (t : ModuleTag) : List UInt8 :=
  [t.first, t.second, t.third, t.fourth]

/-- The first four bytes; a missing one is zero. -/
def ofBytes (bs : List UInt8) : ModuleTag :=
  ⟨bs.getD 0 0, bs.getD 1 0, bs.getD 2 0, bs.getD 3 0⟩

def core : ModuleTag := ⟨0x43, 0x4F, 0x52, 0x45⟩

/-- `CONF`, the type of modules whose directives are legal under every module type. -/
def conf : ModuleTag := ⟨0x43, 0x4F, 0x4E, 0x46⟩

def text (t : ModuleTag) : String :=
  Utf8.decodeLossy t.bytes

def debugText (t : ModuleTag) : String :=
  "ModuleType(" ++ t.text ++ ")"

end ModuleTag

end ScopedConf
