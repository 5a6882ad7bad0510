import ScopedConf.Text.Flags

/-! Sets of context types. Bit 0 is the top level; modules give the other bits a meaning. -/

namespace ScopedConf

structure ContextSet where
  bits : UInt32
  deriving DecidableEq

namespace ContextSet

instance : OrOp ContextSet where
  or a b := ⟨a.bits ||| b.bits⟩

def single (n : Nat) : ContextSet := ⟨UInt32.ofNat (1 <<< n)⟩

def main : ContextSet := single 0

def any : ContextSet := ⟨0xFFFFFFFF⟩

def isEmpty (s : ContextSet) : Bool :=
  s.bits == 0

def meets (s t : ContextSet) : Bool :=
  s.bits &&& t.bits != 0

def includes (s t : ContextSet) : Bool :=
  s.bits &&& t.bits == t.bits

def size (s : ContextSet) : Nat :=
  ((List.range 32).filter s.bits.toNat.testBit).length

def text (s : ContextSet) : String :=
  "Contexts(" ++ Text.flagsText [("MAIN", main.bits), ("ANY", any.bits)] s.bits ++ ")"

end ContextSet

end ScopedConf
