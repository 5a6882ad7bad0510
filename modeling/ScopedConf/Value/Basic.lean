import ScopedConf.Duration
import ScopedConf.Text.Quoted

/-! The values that setters store, as they are reported to checks and shown in messages. -/

namespace ScopedConf

structure Buffers where
  count : Nat
  size : Nat
  deriving DecidableEq

inductive Value
  | unit
  | flag (on : Bool)
  | text (s : String)
  | int (n : Int)
  | duration (d : Duration)
  | size (bytes : Nat)
  | mask (bits : UInt32)
  | choice (n : UInt32)
  | list (items : List String)
  | buffers (b : Buffers)
  deriving DecidableEq

namespace Value

def call (head argument : String) : String :=
  head ++ "(" ++ argument ++ ")"

def debugText : Value → String
  | unit => "Unit"
  | flag on => call "Flag" (if on then "true" else "false")
  | text s => call "Str" (Text.quote s)
  | int n => call "Int" (toString n)
  | duration d => call "Duration" d.text
  | size n => call "Size" (toString n)
  | mask bits => call "Bitmask" (toString bits.toNat)
  | choice n => call "Enum" (toString n.toNat)
  | list items => call "List" (Text.quoteList items)
  | buffers b => call "Bufs" s!"Bufs \x7b num: {b.count}, size: {b.size} \x7d"

end Value

/-- Why a setter, a check or a block strategy refuses. -/
inductive Refusal
  | invalid (token reason : String)
  | outOfRange (reason : String)
  | wrongRecord
  deriving DecidableEq

def Refusal.message : Refusal → String
  | .invalid token reason => s!"invalid value \"{token}\": {reason}"
  | .outOfRange reason => reason
  | .wrongRecord => "configuration record type mismatch"

end ScopedConf
