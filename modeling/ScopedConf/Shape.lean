import ScopedConf.Text.Flags

/-! How many arguments a directive takes and whether it opens a block. Bit `n` of the low half
stands for exactly `n` arguments; four further bits leave the count open. -/

namespace ScopedConf

structure Shape where
  bits : UInt32
  deriving DecidableEq

namespace Shape

instance : OrOp Shape where
  or a b := ⟨a.bits ||| b.bits⟩

def exactly (n : Nat) : Shape := ⟨UInt32.ofNat (1 <<< n)⟩

def noArguments : Shape := exactly 0
def block : Shape := ⟨0x10000⟩
def flag : Shape := ⟨0x20000⟩
def anyNumber : Shape := ⟨0x40000⟩
def oneOrMore : Shape := ⟨0x80000⟩
def twoOrMore : Shape := ⟨0x100000⟩
def once : Shape := ⟨0x1000000⟩

/-- The largest count that has a bit of its own. -/
def maxCount : Nat := 9

def flagNames : List (String × UInt32) :=
  [("NOARGS", (exactly 0).bits), ("TAKE1", (exactly 1).bits), ("TAKE2", (exactly 2).bits),
    ("TAKE3", (exactly 3).bits), ("TAKE4", (exactly 4).bits), ("TAKE5", (exactly 5).bits),
    ("TAKE6", (exactly 6).bits), ("TAKE7", (exactly 7).bits), ("TAKE8", (exactly 8).bits),
    ("TAKE9", (exactly 9).bits), ("TAKE12", (exactly 1 ||| exactly 2).bits),
    ("TAKE13", (exactly 1 ||| exactly 3).bits), ("TAKE23", (exactly 2 ||| exactly 3).bits),
    ("TAKE123", (exactly 1 ||| exactly 2 ||| exactly 3).bits),
    ("TAKE1234", (exactly 1 ||| exactly 2 ||| exactly 3 ||| exactly 4).bits),
    ("BLOCK", block.bits), ("FLAG", flag.bits), ("ANY", anyNumber.bits),
    ("ONE_MORE", oneOrMore.bits), ("TWO_MORE", twoOrMore.bits), ("ONCE", once.bits)]

def text (s : Shape) : String :=
  "ArgShape(" ++ Text.flagsText flagNames s.bits ++ ")"

def has (s f : Shape) : Bool :=
  s.bits &&& f.bits == f.bits

def counts (s : Shape) (n : Nat) : Bool :=
  s.bits.toNat.testBit n

/-- An open count wins over the fixed ones, in this order of precedence. -/
def accepts (s : Shape) (n : Nat) : Bool :=
  if s.has anyNumber then true
  else if s.has flag then n == 1
  else if s.has oneOrMore then 1 ≤ n
  else if s.has twoOrMore then 2 ≤ n
  else n ≤ maxCount && s.counts n

def fixedCounts (s : Shape) : List Nat :=
  (List.range (maxCount + 1)).filter s.counts

/-- The counts as a phrase: `1, 2 or 3`. -/
def countsText (ns : List Nat) : String :=
  match ns.reverse with
  | [] => "none"
  | [last] => toString last
  | last :: init => ", ".intercalate (init.reverse.map toString) ++ " or " ++ toString last

def expected (s : Shape) : String :=
  if s.has anyNumber then "any number"
  else if s.has flag then "1 (on or off)"
  else if s.has oneOrMore then "at least 1"
  else if s.has twoOrMore then "at least 2"
  else countsText s.fixedCounts

inductive Defect
  | conflicting
  | mixed
  | uncounted
  | countTooLarge
  deriving DecidableEq

def Defect.message : Defect → String
  | .conflicting => "conflicting argument-count flags"
  | .mixed => "fixed argument counts combined with FLAG/ANY/1MORE/2MORE"
  | .uncounted => "no argument count declared"
  | .countTooLarge => s!"argument counts above {maxCount} are not supported"

def openCounts (s : Shape) : List Shape :=
  [flag, anyNumber, oneOrMore, twoOrMore].filter s.has

/-- The low half: the fixed counts, met or not. -/
def fixedBits (s : Shape) : Nat :=
  s.bits.toNat % UInt16.size

/-- A shape leaves the count open in one way, or fixes it to numbers up to the largest. -/
def validate (s : Shape) : Except Defect Unit :=
  if 1 < s.openCounts.length then .error .conflicting
  else if s.openCounts ≠ [] ∧ s.fixedBits ≠ 0 then .error .mixed
  else if s.openCounts = [] ∧ s.fixedBits = 0 then .error .uncounted
  else if 1 <<< (maxCount + 1) ≤ s.fixedBits then .error .countTooLarge
  else .ok ()

end Shape

end ScopedConf
