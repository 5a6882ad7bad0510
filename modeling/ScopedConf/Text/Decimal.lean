/-! Numbers written in decimal digits, read exactly and bounded afterwards. -/

namespace ScopedConf.Text

def isDigit (c : Char) : Bool :=
  '0' ≤ c && c ≤ '9'

def digitValue (c : Char) : Nat :=
  c.toNat - '0'.toNat

/-- The number that digits denote, leading zeros included. -/
def decimalValue (cs : List Char) : Nat :=
  cs.foldl (fun n c => n * 10 + digitValue c) 0

/-- One digit or more, and nothing else. -/
def decimal? (cs : List Char) : Option Nat :=
  if cs ≠ [] ∧ cs.all isDigit then some (decimalValue cs) else none

/-- Digits after an optional plus sign, for a number below `bound`. -/
def unsigned? (bound : Nat) (cs : List Char) : Option Nat :=
  let digits :=
    match cs with
    | '+' :: rest => rest
    | _ => cs
  (decimal? digits).filter (· < bound)

/-- Digits after an optional sign, for a number from `-bound` up to but not including `bound`. -/
def signed? (bound : Nat) (cs : List Char) : Option Int :=
  match cs with
  | '-' :: digits => ((decimal? digits).filter (· ≤ bound)).map fun n => -(n : Int)
  | _ => (unsigned? bound cs).map fun n => (n : Int)

def wordBound : Nat := UInt64.size

/-- The numbers a signed 64-bit word holds lie below this, and not below its negative. -/
def signedBound : Nat := UInt64.size / 2

end ScopedConf.Text
