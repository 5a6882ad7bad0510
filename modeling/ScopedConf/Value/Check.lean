import ScopedConf.Text.Decimal
import ScopedConf.Value.Basic

/-! Checks made on a value after it is stored. -/

namespace ScopedConf

abbrev Check := Value → Except Refusal Unit

namespace Check

def inBounds (low : Int) (high : Option Int) (n : Int) : Except Refusal Unit :=
  if n < low then .error (.outOfRange s!"value must be equal or more than {low}")
  else
    match high with
    | none => .ok ()
    | some high =>
      if high < n then .error (.outOfRange s!"value must be between {low} and {high}") else .ok ()

/-- Inclusive bounds for integers and sizes. A size beyond the signed range counts as the largest
signed number. -/
def numbers (low : Int) (high : Option Int) : Check
  | .int n => inBounds low high n
  | .size n => inBounds low high (min n (Text.signedBound - 1) : Nat)
  | v => .error (.outOfRange ("bounds apply to numbers, got " ++ v.debugText))

def durations (low high : Duration) : Check
  | .duration d =>
    if d < low ∨ high < d then
      .error (.outOfRange s!"value must be between {low.text} and {high.text}")
    else .ok ()
  | v => .error (.outOfRange ("bounds apply to durations, got " ++ v.debugText))

end Check

end ScopedConf
