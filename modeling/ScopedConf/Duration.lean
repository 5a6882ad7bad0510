/-! Lengths of time, in whole nanoseconds. -/

namespace ScopedConf

structure Duration where
  nanos : Nat
  deriving DecidableEq

namespace Duration

def ofMillis (n : Nat) : Duration := ⟨n * 1000000⟩

def ofSeconds (n : Nat) : Duration := ⟨n * 1000000000⟩

def seconds (d : Duration) : Nat :=
  d.nanos / 1000000000

def subsecond (d : Duration) : Nat :=
  d.nanos % 1000000000

instance : LE Duration where
  le a b := a.nanos ≤ b.nanos

instance : LT Duration where
  lt a b := a.nanos < b.nanos

instance (a b : Duration) : Decidable (a ≤ b) :=
  inferInstanceAs (Decidable (a.nanos ≤ b.nanos))

instance (a b : Duration) : Decidable (a < b) :=
  inferInstanceAs (Decidable (a.nanos < b.nanos))

/-- The decimal places of `n` of `10 ^ width` parts, without trailing zeros. -/
def places (width n : Nat) : List Char :=
  let digits := Nat.toDigits 10 n
  let padded := List.replicate (width - digits.length) '0' ++ digits
  (padded.reverse.dropWhile (· == '0')).reverse

def inUnit (width n : Nat) (unit : String) : String :=
  let whole := toString (n / Nat.pow 10 width)
  match places width (n % Nat.pow 10 width) with
  | [] => whole ++ unit
  | fraction => whole ++ "." ++ String.ofList fraction ++ unit

/-- The largest unit that is not above the length, with as many places as are needed. -/
def text (d : Duration) : String :=
  if 1000000000 ≤ d.nanos then inUnit 9 d.nanos "s"
  else if 1000000 ≤ d.nanos then inUnit 6 d.nanos "ms"
  else if 1000 ≤ d.nanos then inUnit 3 d.nanos "µs"
  else inUnit 0 d.nanos "ns"

end Duration

end ScopedConf
