import ScopedConf.Toml.Text

/-! Numbers in settings files. An underscore may stand between two digits. -/

namespace ScopedConf.Toml

def moreDigits (ok : Char → Bool) : List Char → List Char × List Char
  | [] => ([], [])
  | '_' :: d :: cs =>
    if ok d then
      let (digits, rest) := moreDigits ok cs
      (d :: digits, rest)
    else ([], '_' :: d :: cs)
  | c :: cs =>
    if ok c then
      let (digits, rest) := moreDigits ok cs
      (c :: digits, rest)
    else ([], c :: cs)

def readDigits (ok : Char → Bool) : Reader (List Char)
  | [] => none
  | c :: cs =>
    if ok c then
      let (digits, rest) := moreDigits ok cs
      some (c :: digits, rest)
    else none

def readSign : List Char → Bool × List Char
  | '-' :: cs => (true, cs)
  | '+' :: cs => (false, cs)
  | cs => (false, cs)

/-- Decimal digits with a sign. A zero in front stands alone. -/
def readDecimal (cs : List Char) : Option ((Bool × List Char) × List Char) :=
  let (negative, cs) := readSign cs
  match cs with
  | '0' :: rest => some ((negative, ['0']), rest)
  | cs => (readDigits Text.isDigit cs).map fun (digits, rest) => ((negative, digits), rest)

def valueIn (radix : Nat) (digits : List Char) : Nat :=
  digits.foldl (fun n c => n * radix + (Text.hexValue? c).getD 0) 0

def isDigitOf (radix : Nat) (c : Char) : Bool :=
  match Text.hexValue? c with
  | some n => n < radix
  | none => false

def readRadix (radix : Nat) (cs : List Char) : Option (Int × List Char) := do
  let (digits, rest) ← readDigits (isDigitOf radix) cs
  let n := valueIn radix digits
  if n < Text.signedBound then some ((n : Int), rest) else none

def readInt : Reader Int
  | '0' :: 'x' :: cs => readRadix 16 cs
  | '0' :: 'o' :: cs => readRadix 8 cs
  | '0' :: 'b' :: cs => readRadix 2 cs
  | cs => do
    let ((negative, digits), rest) ← readDecimal cs
    let n := valueIn 10 digits
    if negative then
      if n ≤ Text.signedBound then some (-(n : Int), rest) else none
    else if n < Text.signedBound then some ((n : Int), rest)
    else none

def readFraction : List Char → Option (Option (List Char) × List Char)
  | '.' :: cs => (readDigits Text.isDigit cs).map fun (digits, rest) => (some digits, rest)
  | cs => some (none, cs)

def readExponent : List Char → Option (Option Int × List Char)
  | 'e' :: cs => power cs
  | 'E' :: cs => power cs
  | cs => some (none, cs)
where
  power (cs : List Char) : Option (Option Int × List Char) := do
    let (negative, cs) := readSign cs
    let (digits, rest) ← readDigits Text.isDigit cs
    let n := valueIn 10 digits
    return (some (if negative then -(n : Int) else n), rest)

/-- Whether `n · 10 ^ exponent` is too large for a double: no power of ten below 2 ^ 1024 has more
than 309 digits, and from half a step above the largest double on the nearest one is infinite. -/
def overflows (n : Nat) (exponent : Int) : Bool :=
  let digits := (Nat.toDigits 10 n).length + exponent
  if n = 0 ∨ digits < 300 then false
  else if 320 < digits then true
  else
    let limit := 1 <<< 1024 - 1 <<< 970
    if 0 ≤ exponent then limit ≤ n * Nat.pow 10 exponent.toNat
    else limit * Nat.pow 10 (-exponent).toNat ≤ n

/-- A number with a fraction or a power of ten, which must not be too large. -/
def readFloat (cs : List Char) : Option (Unit × List Char) := do
  let ((negative, whole), rest) ← readDecimal cs
  let (fraction, rest) ← readFraction rest
  let (power, rest) ← readExponent rest
  let places := fraction.getD []
  let exponent := power.getD 0 - places.length
  if fraction.isNone ∧ power.isNone then none
  else if !negative ∧ overflows (valueIn 10 (whole ++ places)) exponent then none
  else some ((), rest)

def readFloatWord (cs : List Char) : Option (Unit × List Char) :=
  match (readSign cs).2 with
  | 'i' :: 'n' :: 'f' :: rest => some ((), rest)
  | 'n' :: 'a' :: 'n' :: rest => some ((), rest)
  | _ => none

end ScopedConf.Toml
