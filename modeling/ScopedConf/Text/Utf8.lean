/-! UTF-8 as an automaton over bytes. Strict decoding fails at the first byte that cannot stand
where it is; lossy decoding writes U+FFFD for each longest beginning of a character that breaks
off. -/

namespace ScopedConf.Utf8

def encode (cs : List Char) : List UInt8 :=
  cs.flatMap String.utf8EncodeChar

/-- The characters in the first `n` bytes of a text and those behind; these bytes have to be whole
characters. -/
def splitAt? : Nat → List Char → Option (List Char × List Char)
  | 0, cs => some ([], cs)
  | _ + 1, [] => none
  | n + 1, c :: cs =>
    if n + 1 < c.utf8Size then none
    else (splitAt? (n + 1 - c.utf8Size) cs).map fun (front, rest) => (c :: front, rest)

/-- What the next byte has to be: the start of a character, or one of `left + 1` continuation
bytes, the first of them between `low` and `high`. -/
inductive Need
  | start
  | more (bits : Nat) (low high : UInt8) (left : Nat)
  deriving DecidableEq

/-- The continuation a leading byte asks for. Overlong forms, surrogates and values beyond
U+10FFFF are kept out by the range of the second byte. -/
def Need.ofLead? (b : UInt8) : Option Need :=
  if 0xC2 ≤ b && b ≤ 0xDF then some (.more (b.toNat % 32) 0x80 0xBF 0)
  else if b == 0xE0 then some (.more 0 0xA0 0xBF 1)
  else if b == 0xED then some (.more 13 0x80 0x9F 1)
  else if 0xE1 ≤ b && b ≤ 0xEF then some (.more (b.toNat % 16) 0x80 0xBF 1)
  else if b == 0xF0 then some (.more 0 0x90 0xBF 2)
  else if 0xF1 ≤ b && b ≤ 0xF3 then some (.more (b.toNat % 8) 0x80 0xBF 2)
  else if b == 0xF4 then some (.more 4 0x80 0x8F 2)
  else none

/-- Reads one byte: the character it completes, if any, and what is needed next. -/
def feed : Need → UInt8 → Option (Option Char × Need)
  | .start, b =>
    if b < 0x80 then some (some (Char.ofNat b.toNat), .start)
    else (Need.ofLead? b).map fun need => (none, need)
  | .more bits low high left, b =>
    if low ≤ b && b ≤ high then
      let bits := bits * 64 + b.toNat % 64
      match left with
      | 0 => some (some (Char.ofNat bits), .start)
      | left + 1 => some (none, .more bits 0x80 0xBF left)
    else none

/-- The characters of the bytes, begun in the middle of a character where `need` says so. -/
def decodeFrom : Need → List UInt8 → Option (List Char)
  | .start, [] => some []
  | .more .., [] => none
  | need, b :: bs =>
    match feed need b with
    | none => none
    | some (some c, next) => (decodeFrom next bs).map (c :: ·)
    | some (none, next) => decodeFrom next bs

def decode? (bs : List UInt8) : Option String :=
  (decodeFrom .start bs).map String.ofList

def replacement : Char := '\uFFFD'

/-- The lossy reading of one byte: what is written and what is needed next. -/
def feedLossy (need : Need) (b : UInt8) : List Char × Need :=
  match feed need b with
  | some (c, next) => (c.toList, next)
  | none =>
    if need = .start then ([replacement], .start)
    else
      match feed .start b with
      | some (c, next) => (replacement :: c.toList, next)
      | none => ([replacement, replacement], .start)

def decodeLossyFrom : Need → List UInt8 → List Char
  | .start, [] => []
  | .more .., [] => [replacement]
  | need, b :: bs =>
    let (written, next) := feedLossy need b
    written ++ decodeLossyFrom next bs

def decodeLossy (bs : List UInt8) : String :=
  String.ofList (decodeLossyFrom .start bs)

end ScopedConf.Utf8
