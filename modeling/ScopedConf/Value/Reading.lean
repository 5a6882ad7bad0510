import ScopedConf.Text.Blank
import ScopedConf.Text.Decimal
import ScopedConf.Value.Basic

/-! Words read as flags, numbers, sizes and durations. Every reading is exact: what does not fit
a 64-bit word is refused. -/

namespace ScopedConf.Value

inductive Fault
  | notFlag
  | notNumber
  | numberTooLarge
  | sizeTooLarge
  | noTime
  | badTimeUnit
  | timeTooLarge
  deriving DecidableEq

def Fault.message : Fault → String
  | .notFlag => "it must be \"on\" or \"off\""
  | .notNumber => "not a number"
  | .numberTooLarge => "number is too large"
  | .sizeTooLarge => "size is too large"
  | .noTime => "empty time value"
  | .badTimeUnit => "unknown or out-of-order time unit"
  | .timeTooLarge => "time value is too large"

def readFlag (word : String) : Except Fault Bool :=
  if word = "on" then .ok true else if word = "off" then .ok false else .error .notFlag

def readInt (word : String) : Except Fault Int :=
  match Text.signed? Text.signedBound word.toList with
  | some n => .ok n
  | none => .error .notNumber

def readDigits (digits : List Char) : Except Fault Nat :=
  match Text.decimal? digits with
  | none => .error .notNumber
  | some n => if n < Text.wordBound then .ok n else .error .numberTooLarge

def sizeScale? (c : Char) : Option Nat :=
  if c = 'k' ∨ c = 'K' then some 1024
  else if c = 'm' ∨ c = 'M' then some (1024 * 1024)
  else if c = 'g' ∨ c = 'G' then some (1024 * 1024 * 1024)
  else none

def splitSize (cs : List Char) : List Char × Nat :=
  match cs.getLast?.bind sizeScale? with
  | some scale => (cs.dropLast, scale)
  | none => (cs, 1)

def readSize (word : String) : Except Fault Nat := do
  let (digits, scale) := splitSize word.toList
  let n ← readDigits digits
  if n * scale < Text.wordBound then .ok (n * scale) else .error .sizeTooLarge

inductive TimeUnit
  | year
  | month
  | week
  | day
  | hour
  | minute
  | second
  | milli
  deriving DecidableEq

namespace TimeUnit

def all : List TimeUnit := [year, month, week, day, hour, minute, second, milli]

def suffix : TimeUnit → List Char
  | year => ['y']
  | month => ['M']
  | week => ['w']
  | day => ['d']
  | hour => ['h']
  | minute => ['m']
  | second => ['s']
  | milli => ['m', 's']

def millis : TimeUnit → Nat
  | year => 365 * 86400000
  | month => 30 * 86400000
  | week => 7 * 86400000
  | day => 86400000
  | hour => 3600000
  | minute => 60000
  | second => 1000
  | milli => 1

/-- Whether the text starts with the suffix of the unit; an `m` in front of an `s` is no minute. -/
def starts (u : TimeUnit) (cs : List Char) : Bool :=
  u.suffix.isPrefixOf cs && !(u == minute && milli.suffix.isPrefixOf cs)

/-- The first of `units` that the text starts with, and the units that may follow it. -/
def take? (cs : List Char) : List TimeUnit → Option (TimeUnit × List TimeUnit)
  | [] => none
  | u :: smaller => if u.starts cs then some (u, smaller) else take? cs smaller

theorem take?_length_lt {cs : List Char} {units smaller : List TimeUnit} {u : TimeUnit}
    (h : take? cs units = some (u, smaller)) : smaller.length < units.length := by
  induction units with
  | nil => simp [take?] at h
  | cons v vs ih =>
    unfold take? at h
    split at h
    · simp only [Option.some.injEq, Prod.mk.injEq] at h
      simp [← h.2]
    · simpa only [List.length_cons] using Nat.lt_succ_of_lt (ih h)

end TimeUnit

/-- `total` with `n` units of `scale` added, if it still fits a word. -/
def addTime (total n scale : Nat) : Except Fault Nat :=
  if total + n * scale < Text.wordBound then .ok (total + n * scale) else .error .timeTooLarge

/-- Adds up the components of `cs`, whose units are among `units` and in their order. A number
without a unit ends the text and counts in `bare`. -/
def sumTime (bare : TimeUnit) (units : List TimeUnit) (total : Nat) (cs : List Char) :
    Except Fault Nat :=
  if cs = [] then .ok total
  else
    match readDigits (cs.takeWhile Text.isDigit) with
    | .error fault => .error fault
    | .ok n =>
      if cs.dropWhile Text.isDigit = [] then addTime total n bare.millis
      else
        match _ : TimeUnit.take? (cs.dropWhile Text.isDigit) units with
        | none => .error .badTimeUnit
        | some (u, smaller) =>
          match addTime total n u.millis with
          | .error fault => .error fault
          | .ok total =>
            sumTime bare smaller total
              (Text.trimStart ((cs.dropWhile Text.isDigit).drop u.suffix.length))
termination_by units.length
decreasing_by exact TimeUnit.take?_length_lt (by assumption)

def readTime (bare : TimeUnit) (word : String) : Except Fault Nat :=
  match Text.trim word.toList with
  | [] => .error .noTime
  | cs => sumTime bare TimeUnit.all 0 cs

def blame (read : String → Except Fault α) (word : String) : Except Refusal α :=
  (read word).mapError fun fault => .invalid word fault.message

end ScopedConf.Value
