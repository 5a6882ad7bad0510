import ScopedConf.Directive.Basic
import ScopedConf.Record.Basic
import ScopedConf.Value.Reading

/-! Setters for the fields of records. Those for one word store it in place of what was there; masks
and lists add to it. A setter that refuses leaves the record as it was. -/

namespace ScopedConf.Slot

variable {ρ α : Type}

def store (f : Field ρ α) (r : ρ) (a : α) (reported : Value) : Except Refusal (Value × ρ) :=
  match f.get? r with
  | none => .error .wrongRecord
  | some _ => .ok (reported, f.put r (.of a))

/-- Stores the first argument as `read` understands it. -/
def single (read : String → Except Refusal α) (report : α → Value) (f : Field ρ α) : Setter ρ :=
  fun args r => do
    let word ← args.require 0
    let a ← read word
    store f r a (report a)

def flag (f : Field ρ Bool) : Setter ρ :=
  single (Value.blame Value.readFlag) .flag f

def text (f : Field ρ String) : Setter ρ :=
  single .ok .text f

def int (f : Field ρ Int) : Setter ρ :=
  single (Value.blame Value.readInt) .int f

/-- A duration; a bare number counts in the unit `bare`. -/
def duration (bare : Value.TimeUnit) (f : Field ρ Duration) : Setter ρ :=
  single (fun word => (Value.blame (Value.readTime bare) word).map Duration.ofMillis) .duration f

def size (f : Field ρ Nat) : Setter ρ :=
  single (Value.blame Value.readSize) .size f

/-- Names with the numbers they stand for; the first entry of a name counts. -/
abbrev Names := List (String × UInt32)

def lookUp (names : Names) (word : String) : Except Refusal UInt32 :=
  match names.lookup word with
  | some n => .ok n
  | none => .error (.invalid word "unknown value")

def choice (names : Names) (f : Field ρ UInt32) : Setter ρ :=
  single (lookUp names) .choice f

def maskOf (names : Names) (words : List String) : Except Refusal UInt32 := do
  let bits ← words.mapM (lookUp names)
  return bits.foldl (· ||| ·) 0

def mask (names : Names) (f : Field ρ UInt32) : Setter ρ :=
  fun args r => do
    let bits ← maskOf names args.words
    match f.get? r with
    | none => .error .wrongRecord
    | some old =>
      let total := old.valueOr 0 ||| bits
      .ok (.mask total, f.put r (.of total))

def list (f : Field ρ (List String)) : Setter ρ :=
  fun args r =>
    match f.get? r with
    | none => .error .wrongRecord
    | some old =>
      let total := old.valueOr [] ++ args.words
      .ok (.list total, f.put r (.of total))

def readCount (word : String) : Except Refusal Nat :=
  match Text.unsigned? Text.wordBound word.toList with
  | some n => .ok n
  | none => .error (.invalid word Value.Fault.notNumber.message)

def buffers (f : Field ρ Buffers) : Setter ρ :=
  fun args r => do
    let word ← args.require 0
    let count ← readCount word
    let size ← Value.blame Value.readSize (← args.require 1)
    if count = 0 ∨ size = 0 then
      .error (.invalid word "buffer count and size must be positive")
    else store f r ⟨count, size⟩ (.buffers ⟨count, size⟩)

end ScopedConf.Slot
