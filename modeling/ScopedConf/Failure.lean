import ScopedConf.Directive.Basic
import ScopedConf.Wildcard

/-! Failures: the cause of an end to registration or parsing, with the line it is blamed on once
that is known. Every wording is found here. -/

namespace ScopedConf

/-- What the file system answers in place of bytes, apart from the file not being there. -/
inductive Unreadable
  | system (text : String) (code : Nat)
  | nulInName
  deriving DecidableEq

namespace Unreadable

def notDirectory : Unreadable := system "Not a directory" 20
def isDirectory : Unreadable := system "Is a directory" 21
def nameTooLong : Unreadable := system "File name too long" 36

def message : Unreadable → String
  | system text code => s!"{text} (os error {code})"
  | nulInName => "file name contained an unexpected NUL byte"

end Unreadable

inductive Cause
  | unexpectedByte (b : UInt8)
  | byteAfterQuoted (b : UInt8)
  | invalidUtf8
  | unexpectedEnd
  | badPattern (pattern : String) (fault : Wildcard.Fault)
  | unknownDirective (name : String)
  | ambiguousDirective (name : String) (modules : List String)
  | argumentCount (name : String) (expected : Shape) (actual : Nat)
  | unexpectedBlock (name : String)
  | missingBlock (name : String)
  | unbalancedBlock
  | duplicateDirective (name : String)
  | invalidValue (name token reason : String)
  | valueOutOfRange (name reason : String)
  | duplicateModule (name : String)
  | invalidDirective (module name : String) (defect : Directive.Defect)
  | hookFailed (module reason : String)
  | includeDepth (limit : Nat)
  | blockDepth (limit : Nat)
  | notFound (path : String)
  | unreadable (path : String) (why : Unreadable)
  deriving DecidableEq

namespace Cause

def byteText (b : UInt8) : String :=
  String.singleton (Char.ofNat b.toNat)

def message : Cause → String
  | unexpectedByte b => s!"unexpected \"{byteText b}\""
  | byteAfterQuoted b => s!"unexpected \"{byteText b}\" after quoted argument"
  | invalidUtf8 => "invalid UTF-8 in argument"
  | unexpectedEnd => "unexpected end of file"
  | badPattern pattern fault => s!"invalid include pattern \"{pattern}\": {fault.message}"
  | unknownDirective name => s!"unknown directive \"{name}\""
  | ambiguousDirective name modules =>
    s!"ambiguous directive \"{name}\" declared by modules {Text.quoteList modules}"
  | argumentCount name expected actual =>
    s!"invalid number of arguments in \"{name}\" directive: " ++
      s!"expected {expected.expected}, got {actual}"
  | unexpectedBlock name => s!"directive \"{name}\" does not take a block"
  | missingBlock name => s!"directive \"{name}\" has no opening \"\x7b\""
  | unbalancedBlock => "unexpected \"\x7d\""
  | duplicateDirective name => s!"\"{name}\" directive is duplicate"
  | invalidValue name token reason =>
    s!"invalid value \"{token}\" in \"{name}\" directive: {reason}"
  | valueOutOfRange name reason => s!"value out of range in \"{name}\" directive: {reason}"
  | duplicateModule name => s!"module \"{name}\" is already registered"
  | invalidDirective module name defect =>
    s!"invalid command \"{name}\" in module \"{module}\": {defect.message}"
  | hookFailed module reason => s!"module \"{module}\" hook failed: {reason}"
  | includeDepth limit => s!"include nesting exceeds {limit} levels"
  | blockDepth limit => s!"block nesting exceeds {limit} levels"
  | notFound path => s!"file \"{path}\" not found"
  | unreadable path why => s!"failed to read \"{path}\": {why.message}"

end Cause

/-- The refusal of a setter or a block strategy, as a cause that names the directive. -/
def Refusal.cause (directive : String) : Refusal → Cause
  | .invalid token reason => .invalidValue directive token reason
  | .outOfRange reason => .valueOutOfRange directive reason
  | .wrongRecord =>
    .invalidValue directive directive "directive has no configuration record in this context"

/-- The refusal of a check: whatever its kind, the value is out of range. -/
def Refusal.checkCause (directive : String) : Refusal → Cause
  | .outOfRange reason => .valueOutOfRange directive reason
  | other => .valueOutOfRange directive other.message

structure Failure where
  cause : Cause
  location : Option Location
  deriving DecidableEq

namespace Failure

def of (cause : Cause) : Failure := ⟨cause, none⟩

def located (cause : Cause) (location : Location) : Failure := ⟨cause, some location⟩

/-- The failure, blamed on a location if it has none of its own. -/
def orAt (f : Failure) (location : Location) : Failure :=
  { f with location := some (f.location.getD location) }

theorem location_of_mapError {α : Type} {r : Except Cause α} {f : Failure}
    (h : r.mapError of = .error f) : f.location = none := by
  cases r with
  | ok a =>
    change Except.ok a = .error f at h
    simp at h
  | error cause =>
    obtain rfl := Except.error.inj h
    rfl

@[simp] theorem orAt_of (cause : Cause) (location : Location) :
    (of cause).orAt location = located cause location := rfl

def message (f : Failure) : String :=
  match f.location with
  | some location => f.cause.message ++ " in " ++ location.text
  | none => f.cause.message

end Failure

end ScopedConf
