import ScopedConf.Files.Basic
import ScopedConf.Options.Validation
import ScopedConf.Toml.Document

/-! Settings read from a settings file. What is left out has its default, and what is not known is
passed over. A group of settings may also be given as a list, in the order of its settings. -/

namespace ScopedConf

namespace Options

/-- The member of a group, by name or by place. A date counts for a group without members. Anything
else is no group at all. -/
def member? (name : String) (place : Nat) : Toml → Option (Option Toml)
  | .table members => some (members.lookup name)
  | .list items => some items[place]?
  | .moment => some none
  | _ => none

/-- The setting `name` of a group as `read` understands it, or its default where it is left out. -/
def field {α : Type} (name : String) (place : Nat) (default : α) (read : Toml → Option α)
    (group : Toml) : Option α :=
  match member? name place group with
  | none => none
  | some none => some default
  | some (some v) => read v

def readNat : Toml → Option Nat
  | .int n => if 0 ≤ n then some n.toNat else none
  | _ => none

def readText : Toml → Option String
  | .text s => some s
  | _ => none

/-- One name out of a table. It may stand alone, or as the only member of a table, with nothing in
its value. -/
def readName {α : Type} (names : List (String × α)) : Toml → Option α
  | .text s => names.lookup s
  | .table [(s, .table [])] => names.lookup s
  | .table [(s, .list [])] => names.lookup s
  | _ => none

def readAmbiguity : Toml → Option Ambiguity :=
  readName [("error", .refuse), ("first-registered", .firstRegistered)]

def readFormat : Toml → Option LogFormat :=
  readName [("pretty", .pretty), ("json", .json)]

def readParser (v : Toml) : Option ParseOptions := do
  let o : ParseOptions := {}
  return {
    maxIncludeDepth := ← field "max_include_depth" 0 o.maxIncludeDepth readNat v
    maxBlockDepth := ← field "max_block_depth" 1 o.maxBlockDepth readNat v
    ambiguity := ← field "ambiguity" 2 o.ambiguity readAmbiguity v }

def readLogging (v : Toml) : Option LogOptions := do
  let o : LogOptions := {}
  return {
    level := ← field "level" 0 o.level readText v
    format := ← field "format" 1 o.format readFormat v }

def ofToml (v : Toml) : Option Options := do
  return {
    parser := ← field "parser" 0 {} readParser v
    logging := ← field "logging" 1 {} readLogging v }

inductive Fault
  | unread (cause : Cause)
  | notUtf8
  | malformed
  | invalid (problems : List Problem)

/-- The answer of the system where a file cannot be read. -/
def systemText : Cause → String
  | .notFound _ => (Unreadable.system "No such file or directory" 2).message
  | .unreadable _ why => why.message
  | cause => cause.message

def Fault.message : Fault → String
  | unread cause => "IO error: " ++ systemText cause
  | notUtf8 => "IO error: stream did not contain valid UTF-8"
  | malformed => "Parse error: not a settings file"
  | invalid problems => "Validation failed: " ++ ", ".intercalate (problems.map Problem.message)

/-- The settings that a text gives, if they can be read and have no problems. -/
def parse (s : String) : Except Fault Options :=
  match (Toml.parse? s).bind ofToml with
  | none => .error .malformed
  | some o => if o.problems.isEmpty then .ok o else .error (.invalid o.problems)

def load (files : Files) (p : Path) : Except Fault Options :=
  match files.read p with
  | .error f => .error (.unread f.cause)
  | .ok bytes =>
    match Utf8.decode? bytes with
    | none => .error .notUtf8
    | some s => parse s

end Options

end ScopedConf
