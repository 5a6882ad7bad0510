import ScopedConf.Statement.Basic

/-! What is reported while the library works: diagnostics about a configuration, and traces of
single steps. Both become events, which a log filter may select and a log format may write. -/

namespace ScopedConf

inductive Level
  | error
  | warn
  | info
  | debug
  | trace
  deriving DecidableEq

namespace Level

def text : Level → String
  | error => "ERROR"
  | warn => "WARN"
  | info => "INFO"
  | debug => "DEBUG"
  | trace => "TRACE"

def verbosity : Level → Nat
  | error => 1
  | warn => 2
  | info => 3
  | debug => 4
  | trace => 5

end Level

inductive Topic
  | registry
  | engine
  | server
  | http
  | diagnostics
  | commandLine

/-- The name of a topic in the log, by which filters select. -/
def Topic.target : Topic → String
  | registry => "directive_engine::module::registry"
  | engine => "directive_engine::parser"
  | server => "directive_engine::modules::core"
  | http => "directive_engine::modules::http"
  | diagnostics => "directive_engine::observability::logging"
  | commandLine => "directive_engine"

/-- What an event says beside its message. A text may be written as it is or in quotes. -/
inductive Detail
  | plain (s : String)
  | quoted (s : String)
  | number (n : Int)
  | switch (on : Bool)

structure Event where
  level : Level
  topic : Topic
  message : String
  details : List (String × Detail)

structure Diagnostic where
  level : Level
  location : Option Location
  message : String
  deriving DecidableEq

/-- A diagnostic as an event; without a location it is about line 0 of `-`. -/
def Diagnostic.event (d : Diagnostic) : Event where
  level := d.level
  topic := .diagnostics
  message := d.message
  details :=
    let location := d.location.getD ⟨"-", 0⟩
    [("file", .quoted location.file), ("line", .number location.line)]

inductive Entry
  | diagnostic (d : Diagnostic)
  | step (e : Event)

namespace Entry

def event : Entry → Event
  | diagnostic d => d.event
  | step e => e

def diagnostic? : Entry → Option Diagnostic
  | diagnostic d => some d
  | step _ => none

end Entry

abbrev Log := List Entry

def Log.diagnostics (log : Log) : List Diagnostic :=
  log.filterMap Entry.diagnostic?

end ScopedConf
