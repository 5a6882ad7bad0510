import ScopedConf.CommandLine.Arguments
import ScopedConf.Context.Json
import ScopedConf.Engine.Parse
import ScopedConf.Log.Filter
import ScopedConf.Log.Text
import ScopedConf.Options.Reading
import ScopedConf.Server.Basic

/-! What the command line does with its arguments: what it prints, what it reports, and with which
code it ends. -/

namespace ScopedConf.CommandLine

/-- What keeps a command from its end: a failure, or a record that has no JSON. -/
inductive Trouble
  | failed (f : Failure)
  | unshown (reason : String)

def Trouble.message : Trouble → String
  | failed f => f.message
  | unshown reason => reason

inductive Report
  | event (format : LogFormat) (e : Event)
  | trouble (t : Trouble)

def Report.text : Report → String
  | event format e => e.render format
  | trouble t => "error: " ++ t.message

inductive Outcome
  | help
  | misuse
  | badSettings (file : Path) (fault : Options.Fault)
  | finished (printed : Except Trouble String) (log : List Event) (format : LogFormat)

def usage : String :=
  "Usage: directive-engine [--settings FILE] check|dump FILE"

namespace Outcome

def code : Outcome → Nat
  | help => 0
  | misuse => 2
  | badSettings .. => 2
  | finished (.ok _) .. => 0
  | finished (.error _) .. => 1

def output : Outcome → String
  | help => usage ++ "\n"
  | finished (.ok printed) .. => printed ++ "\n"
  | _ => ""

/-- What goes to the error output of a program that came to work on its file. -/
def reports : Outcome → List Report
  | finished printed log format =>
    log.map (Report.event format) ++
      match printed with
      | .ok _ => []
      | .error t => [.trouble t]
  | _ => []

def complaint? : Outcome → Option String
  | misuse => some usage
  | badSettings file fault => some (file.text ++ ": " ++ fault.message)
  | _ => none

/-- The path for want of which the program ended. -/
def missing? : Outcome → Option Path
  | badSettings _ (.unread (.notFound p)) => some ⟨p⟩
  | finished (.error (.failed ⟨.notFound p, _⟩)) .. => some ⟨p⟩
  | _ => none

end Outcome

def loadTree (files : Files) (options : ParseOptions) (file : Path) :
    List Event × Except Failure (Context Server.Settings) :=
  match Server.registry Server.Settings.globalKind Server.Settings.httpKind with
  | (events, .error f) => (events, .error f)
  | (events, .ok registry) =>
    let engine : Engine Server.Settings := ⟨registry, files, options⟩
    match engine.parseFile file with
    | (log, .error f) => (events ++ log.map Entry.event, .error f)
    | (log, .ok root) =>
      let (later, result) := registry.initContext root
      (events ++ log.map Entry.event ++ later, result.map fun () => root)

def execute (files : Files) (options : ParseOptions) (i : Invocation) :
    List Event × Except Trouble String :=
  match loadTree files options i.file with
  | (events, .error f) => (events, .error (.failed f))
  | (events, .ok root) =>
    match i.command with
    | .check =>
      let valid : Event :=
        ⟨.info, .commandLine, "Configuration is valid",
          [("file", .plain i.file.text), ("contexts", .number root.walk.length)]⟩
      (events ++ [valid], .ok (i.file.text ++ ": syntax is ok"))
    | .dump => (events, (root.toJson.map Json.pretty).mapError .unshown)

/-- Runs the program on `files`; `wanted?` is the log filter that the environment asks for. -/
def run (files : Files) (wanted? : Option String) (args : List String) : Outcome :=
  match Request.ofArguments args with
  | .help => .help
  | .misuse => .misuse
  | .run i =>
    match i.settings.map fun file => (Options.load files file).mapError fun f => (file, f) with
    | some (.error (file, fault)) => .badSettings file fault
    | some (.ok options) => finish options i
    | none => finish {} i
where
  finish (options : Options) (i : Invocation) : Outcome :=
    let (events, printed) := execute files options.parser i
    let filter := Log.Filter.choose wanted? options.logging.level
    .finished printed (events.filter filter.accepts) options.logging.format

end ScopedConf.CommandLine
