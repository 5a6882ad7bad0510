import ScopedConf.Path

/-! The arguments of the command line: a command and a file, and in front of the command perhaps a
settings file. -/

namespace ScopedConf.CommandLine

inductive Command
  /-- Parses a file and reports the first failure. -/
  | check
  /-- Parses a file and prints the tree. -/
  | dump
  deriving DecidableEq

structure Invocation where
  settings : Option Path
  command : Command
  file : Path
  deriving DecidableEq

inductive Request
  | run (i : Invocation)
  | help
  | misuse
  deriving DecidableEq

/-- Whether an argument is an option and no value. A single dash is a value. -/
def isOption (arg : String) : Bool :=
  arg.startsWith "-" && arg ≠ "-"

def asksForHelp (arg : String) : Bool :=
  arg == "--help" || arg.startsWith "-h"

def readFile (onlyValues : Bool) (settings : Option Path) (command : Command)
    (file : Option Path) : List String → Request
  | [] =>
    match file with
    | some file => .run ⟨settings, command, file⟩
    | none => .misuse
  | arg :: args =>
    if !onlyValues && arg == "--" then readFile true settings command file args
    else if !onlyValues && isOption arg then if asksForHelp arg then .help else .misuse
    else if arg.isEmpty || file.isSome then .misuse
    else readFile onlyValues settings command (some ⟨arg⟩) args

/-- The text of an option that names the settings file, if the argument is one: `none` inside where
the file is the next argument. -/
def settingsValue? (arg : String) : Option (Option String) :=
  match arg.toList with
  | ['-', 's'] => some none
  | '-' :: 's' :: '=' :: value => some (some (String.ofList value))
  | '-' :: 's' :: value => some (some (String.ofList value))
  | cs =>
    if arg = "--settings" then some none
    else if "--settings=".toList.isPrefixOf cs then
      some (some (String.ofList (cs.drop "--settings=".length)))
    else none

def helpTopics : List String := ["check", "dump", "help"]

/-- The arguments in front of the command, and the command. -/
def readRequest (settings : Option Path) : List String → Request
  | [] => .misuse
  | "check" :: args => readFile false settings .check none args
  | "dump" :: args => readFile false settings .dump none args
  | "help" :: args =>
    match args with
    | [] => .help
    | [topic] => if topic ∈ helpTopics then .help else .misuse
    | _ => .misuse
  | arg :: args =>
    if asksForHelp arg then .help
    else
      match settingsValue? arg, args with
      | some (some value), args => accept value args
      | some none, value :: args => if isOption value then .misuse else accept value args
      | _, _ => .misuse
where
  /-- A settings file is named once, by a text that is not empty. -/
  accept (value : String) (args : List String) : Request :=
    if value.isEmpty || settings.isSome then .misuse else readRequest (some ⟨value⟩) args

def Request.ofArguments (args : List String) : Request :=
  readRequest none args

end ScopedConf.CommandLine
