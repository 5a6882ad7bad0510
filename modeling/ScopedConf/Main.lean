import ScopedConf.CommandLine.Outcome
import ScopedConf.Files.Answers

/-! The program. The command line is run on what is known of the disk; while it ends for want of a
path, the disk is asked for that path and the command line is run again. -/

namespace ScopedConf.Main

def causeOf (p : Path) : IO.Error → Cause
  | .noFileOrDirectory .. => .notFound p.text
  | .inappropriateType _ code text => .unreadable p.text (.system text code.toNat)
  | .invalidArgument _ code text => .unreadable p.text (.system text code.toNat)
  | .permissionDenied _ code text => .unreadable p.text (.system text code.toNat)
  | .resourceExhausted _ code text => .unreadable p.text (.system text code.toNat)
  | .hardwareFault code text => .unreadable p.text (.system text code.toNat)
  | .otherError code text => .unreadable p.text (.system text code.toNat)
  | e => .unreadable p.text (.system (toString e) 0)

def contentOf (p : Path) : IO (Except Cause (List UInt8)) := do
  if p.text.toList.contains '\x00' then return .error (.unreadable p.text .nulInName)
  match ← (IO.FS.readBinFile p.text).toBaseIO with
  | .ok bytes => return .ok bytes.toList
  | .error e => return .error (causeOf p e)

/-- What a folder holds down to a depth. The content of files is left out. -/
def below : Nat → String → IO (List (List String × Option (List UInt8)))
  | 0, _ => return []
  | depth + 1, folder => do
    let .ok entries ← ((← IO.currentDir) / folder).readDir.toBaseIO | return []
    let found ← entries.toList.mapM fun e => do
      let .ok data ← e.path.metadata.toBaseIO | return []
      match data.type with
      | .dir =>
        let inside ← below depth e.path.toString
        return ([e.fileName], none) ::
          inside.map fun (names, content) => (e.fileName :: names, content)
      | .file => return [([e.fileName], some [])]
      | _ => return []
    return found.flatten

def diskFor (p : Path) : IO Disk := do
  let home := Path.namesFrom [] ⟨(← IO.currentDir).toString⟩
  let folder := p.tameFolder.namesFrom home
  let found ← below p.wildDepth p.tameFolder.text
  return found.foldl (fun d (names, content) => d.insert (folder ++ names) content) ⟨home, []⟩

def answerFor (p : Path) : IO Answer := do
  return ⟨← contentOf p, Files.expandBy (← diskFor p).matching p⟩

partial def outcomeFor (known : Answers) (wanted? : Option String) (args : List String) :
    IO CommandLine.Outcome := do
  let outcome := CommandLine.run known.files wanted? args
  match outcome.missing? with
  | none => return outcome
  | some p =>
    if (known.lookup p).isSome then return outcome
    else outcomeFor ((p, ← answerFor p) :: known) wanted? args

end ScopedConf.Main

def main (args : List String) : IO UInt32 := do
  let outcome ← ScopedConf.Main.outcomeFor [] (← IO.getEnv "RUST_LOG") args
  IO.print outcome.output
  for report in outcome.reports do IO.eprintln report.text
  for line in outcome.complaint? do IO.eprintln line
  return outcome.code.toUInt32
