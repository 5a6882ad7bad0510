import ScopedConf.Engine.Run

/-! Parsing: a text or a file, and all it includes, becomes a tree of contexts. The failure that
ends a parse is reported as its last diagnostic. -/

namespace ScopedConf.Engine

variable {ρ : Type}

def concluded (file : String) (outcome : Log × Except Failure (Context ρ)) :
    Log × Except Failure (Context ρ) :=
  match outcome with
  | (log, .error f) => (log ++ [.diagnostic (.ofFailure f)], .error f)
  | (log, .ok root) => (log ++ [Event.parsed file root.walk.length], .ok root)

theorem snd_concluded (file : String) (outcome : Log × Except Failure (Context ρ)) :
    (concluded file outcome).2 = outcome.2 := by
  obtain ⟨log, result⟩ := outcome
  cases result <;> rfl

def parseSource (e : Engine ρ) [Record ρ] (source : Source) : Log × Except Failure (Context ρ) :=
  concluded source.cursor.file (e.run ⟨⟨Frame.root e.registry, []⟩, [source]⟩)

theorem snd_parseSource (e : Engine ρ) [Record ρ] (source : Source) :
    (e.parseSource source).2 =
      (e.drain ⟨⟨Frame.root e.registry, []⟩, [source]⟩).2.map fun stack =>
        stack.bottom.close.complete := by
  rw [parseSource, snd_concluded]
  rfl

def parseText (e : Engine ρ) [Record ρ] (name text : String) : Log × Except Failure (Context ρ) :=
  e.parseSource (Source.ofText name (Utf8.encode text.toList))

def parseFile (e : Engine ρ) [Record ρ] (p : Path) : Log × Except Failure (Context ρ) :=
  match e.files.read p with
  | .error f => concluded p.text ([], .error f)
  | .ok bytes => e.parseSource (Source.ofFile p bytes 0 0)

end ScopedConf.Engine
