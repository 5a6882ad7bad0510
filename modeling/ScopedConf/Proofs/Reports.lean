import ScopedConf.Engine.Parse
import ScopedConf.Proofs.Server.Reference
import ScopedConf.Proofs.Trails

/-! The diagnostics of a parse. An include that stands for no file warns at its own line, nothing
else reports anything on the way, and the failure that ends a parse is reported behind all
warnings. -/

namespace ScopedConf

@[simp] theorem Log.diagnostics_nil : Log.diagnostics [] = [] := rfl

@[simp] theorem Log.diagnostics_append (first later : Log) :
    Log.diagnostics (first ++ later) = first.diagnostics ++ later.diagnostics :=
  List.filterMap_append

namespace Engine

variable {ρ : Type}

/-- The include that the next step executes, if it stands for no file. -/
def emptyInclude? (e : Engine ρ) (state : State ρ) : Option Statement :=
  ((e.including? state).filter (·.2.isEmpty)).map (·.1)

/-- The includes of a run that stand for no file, in the order of execution. -/
def emptyIncludes (e : Engine ρ) (source : Source) : List Statement :=
  (e.trail (e.opening source)).filterMap e.emptyInclude?

/-- The warning about such an include. -/
def warning (s : Statement) : Diagnostic where
  level := .warn
  location := some s.location
  message := "include pattern \"" ++ s.argument ++ "\" matched no files"

def warning? (e : Engine ρ) (state : State ρ) : Option Diagnostic :=
  (e.emptyInclude? state).map warning

theorem diagnostics_closeBlock (source : Source) (stack : Stack ρ) (s : Statement) :
    (closeBlock source stack s).1.diagnostics = [] := by
  unfold closeBlock
  repeat' split
  all_goals rfl

theorem diagnostics_openIn (e : Engine ρ) (depth : Nat) (f : Frame ρ) (owner : Nat)
    (block : Option (BlockSpec ρ)) (s : Statement) :
    (e.openIn depth f owner block s).1.diagnostics = [] := by
  unfold openIn
  repeat' split
  all_goals rfl

theorem diagnostics_enter (e : Engine ρ) (depth : Nat) (f : Frame ρ) (s : Statement) :
    (e.enter depth f s).1.diagnostics = [] := by
  unfold enter
  cases e.accept f s with
  | error cause => rfl
  | ok accepted =>
    obtain ⟨m, d, g⟩ := accepted
    cases hobey : g.obey m.id.index d s with
    | error cause =>
      simp only [hobey]
      rfl
    | ok changed =>
      simp only [hobey]
      exact e.diagnostics_openIn depth changed m.id.index d.block s

theorem diagnostics_openFiles (e : Engine ρ) (line baseDepth includeDepth : Nat)
    (paths : List Path) :
    (e.openFiles line baseDepth includeDepth paths).1.diagnostics = [] := by
  induction paths with
  | nil => rfl
  | cons p paths ih =>
    unfold openFiles
    split
    · next hlater => rwa [hlater] at ih
    · next log sources hlater =>
      rw [hlater] at ih
      split
      · exact ih
      · have hevent : Log.diagnostics [Event.including p line] = [] := rfl
        rw [Log.diagnostics_append, ih, hevent, List.append_nil]

theorem diagnostics_includeFiles (e : Engine ρ) (source : Source) (stack : Stack ρ)
    (s : Statement) (h : e.includesAt stack s = true) :
    (e.includeFiles source stack.depth s).1.diagnostics =
      if e.expansion? source stack s = some [] then [warning s] else [] := by
  unfold includeFiles
  by_cases hlimit : e.options.maxIncludeDepth ≤ source.includeDepth
  · have hnone : e.expansion? source stack s = none :=
      if_neg fun hexecuted => Nat.not_lt.mpr hlimit hexecuted.2
    simp [hlimit, hnone]
  · have hexpansion : e.expansion? source stack s =
        (e.files.expand (source.resolve s.argument)).toOption :=
      if_pos ⟨h, Nat.lt_of_not_le hlimit⟩
    rw [if_neg hlimit, hexpansion]
    cases e.files.expand (source.resolve s.argument) with
    | error f => rfl
    | ok paths =>
      cases paths with
      | nil => rfl
      | cons p paths =>
        rw [if_neg (by simp [Except.toOption])]
        exact e.diagnostics_openFiles _ _ _ (p :: paths)

theorem diagnostics_handle (e : Engine ρ) (source : Source) (stack : Stack ρ) (s : Statement) :
    (e.handle source stack s).1.diagnostics =
      if e.expansion? source stack s = some [] then [warning s] else [] := by
  obtain ⟨top, below⟩ := stack
  by_cases hat : e.includesAt ⟨top, below⟩ s = true
  · rw [← e.diagnostics_includeFiles source ⟨top, below⟩ s hat]
    obtain ⟨hs, htop, hinclude⟩ := includesAt_iff.mp hat
    obtain ⟨m, d, f, haccept, hd⟩ := includesIn_iff.mp hinclude
    have hdispatch : e.dispatch source ⟨top, below⟩ s = _ := dispatch_of_accept_ok haccept
    simp only at htop
    simp only [handle, if_neg hs, htop, hdispatch, execute, hd]
    rfl
  · have hnone : e.expansion? source ⟨top, below⟩ s = none := if_neg fun h => hat h.1
    rw [hnone, if_neg (by simp)]
    unfold handle
    by_cases hs : s.terminator = .closeBrace
    · rw [if_pos hs]
      exact diagnostics_closeBlock source ⟨top, below⟩ s
    · rw [if_neg hs]
      cases htop : top.dispatch with
      | strategy handle owner => rfl
      | directives =>
        have hinclude : e.includesIn top s = false := by
          rw [Bool.eq_false_iff]
          intro h
          exact hat (includesAt_iff.mpr ⟨hs, htop, h⟩)
        simp only [dispatch_eq_enter source below hinclude]
        exact e.diagnostics_enter below.length top s

theorem diagnostics_endSource (source : Source) (stack : Stack ρ) :
    (endSource source stack).1.diagnostics = [] := by
  unfold endSource
  repeat' split
  all_goals rfl

theorem diagnostics_step (e : Engine ρ) (state : State ρ) :
    (e.step state).1.diagnostics = (e.warning? state).toList := by
  obtain ⟨stack, sources⟩ := state
  unfold warning? emptyInclude? including?
  cases sources with
  | nil => rfl
  | cons source rest =>
    cases hnext : source.cursor.next with
    | mk read cursor =>
      match read with
      | .error f => simp [step, hnext]
      | .ok none =>
        have hend := diagnostics_endSource (source.advance cursor) stack
        simp only [step, hnext]
        split
        · next h => rwa [h] at hend
        · next h => rwa [h] at hend
      | .ok (some s) =>
        have hhandle := e.diagnostics_handle (source.advance cursor) stack s
        have hexpansion : e.expansion? (source.advance cursor) stack s =
            e.expansion? source stack s := rfl
        have hlog : (e.handle (source.advance cursor) stack s).1.diagnostics =
            (((((e.expansion? source stack s).map fun paths => (s, paths)).filter
              (·.2.isEmpty)).map (·.1)).map warning).toList := by
          rw [hhandle, hexpansion]
          cases e.expansion? source stack s with
          | none => rfl
          | some paths =>
            cases paths with
            | nil => rfl
            | cons p paths => simp
        simp only [step, hnext]
        split
        · next h => rwa [h] at hlog
        · next h => rwa [h] at hlog

theorem diagnostics_drain (e : Engine ρ) (state : State ρ) :
    (e.drain state).1.diagnostics = (e.trail state).filterMap e.warning? := by
  have hcons (state : State ρ) (later : List (State ρ)) :
      (state :: later).filterMap e.warning? =
        (e.step state).1.diagnostics ++ later.filterMap e.warning? := by
    rw [e.diagnostics_step]
    cases h : e.warning? state <;> simp [h]
  fun_induction drain e state with
  | case1 state log hstep => simp [trail_of_done hstep, hcons, hstep]
  | case2 state log f hstep => simp [trail_of_failed hstep, hcons, hstep]
  | case3 state log s next hstep later result hdrain ih =>
    rw [hdrain] at ih
    rw [trail_of_next hstep, hcons, hstep, Log.diagnostics_append, ih]

/-- The diagnostics that the result of a parse leaves: an error, if it is one. -/
def verdict {α : Type} : Except Failure α → List Diagnostic
  | .ok _ => []
  | .error f => [⟨.error, f.location, f.message⟩]

theorem diagnostics_concluded (file : String) (outcome : Log × Except Failure (Context ρ)) :
    (concluded file outcome).1.diagnostics = outcome.1.diagnostics ++ verdict outcome.2 := by
  obtain ⟨log, result⟩ := outcome
  cases result with
  | error f => exact Log.diagnostics_append _ _
  | ok root => exact Log.diagnostics_append _ _

theorem diagnostics_parseSource (e : Engine ρ) [Record ρ] (source : Source) :
    (e.parseSource source).1.diagnostics =
      (e.emptyIncludes source).map warning ++ verdict (e.parseSource source).2 := by
  have hdrain : (e.run (e.opening source)).1.diagnostics =
      (e.emptyIncludes source).map warning := by
    rw [emptyIncludes, List.map_filterMap]
    exact e.diagnostics_drain (e.opening source)
  rw [← hdrain, parseSource, snd_concluded, diagnostics_concluded]
  rfl

/-- The diagnostics of a parse are a warning for every include on the way that stands for no file,
in the order of execution and at the line of the include, and then its failure, if it fails. Before
the main file is read, nothing can be executed. -/
theorem diagnostics_exact (e : Engine ρ) [Record ρ] :
    (∀ name text, (e.parseText name text).1.diagnostics =
      (e.emptyIncludes (.ofText name (Utf8.encode text.toList))).map warning ++
        verdict (e.parseText name text).2) ∧
    ∀ p, (e.parseFile p).1.diagnostics =
      (match e.files.read p with
        | .error _ => []
        | .ok bytes => (e.emptyIncludes (.ofFile p bytes 0 0)).map warning) ++
        verdict (e.parseFile p).2 := by
  refine ⟨fun name text => e.diagnostics_parseSource _, fun p => ?_⟩
  unfold parseFile
  cases e.files.read p with
  | error f => rfl
  | ok bytes => exact e.diagnostics_parseSource _

/-- A pattern without files in an included file, one behind it, and then a failure. -/
theorem diagnostics_exact_unmatched :
    ((Server.engineOver [("conf.d/a.conf", "daemon on;\ninclude b/*;")]).parseText "server.conf"
      "include conf.d/*;\ninclude logs/*.conf;\nuser root;").1.diagnostics =
        [⟨.warn, some ⟨"conf.d/a.conf", 2⟩, "include pattern \"b/*\" matched no files"⟩,
          ⟨.warn, some ⟨"server.conf", 2⟩, "include pattern \"logs/*.conf\" matched no files"⟩,
          ⟨.error, some ⟨"server.conf", 3⟩, "unknown directive \"user\" in server.conf:3"⟩] := by
  let e := Server.engineOver [("conf.d/a.conf", "daemon on;\ninclude b/*;")]
  let text := "include conf.d/*;\ninclude logs/*.conf;\nuser root;"
  let source : Source := .ofText "server.conf" (Utf8.encode text.toList)
  let written (pattern file : String) : Statement :=
    ⟨[⟨"include", 2, false⟩, ⟨pattern, 2, false⟩], .semicolon, ⟨file, 2⟩⟩
  have hstates : (e.trailWithin 10 (e.opening source)).map (List.filterMap e.emptyInclude?) =
      some [written "b/*" "conf.d/a.conf", written "logs/*.conf" "server.conf"] := by
    decide +kernel
  have hfails : e.failsWithin 10 (e.opening source)
      (.located (.unknownDirective "user") ⟨"server.conf", 3⟩) = true := by
    decide +kernel
  obtain ⟨states, hwithin, hincludes⟩ := Option.map_eq_some_iff.mp hstates
  have hresult : (e.parseText "server.conf" text).2 =
      .error (.located (.unknownDirective "user") ⟨"server.conf", 3⟩) := by
    rw [parseText, snd_parseSource]
    exact map_eq_error.mpr (drain_of_failsWithin hfails)
  rw [(diagnostics_exact e).1, hresult, emptyIncludes, trail_of_trailWithin hwithin, hincludes]
  rfl

end Engine

end ScopedConf
