import ScopedConf.Engine.Source
import ScopedConf.Engine.Stack
import ScopedConf.Options.Basic

/-! One step of the engine: a statement is read from the innermost source and handled in the
innermost context, or a source comes to its end. -/

namespace ScopedConf

structure Engine (ρ : Type) where
  registry : Registry ρ
  files : Files
  options : ParseOptions

/-- The open contexts, and the open sources, the innermost in front. -/
structure State (ρ : Type) where
  stack : Stack ρ
  sources : List Source

abbrev Reported (α : Type) := Log × Except Failure α

namespace Reported

variable {α β : Type}

def map (f : α → β) (r : Reported α) : Reported β :=
  (r.1, r.2.map f)

def quiet (r : Except Cause α) : Reported α :=
  ([], r.mapError .of)

theorem map_eq_ok {f : α → β} {r : Reported α} {log : Log} {b : β} :
    r.map f = (log, .ok b) ↔ ∃ a, r = (log, .ok a) ∧ f a = b := by
  obtain ⟨l, x⟩ := r
  cases x <;> simp [map, Except.map, and_assoc]

theorem snd_map_eq_error {f : α → β} {r : Reported α} {failure : Failure}
    (h : (r.map f).2 = .error failure) : r.2 = .error failure := by
  obtain ⟨log, x⟩ := r
  cases x with
  | ok a => simp [map, Except.map] at h
  | error g => simpa [map, Except.map] using h

theorem quiet_eq_ok {r : Except Cause α} {log : Log} {a : α} :
    quiet r = (log, .ok a) ↔ log = [] ∧ r = .ok a := by
  cases r with
  | error cause =>
    change ([], Except.error (Failure.of cause)) = (log, .ok a) ↔ _
    simp
  | ok b =>
    change ([], Except.ok b) = (log, .ok a) ↔ _
    simp [eq_comm]

end Reported

namespace Event

def step (message : String) (details : List (String × Detail)) : Entry :=
  .step ⟨.debug, .engine, message, details⟩

def dispatching (directive module : String) (line : Nat) : Entry :=
  step "Dispatching directive"
    [("directive", .quoted directive), ("module", .quoted module), ("line", .number line)]

def opened (title : String) (line depth : Nat) : Entry :=
  step "Opened block" [("block", .plain title), ("line", .number line), ("depth", .number depth)]

def closed (title : String) (line : Nat) : Entry :=
  step "Closed block" [("block", .plain title), ("line", .number line)]

def including (p : Path) (line : Nat) : Entry :=
  step "Including file" [("file", .plain p.text), ("line", .number line)]

def finishedInclude (file : String) : Entry :=
  step "Finished included file" [("file", .plain file)]

def parsed (file : String) (contexts : Nat) : Entry :=
  step "Configuration parsed" [("file", .plain file), ("contexts", .number contexts)]

end Event

def Diagnostic.noFiles (pattern : String) (location : Location) : Diagnostic :=
  ⟨.warn, some location, s!"include pattern \"{pattern}\" matched no files"⟩

def Diagnostic.ofFailure (f : Failure) : Diagnostic :=
  ⟨.error, f.location, f.message⟩

namespace Frame

variable {ρ : Type}

/-- Whether the directive may stand as `s` in this context: its arguments, its block and, if it may
be used only once, its use are in order. The frame remembers the use. -/
def admitUse (f : Frame ρ) (d : Directive ρ) (s : Statement) : Except Cause (Frame ρ) :=
  let opens := s.terminator == .openBrace
  if !d.shape.accepts s.values.length then
    .error (.argumentCount s.name d.shape s.values.length)
  else if opens && !d.shape.has .block then .error (.unexpectedBlock s.name)
  else if d.shape.has .block && !opens then .error (.missingBlock s.name)
  else if d.shape.has .once then
    if d.name ∈ f.used then .error (.duplicateDirective s.name)
    else .ok { f with used := d.name :: f.used }
  else .ok f

/-- Stores the arguments of `s` in the record of the module with this index, and checks what was
stored. -/
def store (f : Frame ρ) (index : Nat) (d : Directive ρ) (set : Setter ρ) (s : Statement) :
    Except Cause (Frame ρ) :=
  match f.change index (set ⟨s.name, s.values, s.location, d.tag⟩) with
  | .error refusal => .error (refusal.cause s.name)
  | .ok (value, f) =>
    match d.check with
    | none => .ok f
    | some check =>
      match check value with
      | .error refusal => .error (refusal.checkCause s.name)
      | .ok () => .ok f

end Frame

namespace Engine

variable {ρ : Type}

def lookUp (e : Engine ρ) (f : Frame ρ) (name : String) :
    Except Cause (Registry.Entry ρ × Directive ρ) :=
  let candidates :=
    (e.registry.directivesIn f.kind f.moduleTag).filter fun (_, d) => d.name == name
  match candidates with
  | [] => .error (.unknownDirective name)
  | [one] => .ok one
  | first :: _ =>
    match e.options.ambiguity with
    | .firstRegistered => .ok first
    | .refuse => .error (.ambiguousDirective name (candidates.map fun (m, _) => m.module.name))

/-- Closes the innermost context, unless it was open before the source was. -/
def closeBlock (source : Source) (stack : Stack ρ) (s : Statement) :
    Reported (Stack ρ) :=
  if stack.depth ≤ source.baseDepth then ([], .error (.of .unbalancedBlock))
  else
    match stack.below with
    | [] => ([], .error (.of .unbalancedBlock))
    | outer :: below =>
      ([Event.closed stack.top.title s.location.line], .ok ⟨outer.absorb stack.top, below⟩)

def openBlock (e : Engine ρ) (stack : Stack ρ) (owner : Nat) (block : Option (BlockSpec ρ))
    (s : Statement) : Reported (Stack ρ) :=
  match block with
  | none => ([], .ok stack)
  | some spec =>
    if e.options.maxBlockDepth ≤ stack.depth then
      ([], .error (.of (.blockDepth e.options.maxBlockDepth)))
    else
      let f := Frame.ofBlock e.registry owner spec s
      ([Event.opened f.title s.location.line (stack.depth + 1)], .ok (stack.push f))

/-- Opens the files, the last one first, so that a file that cannot be read hides those in front of
it. -/
def openFiles (e : Engine ρ) (line baseDepth includeDepth : Nat) :
    List Path → Reported (List Source)
  | [] => ([], .ok [])
  | p :: ps =>
    match openFiles e line baseDepth includeDepth ps with
    | (log, .error f) => (log, .error f)
    | (log, .ok sources) =>
      match e.files.read p with
      | .error f => (log, .error f)
      | .ok bytes =>
        (log ++ [Event.including p line],
          .ok (Source.ofFile p bytes baseDepth includeDepth :: sources))

def includeFiles (e : Engine ρ) (source : Source) (depth : Nat) (s : Statement) :
    Reported (List Source) :=
  if e.options.maxIncludeDepth ≤ source.includeDepth then
    ([], .error (.of (.includeDepth e.options.maxIncludeDepth)))
  else
    match e.files.expand (source.resolve s.argument) with
    | .error f => ([], .error f)
    | .ok [] => ([.diagnostic (.noFiles s.argument s.location)], .ok [])
    | .ok paths => e.openFiles s.location.line depth (source.includeDepth + 1) paths

/-- Does what an admitted directive stands for: the new stack, and the sources to be read next. -/
def execute (e : Engine ρ) (source : Source) (stack : Stack ρ) (m : Registry.Entry ρ)
    (d : Directive ρ) (s : Statement) : Reported (Stack ρ × List Source) :=
  match d.handler with
  | .includeFiles =>
    (e.includeFiles source stack.depth s).map fun sources => (stack, sources)
  | .slot set =>
    match stack.top.store m.id.index d set s with
    | .error cause => ([], .error (.of cause))
    | .ok top =>
      (e.openBlock { stack with top := top } m.id.index d.block s).map fun stack => (stack, [])
  | .none =>
    (e.openBlock stack m.id.index d.block s).map fun stack => (stack, [])

def dispatch (e : Engine ρ) (source : Source) (stack : Stack ρ) (s : Statement) :
    Reported (Stack ρ × List Source) :=
  match e.lookUp stack.top s.name with
  | .error cause => ([], .error (.of cause))
  | .ok (m, d) =>
    match stack.top.admitUse d s with
    | .error cause => ([], .error (.of cause))
    | .ok top =>
      let (log, result) := e.execute source { stack with top := top } m d s
      (Event.dispatching s.name m.module.name s.location.line :: log, result)

/-- Hands a statement to the strategy of the block, with the record of the context around it. -/
def handOver (handle : Strategy ρ) (owner : Nat) (stack : Stack ρ) (s : Statement) :
    Except Cause (Stack ρ) :=
  if s.terminator = .openBrace then .error (.unexpectedBlock s.name)
  else
    match stack.below with
    | [] => .error (Refusal.wrongRecord.cause s.name)
    | outer :: below =>
      match outer.change owner fun r => (handle s r).map fun r => ((), r) with
      | .error refusal => .error (refusal.cause s.name)
      | .ok ((), outer) => .ok { stack with below := outer :: below }

/-- Handles a statement: the new stack, and the sources to be read before the rest of this one. -/
def handle (e : Engine ρ) (source : Source) (stack : Stack ρ) (s : Statement) :
    Reported (Stack ρ × List Source) :=
  if s.terminator = .closeBrace then
    (closeBlock source stack s).map fun stack => (stack, [])
  else
    match stack.top.dispatch with
    | .strategy handle owner =>
      (Reported.quiet (handOver handle owner stack s)).map fun stack => (stack, [])
    | .directives => e.dispatch source stack s

/-- The end of a source: the blocks it opened have to be closed. -/
def endSource (source : Source) (stack : Stack ρ) : Log × Except Failure Unit :=
  if stack.depth ≠ source.baseDepth then
    ([], .error (.located .unexpectedEnd source.cursor.location))
  else
    (if 0 < source.includeDepth then [Event.finishedInclude source.cursor.file] else [], .ok ())

/-- Where a step leads: on to a state, after a statement or at the end of a source, or to the end
of the parse. -/
inductive Step (ρ : Type)
  | done
  | failed (f : Failure)
  | next (handled : Option Statement) (state : State ρ)

def step (e : Engine ρ) (state : State ρ) : Log × Step ρ :=
  match state.sources with
  | [] => ([], .done)
  | source :: rest =>
    match source.cursor.next with
    | (.error f, _) => ([], .failed f)
    | (.ok none, cursor) =>
      match endSource (source.advance cursor) state.stack with
      | (log, .error f) => (log, .failed f)
      | (log, .ok ()) => (log, .next none { state with sources := rest })
    | (.ok (some s), cursor) =>
      match e.handle (source.advance cursor) state.stack s with
      | (log, .error f) => (log, .failed (f.orAt s.location))
      | (log, .ok (stack, opened)) =>
        (log, .next (some s) ⟨stack, opened ++ source.advance cursor :: rest⟩)

end Engine

end ScopedConf
