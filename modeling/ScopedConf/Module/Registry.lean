import ScopedConf.Module.Basic

/-! The registry. Modules are collected in a draft; when the draft is finished, every module has its
place and the registry changes no more. -/

namespace ScopedConf

/-- The modules registered so far, in order. -/
structure Draft (ρ : Type) where
  modules : List (Module ρ)

structure Registry.Entry (ρ : Type) where
  id : ModuleId
  module : Module ρ

structure Registry (ρ : Type) where
  entries : List (Registry.Entry ρ)

namespace Draft

variable {ρ : Type}

/-- The built-in module is always there, and first. -/
def start : Draft ρ :=
  ⟨[Module.conf]⟩

def register (d : Draft ρ) (m : Module ρ) : Except Failure (Draft ρ) :=
  if d.modules.any m.sameAs then .error (Failure.of (.duplicateModule m.name))
  else .ok ⟨d.modules ++ [m]⟩

def registerAll (d : Draft ρ) (ms : List (Module ρ)) : Except Failure (Draft ρ) :=
  ms.foldlM register d

/-- Gives the modules `ms` their places behind `before`, which holds the places given already. -/
def place (before : List (Registry.Entry ρ)) : List (Module ρ) → List (Registry.Entry ρ)
  | [] => before
  | m :: ms =>
    let ofType := before.filter fun e => e.id.tag == m.tag
    place (before ++ [⟨⟨before.length, ofType.length, m.tag⟩, m⟩]) ms

def runHooks (hook : Module ρ → Hook) (ms : List (Module ρ)) : List Event × Except Failure Unit :=
  Hook.sequence (ms.map fun m => m.outcome (hook m))

/-- Every table is checked before any hook runs. -/
def finish (d : Draft ρ) : List Event × Except Failure (Registry ρ) :=
  match d.modules.forM Module.validate with
  | .error f => ([], .error f)
  | .ok () =>
    match runHooks Module.init d.modules with
    | (events, .error f) => (events, .error f)
    | (events, .ok ()) =>
      let finished : Event :=
        ⟨.debug, .registry, "Module registry finalized", [("modules", .number d.modules.length)]⟩
      (events ++ [finished], .ok ⟨place [] d.modules⟩)

end Draft

namespace Registry

variable {ρ : Type}

def find? (r : Registry ρ) (name : String) : Option (Entry ρ) :=
  r.entries.find? fun e => e.module.name == name

/-- Whether the directives of the module are legal in a block that belongs to modules of `tag`. -/
def Entry.serves (tag : ModuleTag) (e : Entry ρ) : Bool :=
  e.id.tag == tag || e.id.tag == .conf

/-- The directives that are legal in a context, in order of registration. -/
def directivesIn (r : Registry ρ) (context : ContextSet) (tag : ModuleTag) :
    List (Entry ρ × Directive ρ) :=
  (r.entries.filter (Entry.serves tag)).flatMap fun e =>
    (e.module.directives.filter (·.allowedIn context)).map fun d => (e, d)

/-- Fresh records for a context, of the modules of `tag` that keep one there. -/
def freshRecords (r : Registry ρ) (context : ContextSet) (tag : ModuleTag) : List (Held ρ) :=
  (r.entries.filter fun e => e.id.tag == tag).filterMap fun e =>
    (e.module.create context).map fun record => ⟨e.id, e.module.name, record⟩

def initContext (r : Registry ρ) (root : Context ρ) : List Event × Except Failure Unit :=
  Draft.runHooks (·.initContext root) (r.entries.map Entry.module)

end Registry

end ScopedConf
