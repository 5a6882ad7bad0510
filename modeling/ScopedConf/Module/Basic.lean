import ScopedConf.Context.Basic
import ScopedConf.Directive.Basic
import ScopedConf.Event
import ScopedConf.Failure

/-! Modules: each brings directives, records for some contexts, and hooks. -/

namespace ScopedConf

/-- A hook reports events and may refuse with a reason. -/
abbrev Hook := List Event × Except String Unit

def Hook.pass : Hook := ([], .ok ())

/-- Runs hooks in order, up to the first that refuses. -/
def Hook.sequence {ε : Type} :
    List (List Event × Except ε Unit) → List Event × Except ε Unit
  | [] => ([], .ok ())
  | (events, .error reason) :: _ => (events, .error reason)
  | (events, .ok ()) :: hooks =>
    let (later, result) := Hook.sequence hooks
    (events ++ later, result)

structure Module (ρ : Type) where
  name : String
  tag : ModuleTag
  directives : List (Directive ρ)
  /-- A fresh record for a context of this type, if the module keeps one there. -/
  create : ContextSet → Option ρ
  /-- Run once, when registration ends. -/
  init : Hook
  /-- Run on a complete tree. -/
  initContext : Context ρ → Hook

namespace Module

variable {ρ : Type}

def ofDirectives (name : String) (tag : ModuleTag) (directives : List (Directive ρ)) :
    Module ρ where
  name := name
  tag := tag
  directives := directives
  create _ := none
  init := Hook.pass
  initContext _ := Hook.pass

/-- The module of the directive that reads further files. -/
def conf : Module ρ :=
  ofDirectives "conf" .conf [Directive.includeFiles]

/-- Two modules are one if they agree in type and name. -/
def sameAs (m n : Module ρ) : Bool :=
  m.tag == n.tag && m.name == n.name

/-- The first directive that cannot be declared is the failure. -/
def validate (m : Module ρ) : Except Failure Unit :=
  m.directives.forM fun d =>
    d.validate.mapError fun defect => Failure.of (.invalidDirective m.name d.name defect)

def outcome (m : Module ρ) (h : Hook) : List Event × Except Failure Unit :=
  (h.1, h.2.mapError fun reason => Failure.of (.hookFailed m.name reason))

end Module

end ScopedConf
