import ScopedConf.Module.Registry
import ScopedConf.Server.Global
import ScopedConf.Server.Http

/-! The modules of a web server: process settings at the top level, and `http` with its servers and
locations. -/

namespace ScopedConf.Server

inductive Settings
  | global (g : Global)
  | http (h : Http)
  deriving DecidableEq

namespace Settings

def globalKind : Kind Settings Global where
  wrap := global
  view?
    | global p => some p
    | http _ => none
  view?_wrap _ := rfl
  wrap_of_view? r p h := by cases r <;> simp_all

def httpKind : Kind Settings Http where
  wrap := http
  view?
    | global _ => none
    | http h => some h
  view?_wrap _ := rfl
  wrap_of_view? r p h := by cases r <;> simp_all

/-- A record of another kind counts for none around it. -/
instance : Record Settings where
  merge
    | global p, parent => global (Record.merge p (parent.bind globalKind.view?))
    | http h, parent => http (Record.merge h (parent.bind httpKind.view?))
  toJson
    | global p => Record.toJson p
    | http h => Record.toJson h

end Settings

def modules {ρ : Type} (global : Kind ρ Global) (http : Kind ρ Http) : List (Module ρ) :=
  [Global.module global, Http.blockModule, Http.module http]

def registry {ρ : Type} (global : Kind ρ Global) (http : Kind ρ Http) :
    List Event × Except Failure (Registry ρ) :=
  match Draft.start.registerAll (modules global http) with
  | .error f => ([], .error f)
  | .ok draft => draft.finish

end ScopedConf.Server
