import ScopedConf.Engine.Step
import ScopedConf.Files.Archive
import ScopedConf.Proofs.Registration
import ScopedConf.Server.Basic

/-! The registry of the web server's modules, as registration leaves it, and the engine that works
with it. -/

namespace ScopedConf.Server

def draft : Draft Settings :=
  ⟨Module.conf :: modules Settings.globalKind Settings.httpKind⟩

def reference : Registry Settings :=
  ⟨Draft.place [] draft.modules⟩

theorem registry_eq_reference :
    (registry Settings.globalKind Settings.httpKind).2 = .ok reference := rfl

theorem declared_global : (Global.module Settings.globalKind).Declared := by
  simp [Module.Declared, Global.module, Global.directives, Directive.setting, Directive.checked]

theorem declared_block : (Http.blockModule : Module Settings).Declared := by
  simp [Module.Declared, Http.blockModule, Module.ofDirectives, Directive.plain, Directive.opening]

theorem declared_http : (Http.module Settings.httpKind).Declared := by
  simp [Module.Declared, Http.module, Http.directives, Directive.setting, Directive.checked,
    Directive.plain, Directive.opening, Directive.blockOnly]

theorem finalized_reference : reference.Finalized := by
  have hdeclared : ∀ m ∈ modules Settings.globalKind Settings.httpKind, m.Declared := by
    simp [modules, declared_global, declared_block, declared_http]
  exact Registry.finalized_of_registerAll hdeclared rfl rfl

/-- The engine over files in memory, under the default limits. -/
def engineOver (files : List (String × String)) : Engine Settings where
  registry := reference
  files := (Archive.ofList (files.map fun (p, text) => (⟨p⟩, Utf8.encode text.toList))).files
  options := {}

def cursorOf (text : String) : Cursor :=
  .ofBytes "server.conf" (Utf8.encode text.toList)

end ScopedConf.Server
