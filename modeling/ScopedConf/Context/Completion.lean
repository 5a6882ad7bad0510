import ScopedConf.Context.Basic

/-! Completion of a tree: from the root down, the unset fields of every record are filled from the
nearest enclosing record of the same module. -/

namespace ScopedConf

variable {ρ : Type} [Record ρ]

/-- The records of a module's surroundings, the nearest one in front. -/
abbrev Scope (ρ : Type) := List (Held ρ)

def Scope.nearest? {ρ : Type} (scope : Scope ρ) (index : Nat) : Option ρ :=
  (scope.find? fun h => h.module.index == index).map Held.record

def Held.complete (scope : Scope ρ) (h : Held ρ) : Held ρ :=
  { h with record := Record.merge h.record (scope.nearest? h.module.index) }

namespace Context

mutual

/-- The context with its records completed from `scope`, and those inside it from its own. -/
def completeIn (scope : Scope ρ) : Context ρ → Context ρ
  | node kind label location records children =>
    let completed := records.map (Held.complete scope)
    node kind label location completed (completeAll (completed.reverse ++ scope) children)

def completeAll (scope : Scope ρ) : List (Context ρ) → List (Context ρ)
  | [] => []
  | c :: cs => completeIn scope c :: completeAll scope cs

end

def complete (root : Context ρ) : Context ρ :=
  completeIn [] root

end Context

end ScopedConf
