import ScopedConf.Context.Basic

/-! Contexts as JSON. -/

namespace ScopedConf

variable {ρ : Type} [Record ρ]

/-- The record's JSON under the name of its module. -/
def Held.toMember (h : Held ρ) : Except String (String × Json) :=
  (Record.toJson h.record).map fun j => (h.name, j)

namespace Context

mutual

/-- The label, the records under the names of their modules, and the children. The first record
that has no JSON, those of the context itself in front, leaves the context without one. -/
def toJson : Context ρ → Except String Json
  | node _ label _ records children => do
    let shown ← records.mapM Held.toMember
    let below ← toJsonAll children
    return Json.object
      [("label", Json.strings label), ("records", Json.object shown), ("children", .arr below)]

def toJsonAll : List (Context ρ) → Except String (List Json)
  | [] => return []
  | c :: cs => do
    let first ← toJson c
    let later ← toJsonAll cs
    return first :: later

end

end Context

end ScopedConf
