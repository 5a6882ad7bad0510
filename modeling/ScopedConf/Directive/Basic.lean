import ScopedConf.ContextSet
import ScopedConf.ModuleTag
import ScopedConf.Shape
import ScopedConf.Statement.Basic
import ScopedConf.Text.Blank
import ScopedConf.Value.Check

/-! Directives as modules declare them: a name, the arguments they take, where they are legal, what
they do to the record of their module, and what block they open. -/

namespace ScopedConf

structure Args where
  name : String
  values : List Token
  location : Location
  tag : Nat

namespace Args

def words (a : Args) : List String :=
  a.values.map Token.value

/-- The argument with this number, counted from 0. A missing one is blamed on the directive. -/
def require (a : Args) (i : Nat) : Except Refusal String :=
  match a.words[i]? with
  | some word => .ok word
  | none => .error (.invalid a.name s!"missing argument {i + 1}")

end Args

/-- Stores arguments in a record and reports the value it stored. -/
abbrev Setter (ρ : Type) := Args → ρ → Except Refusal (Value × ρ)

/-- Handles the statements of a block in place of the directives, on the record of the module that
declares the block. -/
abbrev Strategy (ρ : Type) := Statement → ρ → Except Refusal ρ

structure BlockSpec (ρ : Type) where
  context : ContextSet
  moduleTag : ModuleTag
  strategy : Option (Strategy ρ)

def BlockSpec.debugText {ρ : Type} (b : BlockSpec ρ) : String :=
  "BlockSpec \x7b context: " ++ b.context.text ++ ", module_type: " ++ b.moduleTag.debugText ++
    ", strategy: " ++ (if b.strategy.isSome then "true" else "false") ++ " \x7d"

inductive Handler (ρ : Type)
  | none
  | slot (set : Setter ρ)
  | includeFiles

structure Directive (ρ : Type) where
  name : String
  shape : Shape
  contexts : ContextSet
  tag : Nat
  handler : Handler ρ
  check : Option Check
  block : Option (BlockSpec ρ)

namespace Directive

variable {ρ : Type}

def plain (name : String) (shape : Shape) (contexts : ContextSet) : Directive ρ :=
  ⟨name, shape, contexts, 0, .none, none, none⟩

def setting (name : String) (shape : Shape) (contexts : ContextSet) (set : Setter ρ) :
    Directive ρ :=
  { plain name shape contexts with handler := .slot set }

def checked (d : Directive ρ) (check : Check) : Directive ρ :=
  { d with check := some check }

def opening (d : Directive ρ) (spec : BlockSpec ρ) : Directive ρ :=
  { d with shape := d.shape ||| Shape.block, block := some spec }

def blockOnly (name : String) (contexts : ContextSet) (spec : BlockSpec ρ) : Directive ρ :=
  (plain name Shape.noArguments contexts).opening spec

def includeFiles : Directive ρ :=
  { plain "include" (Shape.exactly 1) ContextSet.any with handler := .includeFiles }

def allowedIn (d : Directive ρ) (context : ContextSet) : Bool :=
  d.contexts.meets context

inductive Defect
  | badName
  | noContexts
  | shape (d : Shape.Defect)
  | blockWithoutSpec
  | specWithoutBlock
  | severalContexts
  deriving DecidableEq

def Defect.message : Defect → String
  | badName => "name must be a non-empty token"
  | noContexts => "no contexts declared"
  | shape d => d.message
  | blockWithoutSpec => "BLOCK shape without a block spec"
  | specWithoutBlock => "block spec without BLOCK shape"
  | severalContexts => "block context must be a single context type"

/-- The block bit and the block go together, and the block has one context type. -/
def validateBlock (d : Directive ρ) : Except Defect Unit :=
  match d.shape.has Shape.block, d.block with
  | true, none => .error .blockWithoutSpec
  | false, some _ => .error .specWithoutBlock
  | false, none => .ok ()
  | true, some spec => if spec.context.size = 1 then .ok () else .error .severalContexts

def validate (d : Directive ρ) : Except Defect Unit :=
  if d.name = "" ∨ d.name.toList.any Text.isBlank then .error .badName
  else if d.contexts.isEmpty then .error .noContexts
  else
    match d.shape.validate with
    | .error defect => .error (.shape defect)
    | .ok () => d.validateBlock

def debugText (d : Directive ρ) : String :=
  "Command \x7b name: " ++ Text.quote d.name ++ ", shape: " ++ d.shape.text ++ ", contexts: " ++
    d.contexts.text ++ ", tag: " ++ toString d.tag ++ ", block: " ++
    (match d.block with
      | none => "None"
      | some spec => Value.call "Some" spec.debugText) ++ " \x7d"

end Directive

end ScopedConf
