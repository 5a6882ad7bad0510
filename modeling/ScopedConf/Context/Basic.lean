import ScopedConf.ContextSet
import ScopedConf.ModuleTag
import ScopedConf.Record.Basic
import ScopedConf.Statement.Basic

/-! Contexts: the top level and every block of a configuration, each with the records that modules
keep for it. -/

namespace ScopedConf

structure ModuleId where
  index : Nat
  indexInType : Nat
  tag : ModuleTag
  deriving DecidableEq

structure Held (ρ : Type) where
  module : ModuleId
  name : String
  record : ρ

/-- A context has a type, the words that opened it and where that was, records, and the contexts
inside it. The top level has no words and no location. -/
inductive Context (ρ : Type)
  | node (kind : ContextSet) (label : List String) (location : Option Location)
      (records : List (Held ρ)) (children : List (Context ρ))

namespace Context

variable {ρ : Type}

def kind : Context ρ → ContextSet
  | node kind .. => kind

def label : Context ρ → List String
  | node _ label .. => label

def location : Context ρ → Option Location
  | node _ _ location .. => location

def records : Context ρ → List (Held ρ)
  | node _ _ _ records _ => records

def children : Context ρ → List (Context ρ)
  | node _ _ _ _ children => children

def recordOf? (c : Context ρ) (index : Nat) : Option ρ :=
  (c.records.find? fun h => h.module.index == index).map Held.record

def record? {σ : Type} (c : Context ρ) (k : Kind ρ σ) : Option σ :=
  c.records.findSome? fun h => k.view? h.record

def childrenNamed (c : Context ρ) (name : String) : List (Context ρ) :=
  c.children.filter fun d => d.label.head? == some name

/-- Labels agree if they are equally long and agree word by word. -/
def sameLabel (label other : List String) : Bool :=
  label.length == other.length && (label.zip other).all fun (word, otherWord) => word == otherWord

/-- The first context, in depth-first order, that the labels lead to. -/
def find? : List (List String) → Context ρ → Option (Context ρ)
  | [], c => some c
  | label :: path, c =>
    (c.children.filter fun d => sameLabel d.label label).findSome? fun d => find? path d

mutual

def size : Context ρ → Nat
  | node _ _ _ _ children => sizeAll children + 1

def sizeAll : List (Context ρ) → Nat
  | [] => 0
  | c :: cs => size c + sizeAll cs

end

theorem sizeAll_append (cs ds : List (Context ρ)) :
    sizeAll (cs ++ ds) = sizeAll cs + sizeAll ds := by
  induction cs with
  | nil => simp [sizeAll]
  | cons c cs ih => rw [List.cons_append, sizeAll, sizeAll, ih, Nat.add_assoc]

/-- The contexts still to be visited come out in order, each one's children right behind it. -/
def visit : List (Context ρ) → List (Context ρ)
  | [] => []
  | c :: rest => c :: visit (c.children ++ rest)
termination_by cs => sizeAll cs
decreasing_by
  cases c
  simp only [children, sizeAll_append, sizeAll, size]
  omega

/-- Every context of a tree, depth first, the root in front. -/
def walk (c : Context ρ) : List (Context ρ) :=
  visit [c]

end Context

end ScopedConf
