import ScopedConf.Module.Registry

/-! Open contexts. The innermost one is on top, the top level at the bottom. -/

namespace ScopedConf

/-- Who handles the statements of a block. -/
inductive Dispatch (ρ : Type)
  | directives
  /-- The strategy works on the record that the module `owner` keeps for the context around. -/
  | strategy (handle : Strategy ρ) (owner : Nat)

/-- An open context: `used` lists the directives used here that may be used only once. -/
structure Frame (ρ : Type) where
  kind : ContextSet
  moduleTag : ModuleTag
  dispatch : Dispatch ρ
  label : List String
  location : Option Location
  records : List (Held ρ)
  children : List (Context ρ)
  used : List String

/-- Changes the record of the module with this index; without one there is nothing to change. -/
def Held.change {ρ α : Type} (index : Nat) (f : ρ → Except Refusal (α × ρ)) :
    List (Held ρ) → Except Refusal (α × List (Held ρ))
  | [] => .error .wrongRecord
  | h :: hs =>
    if h.module.index = index then
      (f h.record).map fun (a, r) => (a, { h with record := r } :: hs)
    else (Held.change index f hs).map fun (a, hs) => (a, h :: hs)

namespace Frame

variable {ρ : Type}

def root (registry : Registry ρ) : Frame ρ where
  kind := .main
  moduleTag := .core
  dispatch := .directives
  label := []
  location := none
  records := registry.freshRecords .main .core
  children := []
  used := []

/-- The frame of a block that `s` opens. A block with a strategy keeps no records. -/
def ofBlock (registry : Registry ρ) (owner : Nat) (spec : BlockSpec ρ) (s : Statement) :
    Frame ρ where
  kind := spec.context
  moduleTag := spec.moduleTag
  dispatch :=
    match spec.strategy with
    | some handle => .strategy handle owner
    | none => .directives
  label := s.words
  location := some s.location
  records :=
    if spec.strategy.isSome then [] else registry.freshRecords spec.context spec.moduleTag
  children := []
  used := []

def close (f : Frame ρ) : Context ρ :=
  .node f.kind f.label f.location f.records f.children

def title (f : Frame ρ) : String :=
  " ".intercalate f.label

/-- The frame after `inner`, which was opened in it, is closed: a block with a strategy leaves no
context behind. -/
def absorb (f inner : Frame ρ) : Frame ρ :=
  match inner.dispatch with
  | .directives => { f with children := f.children ++ [inner.close] }
  | .strategy .. => f

def change {α : Type} (f : Frame ρ) (index : Nat) (g : ρ → Except Refusal (α × ρ)) :
    Except Refusal (α × Frame ρ) :=
  (Held.change index g f.records).map fun (a, records) => (a, { f with records := records })

end Frame

structure Stack (ρ : Type) where
  top : Frame ρ
  below : List (Frame ρ)

namespace Stack

variable {ρ : Type}

def depth (s : Stack ρ) : Nat :=
  s.below.length

def bottom (s : Stack ρ) : Frame ρ :=
  s.below.getLastD s.top

def push (s : Stack ρ) (f : Frame ρ) : Stack ρ :=
  ⟨f, s.top :: s.below⟩

@[simp] theorem depth_push (s : Stack ρ) (f : Frame ρ) : (s.push f).depth = s.depth + 1 := rfl

@[simp] theorem bottom_push (s : Stack ρ) (f : Frame ρ) : (s.push f).bottom = s.bottom := by
  obtain ⟨top, below⟩ := s
  cases below <;> rfl

end Stack

end ScopedConf
