import Mathlib.Data.List.Basic
import ScopedConf.Context.Completion
import ScopedConf.Engine.Step
import ScopedConf.Proofs.Registration

/-! What is left without the records of one module. What another module does to its own record, it
does as well where those records are missing, and completion fills every other record as before. -/

namespace ScopedConf

variable {ρ : Type} {index : Nat}

/-- The records that all modules but the one with this index keep. -/
def Held.without (index : Nat) (held : List (Held ρ)) : List (Held ρ) :=
  held.filter fun h => h.module.index ≠ index

theorem Held.without_cons_of_eq {h : Held ρ} (hi : h.module.index = index) (held : List (Held ρ)) :
    Held.without index (h :: held) = Held.without index held :=
  List.filter_cons_of_neg (by simp [hi])

theorem Held.without_cons_of_ne {h : Held ρ} (hi : h.module.index ≠ index) (held : List (Held ρ)) :
    Held.without index (h :: held) = h :: Held.without index held :=
  List.filter_cons_of_pos (by simp [hi])

theorem Held.without_append (first later : List (Held ρ)) :
    Held.without index (first ++ later) = Held.without index first ++ Held.without index later :=
  List.filter_append first later

namespace Context

mutual

def without (index : Nat) : Context ρ → Context ρ
  | node kind label location records children =>
    node kind label location (Held.without index records) (withoutAll index children)

def withoutAll (index : Nat) : List (Context ρ) → List (Context ρ)
  | [] => []
  | c :: cs => without index c :: withoutAll index cs

end

theorem withoutAll_append (cs ds : List (Context ρ)) :
    withoutAll index (cs ++ ds) = withoutAll index cs ++ withoutAll index ds := by
  induction cs with
  | nil => rfl
  | cons c cs ih => rw [List.cons_append, withoutAll, withoutAll, ih, List.cons_append]

end Context

theorem Scope.nearest?_without {i : Nat} (h : i ≠ index) (scope : Scope ρ) :
    Scope.nearest? (Held.without index scope) i = scope.nearest? i := by
  unfold Scope.nearest?
  induction scope with
  | nil => rfl
  | cons first scope ih =>
    by_cases hi : first.module.index = index
    · have hne : ¬first.module.index = i := fun heq => h (heq ▸ hi)
      rw [Held.without_cons_of_eq hi, ih, List.find?_cons_of_neg (by simpa using hne)]
    · rw [Held.without_cons_of_ne hi, List.find?_cons, List.find?_cons]
      split
      · rfl
      · exact ih

section

variable [Record ρ]

theorem Held.without_complete (scope : Scope ρ) (records : List (Held ρ)) :
    Held.without index (records.map (Held.complete scope)) =
      (Held.without index records).map (Held.complete (Held.without index scope)) := by
  induction records with
  | nil => rfl
  | cons h records ih =>
    have hmodule : (h.complete scope).module.index = h.module.index := rfl
    rw [List.map_cons]
    by_cases hi : h.module.index = index
    · rw [Held.without_cons_of_eq hi, Held.without_cons_of_eq (hmodule.trans hi), ih]
    · have hsame : h.complete (Held.without index scope) = h.complete scope := by
        rw [Held.complete, Held.complete, Scope.nearest?_without hi]
      rw [Held.without_cons_of_ne hi, Held.without_cons_of_ne (hmodule ▸ hi), ih, List.map_cons,
        hsame]

mutual

theorem Context.without_completeIn (scope : Scope ρ) (c : Context ρ) :
    (c.completeIn scope).without index =
      (c.without index).completeIn (Held.without index scope) := by
  cases c with
  | node kind label location records children =>
    have hscope : Held.without index ((records.map (Held.complete scope)).reverse ++ scope) =
        ((Held.without index records).map (Held.complete (Held.without index scope))).reverse ++
          Held.without index scope := by
      rw [Held.without_append, ← Held.without_complete, Held.without, List.filter_reverse]
      rfl
    simp only [Context.completeIn, Context.without]
    rw [Context.withoutAll_completeAll, hscope, Held.without_complete]

theorem Context.withoutAll_completeAll (scope : Scope ρ) (cs : List (Context ρ)) :
    Context.withoutAll index (Context.completeAll scope cs) =
      Context.completeAll (Held.without index scope) (Context.withoutAll index cs) := by
  cases cs with
  | nil => rfl
  | cons c cs =>
    simp only [Context.completeAll, Context.withoutAll]
    rw [Context.without_completeIn, Context.withoutAll_completeAll]

end

theorem Context.without_complete (root : Context ρ) :
    root.complete.without index = (root.without index).complete :=
  Context.without_completeIn [] root

end

theorem Held.change_without {α : Type} {i : Nat} (h : i ≠ index)
    (change : ρ → Except Refusal (α × ρ)) (held : List (Held ρ)) :
    Held.change i change (Held.without index held) =
      (Held.change i change held).map fun (a, changed) => (a, Held.without index changed) := by
  induction held with
  | nil => rfl
  | cons first held ih =>
    rw [Held.change]
    by_cases hi : first.module.index = index
    · have hne : ¬first.module.index = i := fun heq => h (heq ▸ hi)
      rw [Held.without_cons_of_eq hi, ih, if_neg hne]
      cases Held.change i change held with
      | error refusal => rfl
      | ok changed =>
        have hdrop := Held.without_cons_of_eq hi changed.2
        exact congrArg (fun held => Except.ok (changed.1, held)) hdrop.symm
    · rw [Held.without_cons_of_ne hi, Held.change]
      split
      · cases change first.record with
        | error refusal => rfl
        | ok changed =>
          have hkeep := Held.without_cons_of_ne (h := { first with record := changed.2 }) hi held
          exact congrArg (fun held => Except.ok (changed.1, held)) hkeep.symm
      · rw [ih]
        cases Held.change i change held with
        | error refusal => rfl
        | ok changed =>
          have hkeep := Held.without_cons_of_ne hi changed.2
          exact congrArg (fun held => Except.ok (changed.1, held)) hkeep.symm

namespace Frame

def without (index : Nat) (f : Frame ρ) : Frame ρ :=
  { f with
    records := Held.without index f.records
    children := Context.withoutAll index f.children }

theorem close_without (f : Frame ρ) : (f.without index).close = f.close.without index := rfl

theorem absorb_without (f inner : Frame ρ) :
    (f.without index).absorb (inner.without index) = (f.absorb inner).without index := by
  unfold absorb
  have hdispatch : (inner.without index).dispatch = inner.dispatch := rfl
  rw [hdispatch]
  split
  · simp only [without, Context.withoutAll_append]
    rfl
  · rfl

theorem change_without {α : Type} {i : Nat} (h : i ≠ index) (f : Frame ρ)
    (change : ρ → Except Refusal (α × ρ)) :
    (f.without index).change i change =
      (f.change i change).map fun (a, g) => (a, g.without index) := by
  have hheld := Held.change_without h change f.records
  unfold Frame.change
  rw [without, hheld]
  cases Held.change i change f.records <;> rfl

theorem admitUse_without (f : Frame ρ) (d : Directive ρ) (s : Statement) :
    (f.without index).admitUse d s = (f.admitUse d s).map (Frame.without index) := by
  have hused : (f.without index).used = f.used := rfl
  unfold admitUse
  simp only [hused]
  repeat' split
  all_goals rfl

theorem store_without {i : Nat} (h : i ≠ index) (f : Frame ρ) (d : Directive ρ) (set : Setter ρ)
    (s : Statement) :
    (f.without index).store i d set s = (f.store i d set s).map (Frame.without index) := by
  unfold store
  rw [change_without h]
  cases f.change i (set ⟨s.name, s.values, s.location, d.tag⟩) with
  | error refusal => rfl
  | ok changed =>
    cases hcheck : d.check with
    | none => rfl
    | some check =>
      simp only [Except.map]
      cases check changed.1 <;> rfl

end Frame

namespace Stack

def without (index : Nat) (stack : Stack ρ) : Stack ρ :=
  ⟨stack.top.without index, stack.below.map (Frame.without index)⟩

theorem depth_without (stack : Stack ρ) : (stack.without index).depth = stack.depth :=
  List.length_map _

theorem bottom_without (stack : Stack ρ) :
    (stack.without index).bottom = stack.bottom.without index := by
  obtain ⟨top, below⟩ := stack
  simp only [without, bottom, List.getLastD_eq_getLast?, List.getLast?_map]
  cases below.getLast? <;> rfl

end Stack

end ScopedConf
