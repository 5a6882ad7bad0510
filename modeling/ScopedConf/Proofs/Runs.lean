import Mathlib.Logic.Relation
import ScopedConf.Engine.Run
import ScopedConf.Proofs.Handling

/-! Runs of the engine as they look from outside: the states that are passed through, with a record
of what was handled on the way and of what every open source did so far. -/

namespace ScopedConf

variable {ρ : Type}

/-- What is known of an open source: the includes that led to it, the innermost in front, and how
many opening and closing braces were handled from it. -/
structure Account where
  includes : List Statement
  opened : Nat
  closed : Nat

def Account.fresh (includes : List Statement) : Account := ⟨includes, 0, 0⟩

def Account.count (a : Account) (s : Statement) : Account :=
  match s.terminator with
  | .openBrace => { a with opened := a.opened + 1 }
  | .closeBrace => { a with closed := a.closed + 1 }
  | .semicolon => a

/-- The statements that were not executed as includes. -/
def unmarked (handled : List (Statement × Bool)) : List Statement :=
  (handled.filter fun h => !h.2).map Prod.fst

@[simp] theorem unmarked_nil : unmarked [] = [] := rfl

@[simp] theorem unmarked_plain (s : Statement) (handled : List (Statement × Bool)) :
    unmarked ((s, false) :: handled) = s :: unmarked handled := rfl

@[simp] theorem unmarked_included (s : Statement) (handled : List (Statement × Bool)) :
    unmarked ((s, true) :: handled) = unmarked handled := rfl

@[simp] theorem unmarked_append (first later : List (Statement × Bool)) :
    unmarked (first ++ later) = unmarked first ++ unmarked later := by
  simp [unmarked]

/-- A state of the engine with the statements handled so far, each marked if it was executed as an
include, and an account of every open source. -/
structure Observed (ρ : Type) where
  state : State ρ
  handled : List (Statement × Bool)
  accounts : List Account

namespace Observed

def start (state : State ρ) : Observed ρ :=
  ⟨state, [], state.sources.map fun _ => .fresh []⟩

def handling (o : Observed ρ) (s : Statement) (included : Bool) (next : State ρ) : Observed ρ where
  state := next
  handled := o.handled ++ [(s, included)]
  accounts :=
    match o.accounts with
    | [] => []
    | a :: rest =>
      List.replicate (next.sources.length - o.state.sources.length) (.fresh (s :: a.includes)) ++
        a.count s :: rest

def ending (o : Observed ρ) (next : State ρ) : Observed ρ :=
  ⟨next, o.handled, o.accounts.tail⟩

def spliced (o : Observed ρ) : List Statement :=
  unmarked o.handled

end Observed

def Source.outermost (cursor : Cursor) (directory : Option Path) : Source :=
  ⟨cursor, directory, 0, 0⟩

namespace Engine

/-- The state in which a parse of `source` begins. -/
def opening (e : Engine ρ) (source : Source) : State ρ :=
  ⟨⟨Frame.root e.registry, []⟩, [source]⟩

inductive Moves (e : Engine ρ) : Observed ρ → Observed ρ → Prop
  | statement {o : Observed ρ} {log : Log} {s : Statement} {next : State ρ}
    (h : e.step o.state = (log, .next (some s) next)) :
    Moves e o (o.handling s (e.includesAt o.state.stack s) next)
  | ended {o : Observed ρ} {log : Log} {next : State ρ}
    (h : e.step o.state = (log, .next none next)) : Moves e o (o.ending next)

abbrev Reaches (e : Engine ρ) : Observed ρ → Observed ρ → Prop :=
  Relation.ReflTransGen e.Moves

theorem eq_of_step_done {e : Engine ρ} {state : State ρ} {log : Log}
    (h : e.step state = (log, .done)) : log = [] ∧ state.sources = [] := by
  unfold step at h
  split at h
  · next hsources =>
    simp only [Prod.mk.injEq, and_true] at h
    exact ⟨h.symm, hsources⟩
  · repeat' split at h
    all_goals simp at h

theorem eq_of_step_statement {e : Engine ρ} {state next : State ρ} {log : Log} {s : Statement}
    (h : e.step state = (log, .next (some s) next)) :
    ∃ (source : Source) (rest : List Source) (cursor : Cursor) (opened : List Source),
      state.sources = source :: rest ∧ source.cursor.next = (.ok (some s), cursor) ∧
        e.handle (source.advance cursor) state.stack s = (log, .ok (next.stack, opened)) ∧
        next.sources = opened ++ source.advance cursor :: rest := by
  unfold step at h
  split at h
  · simp at h
  · next source rest hsources =>
    split at h
    · simp at h
    · split at h <;> simp at h
    · next t cursor hnext =>
      split at h
      · simp at h
      · next hhandle =>
        simp only [Prod.mk.injEq, Step.next.injEq, Option.some.injEq] at h
        obtain ⟨rfl, rfl, rfl⟩ := h
        exact ⟨source, rest, cursor, _, hsources, hnext, hhandle, rfl⟩

theorem eq_of_step_ended {e : Engine ρ} {state next : State ρ} {log : Log}
    (h : e.step state = (log, .next none next)) :
    ∃ (source : Source) (rest : List Source) (cursor : Cursor),
      state.sources = source :: rest ∧ source.cursor.next = (.ok none, cursor) ∧
        state.stack.depth = source.baseDepth ∧ next = ⟨state.stack, rest⟩ := by
  unfold step at h
  split at h
  · simp at h
  · next source rest hsources =>
    split at h
    · simp at h
    · next cursor hnext =>
      split at h
      · simp at h
      · next hend =>
        simp only [Prod.mk.injEq, Step.next.injEq] at h
        refine ⟨source, rest, cursor, hsources, hnext, ?_, h.2.2.symm⟩
        unfold endSource at hend
        split at hend
        · simp at hend
        · next hdepth => simpa [Source.advance] using hdepth
    · split at h <;> simp at h

theorem exists_move {e : Engine ρ} {o : Observed ρ} {log : Log} {s : Option Statement}
    {next : State ρ} (h : e.step o.state = (log, .next s next)) :
    ∃ o', e.Moves o o' ∧ o'.state = next := by
  cases s with
  | none => exact ⟨_, .ended h, rfl⟩
  | some s => exact ⟨_, .statement h, rfl⟩

theorem reaches_of_drain {e : Engine ρ} {state : State ρ} {log : Log} {stack : Stack ρ}
    (h : e.drain state = (log, .ok stack)) {o : Observed ρ} (ho : o.state = state) :
    ∃ final, e.Reaches o final ∧ final.state = ⟨stack, []⟩ := by
  fun_induction drain e state generalizing log o with
  | case1 state log' hstep =>
    simp only [Prod.mk.injEq, Except.ok.injEq] at h
    refine ⟨o, .refl, ?_⟩
    rw [ho, ← h.2, ← (eq_of_step_done hstep).2]
  | case2 => simp at h
  | case3 state log' s next hstep later result hdrain ih =>
    simp only [Prod.mk.injEq] at h
    obtain ⟨o', hmove, ho'⟩ := exists_move (o := o) (ho ▸ hstep)
    obtain ⟨final, hreaches, hfinal⟩ := ih (by rw [hdrain, h.2]) ho'
    exact ⟨final, .head hmove hreaches, hfinal⟩

theorem reaches_of_run {e : Engine ρ} [Record ρ] {state : State ρ} {log : Log} {root : Context ρ}
    (h : e.run state = (log, .ok root)) :
    ∃ final, e.Reaches (.start state) final ∧ final.state.sources = [] ∧
      root = final.state.stack.bottom.close.complete := by
  cases hdrain : e.drain state with
  | mk log' result =>
    cases result with
    | error f => simp [run, hdrain, Except.map] at h
    | ok stack =>
      simp only [run, hdrain, Except.map, Prod.mk.injEq, Except.ok.injEq] at h
      obtain ⟨final, hreaches, hfinal⟩ := reaches_of_drain hdrain (o := .start state) rfl
      exact ⟨final, hreaches, by rw [hfinal], by rw [hfinal, h.2]⟩

end Engine

end ScopedConf
