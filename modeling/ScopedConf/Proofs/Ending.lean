import ScopedConf.Proofs.Streams

/-! The loop of the engine comes to its end, whatever the files hold and include. The states that it
passes through are counted; behind the last one there is none. -/

namespace ScopedConf.Engine

variable {ρ : Type} {e : Engine ρ} {state next last : State ρ} {log : Log}

/-- The state after `n` steps, if the loop makes as many. -/
def after (e : Engine ρ) : Nat → State ρ → Option (State ρ)
  | 0, state => some state
  | n + 1, state =>
    match e.step state with
    | (_, .next _ next) => e.after n next
    | _ => none

theorem after_succ_of_next {s : Option Statement} (n : Nat)
    (h : e.step state = (log, .next s next)) : e.after (n + 1) state = e.after n next := by
  rw [after, h]

theorem after_succ_of_done (n : Nat) (h : e.step state = (log, .done)) :
    e.after (n + 1) state = none := by
  rw [after, h]

theorem after_succ_of_failed {f : Failure} (n : Nat) (h : e.step state = (log, .failed f)) :
    e.after (n + 1) state = none := by
  rw [after, h]

def StopsAt (e : Engine ρ) (last : State ρ) (result : Except Failure (Stack ρ)) : Prop :=
  last.sources = [] ∧ result = .ok last.stack ∨
    ∃ log f, e.step last = (log, .failed f) ∧ result = .error f

theorem exists_last (e : Engine ρ) (state : State ρ) :
    ∃ n last, e.after n state = some last ∧ (∀ m, e.after (n + m + 1) state = none) ∧
      e.StopsAt last (e.drain state).2 := by
  fun_induction drain e state with
  | case1 state log hstep =>
    have hsources := (eq_of_step_done hstep).2
    exact ⟨0, state, rfl, fun m => after_succ_of_done _ hstep, .inl ⟨hsources, rfl⟩⟩
  | case2 state log f hstep =>
    exact ⟨0, state, rfl, fun m => after_succ_of_failed _ hstep, .inr ⟨log, f, hstep, rfl⟩⟩
  | case3 state log s next hstep later result hdrain ih =>
    obtain ⟨n, last, hlast, hnone, hstops⟩ := ih
    refine ⟨n + 1, last, ?_, fun m => ?_, ?_⟩
    · rw [after_succ_of_next n hstep, hlast]
    · rw [Nat.add_right_comm n 1 m, after_succ_of_next _ hstep, hnone]
    · rw [hdrain] at hstops
      exact hstops

/-- From every state, and so from the beginning of every parse, the loop makes finitely many steps
and stops: at a tree, or at a failure. -/
theorem run_ends (e : Engine ρ) [Record ρ] (state : State ρ) :
    ∃ n last, e.after n state = some last ∧ (∀ m, n < m → e.after m state = none) ∧
      (last.sources = [] ∧ (e.run state).2 = .ok last.stack.bottom.close.complete ∨
        ∃ log f, e.step last = (log, .failed f) ∧ (e.run state).2 = .error f) := by
  obtain ⟨n, last, hlast, hnone, hstops⟩ := e.exists_last state
  refine ⟨n, last, hlast, fun m hm => ?_, ?_⟩
  · obtain ⟨k, rfl⟩ := Nat.exists_eq_add_of_lt hm
    exact hnone k
  · have hrun : (e.run state).2 =
        (e.drain state).2.map fun stack => stack.bottom.close.complete := rfl
    rcases hstops with ⟨hsources, hresult⟩ | ⟨log, f, hstep, hresult⟩
    · exact .inl ⟨hsources, by rw [hrun, hresult]; rfl⟩
    · exact .inr ⟨log, f, hstep, by rw [hrun, hresult]; rfl⟩

end ScopedConf.Engine
