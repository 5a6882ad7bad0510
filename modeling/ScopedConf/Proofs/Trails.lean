import ScopedConf.Proofs.Streams

/-! The states that a run of the engine passes through, the first one in front, and the includes
that are executed on the way. -/

namespace ScopedConf.Engine

variable {ρ : Type} {e : Engine ρ} {state next last : State ρ} {log : Log}

def trail (e : Engine ρ) (state : State ρ) : List (State ρ) :=
  match _ : e.step state with
  | (_, .done) => [state]
  | (_, .failed _) => [state]
  | (_, .next _ next) => state :: trail e next
termination_by state.pending e.options.maxIncludeDepth
decreasing_by exact pending_step (by assumption)

/-- The paths that `s` stands for, if it is executed as an include of `source` and they can be
found. -/
def expansion? (e : Engine ρ) (source : Source) (stack : Stack ρ) (s : Statement) :
    Option (List Path) :=
  if e.includesAt stack s = true ∧ source.includeDepth < e.options.maxIncludeDepth then
    (e.files.expand (source.resolve s.argument)).toOption
  else none

/-- The include that the next step executes, with the paths that it stands for. -/
def including? (e : Engine ρ) (state : State ρ) : Option (Statement × List Path) :=
  match state.sources with
  | [] => none
  | source :: _ =>
    match source.cursor.next with
    | (.ok (some s), _) => (e.expansion? source state.stack s).map fun paths => (s, paths)
    | _ => none

theorem trail_of_next {s : Option Statement} (h : e.step state = (log, .next s next)) :
    e.trail state = state :: e.trail next := by
  rw [trail]
  split <;> simp_all

theorem trail_of_done (h : e.step state = (log, .done)) : e.trail state = [state] := by
  rw [trail]
  split <;> simp_all

theorem trail_of_failed {f : Failure} (h : e.step state = (log, .failed f)) :
    e.trail state = [state] := by
  rw [trail]
  split <;> simp_all

def trailWithin (e : Engine ρ) : Nat → State ρ → Option (List (State ρ))
  | 0, _ => none
  | n + 1, state =>
    match e.step state with
    | (_, .next _ next) => (e.trailWithin n next).map (state :: ·)
    | _ => some [state]

theorem trail_of_trailWithin {n : Nat} {states : List (State ρ)}
    (h : e.trailWithin n state = some states) : e.trail state = states := by
  induction n generalizing state states with
  | zero => simp [trailWithin] at h
  | succ n ih =>
    cases hs : e.step state with
    | mk log result =>
      rw [trailWithin, hs] at h
      cases result with
      | done => rw [trail_of_done hs, Option.some.inj h]
      | failed f => rw [trail_of_failed hs, Option.some.inj h]
      | next s next =>
        obtain ⟨later, hlater, rfl⟩ := Option.map_eq_some_iff.mp h
        rw [trail_of_next hs, ih hlater]

/-- What holds at the beginning, and is kept by every step, holds all along the trail. It may depend
on the states before. -/
theorem trail_induction {P : List (State ρ) → State ρ → Prop} (hstart : P [] state)
    (hstep : ∀ earlier state next log s, P earlier state →
      e.step state = (log, .next s next) → P (earlier ++ [state]) next)
    {earlier later : List (State ρ)} (h : e.trail state = earlier ++ last :: later) :
    P earlier last := by
  suffices hfrom : ∀ before, P before state → P (before ++ earlier) last from hfrom [] hstart
  clear hstart
  intro before hbefore
  induction earlier generalizing state before with
  | nil =>
    have hhead : state = last := by
      rw [trail] at h
      split at h <;> exact (List.cons.inj h).1
    rwa [List.append_nil, ← hhead]
  | cons first earlier ih =>
    cases hs : e.step state with
    | mk log result =>
      cases result with
      | done =>
        rw [trail_of_done hs] at h
        simp at h
      | failed f =>
        rw [trail_of_failed hs] at h
        simp at h
      | next s next =>
        rw [trail_of_next hs] at h
        obtain ⟨rfl, hlater⟩ := List.cons.inj h
        have hnext := ih hlater (before ++ [state]) (hstep before state next log s hbefore hs)
        rwa [List.append_assoc] at hnext

theorem exists_trail (e : Engine ρ) (state : State ρ) :
    ∃ later, e.trail state = state :: later := by
  rw [trail]
  split <;> exact ⟨_, rfl⟩

theorem trail_from {earlier later : List (State ρ)}
    (h : e.trail state = earlier ++ last :: later) :
    e.trail last = last :: later ∧ (e.drain state).2 = (e.drain last).2 := by
  induction earlier generalizing state with
  | nil =>
    obtain ⟨behind, htrail⟩ := e.exists_trail state
    obtain ⟨rfl, -⟩ := List.cons.inj (htrail.symm.trans h)
    exact ⟨h, rfl⟩
  | cons first earlier ih =>
    cases hs : e.step state with
    | mk log result =>
      cases result with
      | done =>
        rw [trail_of_done hs] at h
        simp at h
      | failed f =>
        rw [trail_of_failed hs] at h
        simp at h
      | next s next =>
        rw [trail_of_next hs] at h
        obtain ⟨-, hlater⟩ := List.cons.inj h
        obtain ⟨htrail, hdrain⟩ := ih hlater
        refine ⟨htrail, ?_⟩
        rw [drain_of_next hs, ← hdrain]
        rfl

theorem exists_done {stack : Stack ρ} (h : (e.drain state).2 = .ok stack) :
    ∃ earlier, e.trail state = earlier ++ [⟨stack, []⟩] := by
  fun_induction drain e state with
  | case1 state log hstep =>
    obtain rfl := Except.ok.inj h
    obtain ⟨-, hsources⟩ := eq_of_step_done hstep
    exact ⟨[], by rw [trail_of_done hstep, ← hsources]; rfl⟩
  | case2 => simp at h
  | case3 state log s next hstep later result hdrain ih =>
    rw [hdrain] at ih
    obtain ⟨earlier, htrail⟩ := ih h
    exact ⟨state :: earlier, by rw [trail_of_next hstep, htrail, List.cons_append]⟩

theorem exists_failed {f : Failure} (h : (e.drain state).2 = .error f) :
    ∃ earlier last log, e.trail state = earlier ++ [last] ∧ e.step last = (log, .failed f) := by
  fun_induction drain e state with
  | case1 => simp at h
  | case2 state log g hstep =>
    obtain rfl : g = f := Except.error.inj h
    exact ⟨[], state, log, trail_of_failed hstep, hstep⟩
  | case3 state log s next hstep later result hdrain ih =>
    rw [hdrain] at ih
    obtain ⟨earlier, last, log', htrail, hfailed⟩ := ih h
    refine ⟨state :: earlier, last, log', ?_, hfailed⟩
    rw [trail_of_next hstep, htrail, List.cons_append]

end ScopedConf.Engine
