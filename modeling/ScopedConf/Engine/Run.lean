import ScopedConf.Context.Completion
import ScopedConf.Engine.Pending
import ScopedConf.Engine.Step

/-! Runs of the engine: steps are made until no source is left or one of them fails. Includes are
limited in depth, so a run ends whatever the files hold. -/

namespace ScopedConf

/-- A source as an amount of work: the levels of include still open to it, and its bytes. -/
def Source.amount (limit : Nat) (s : Source) : Nat × Nat :=
  (limit - s.includeDepth, s.cursor.rest.length)

def State.pending {ρ : Type} (limit : Nat) (s : State ρ) : Pending :=
  ⟨s.sources.map (Source.amount limit)⟩

namespace Engine

variable {ρ : Type}

theorem includeDepth_of_openFiles {e : Engine ρ} {line baseDepth includeDepth : Nat}
    {paths : List Path} {log : Log} {sources : List Source}
    (h : e.openFiles line baseDepth includeDepth paths = (log, .ok sources)) :
    ∀ n ∈ sources, n.includeDepth = includeDepth := by
  induction paths generalizing log sources with
  | nil =>
    simp only [openFiles, Prod.mk.injEq, Except.ok.injEq] at h
    simp [← h.2]
  | cons p ps ih =>
    unfold openFiles at h
    split at h
    · simp at h
    · next later hlater =>
      split at h
      · simp at h
      · simp only [Prod.mk.injEq, Except.ok.injEq] at h
        intro n hn
        rw [← h.2, List.mem_cons] at hn
        rcases hn with rfl | hn
        · rfl
        · exact ih hlater n hn

/-- The sources that an include opens lie one level deeper, below the limit. -/
theorem includeDepth_of_includeFiles {e : Engine ρ} {source : Source} {depth : Nat}
    {s : Statement} {log : Log} {sources : List Source}
    (h : e.includeFiles source depth s = (log, .ok sources)) :
    ∀ n ∈ sources, source.includeDepth < e.options.maxIncludeDepth ∧
      n.includeDepth = source.includeDepth + 1 := by
  unfold includeFiles at h
  split at h
  · simp at h
  · next hlimit =>
    split at h
    · simp at h
    · simp only [Prod.mk.injEq, Except.ok.injEq] at h
      simp [← h.2]
    · intro n hn
      exact ⟨Nat.lt_of_not_le hlimit, includeDepth_of_openFiles h n hn⟩

theorem includeDepth_of_execute {e : Engine ρ} {source : Source} {stack next : Stack ρ}
    {m : Registry.Entry ρ} {d : Directive ρ} {s : Statement} {log : Log} {sources : List Source}
    (h : e.execute source stack m d s = (log, .ok (next, sources))) :
    ∀ n ∈ sources, source.includeDepth < e.options.maxIncludeDepth ∧
      n.includeDepth = source.includeDepth + 1 := by
  unfold execute at h
  split at h
  · obtain ⟨opened, ho, heq⟩ := Reported.map_eq_ok.mp h
    simp only [Prod.mk.injEq] at heq
    exact heq.2 ▸ includeDepth_of_includeFiles ho
  · split at h
    · simp at h
    · obtain ⟨_, _, heq⟩ := Reported.map_eq_ok.mp h
      simp only [Prod.mk.injEq] at heq
      simp [← heq.2]
  · obtain ⟨_, _, heq⟩ := Reported.map_eq_ok.mp h
    simp only [Prod.mk.injEq] at heq
    simp [← heq.2]

theorem includeDepth_of_dispatch {e : Engine ρ} {source : Source} {stack next : Stack ρ}
    {s : Statement} {log : Log} {sources : List Source}
    (h : e.dispatch source stack s = (log, .ok (next, sources))) :
    ∀ n ∈ sources, source.includeDepth < e.options.maxIncludeDepth ∧
      n.includeDepth = source.includeDepth + 1 := by
  unfold dispatch at h
  split at h
  · simp at h
  · split at h
    · simp at h
    · simp only [Prod.mk.injEq] at h
      exact includeDepth_of_execute (Prod.ext rfl h.2)

theorem includeDepth_of_handle {e : Engine ρ} {source : Source} {stack next : Stack ρ}
    {s : Statement} {log : Log} {sources : List Source}
    (h : e.handle source stack s = (log, .ok (next, sources))) :
    ∀ n ∈ sources, source.includeDepth < e.options.maxIncludeDepth ∧
      n.includeDepth = source.includeDepth + 1 := by
  unfold handle at h
  split at h
  · obtain ⟨_, _, heq⟩ := Reported.map_eq_ok.mp h
    simp only [Prod.mk.injEq] at heq
    simp [← heq.2]
  · split at h
    · obtain ⟨_, _, heq⟩ := Reported.map_eq_ok.mp h
      simp only [Prod.mk.injEq] at heq
      simp [← heq.2]
    · exact includeDepth_of_dispatch h

/-- Every step leaves less work to be done. -/
theorem pending_step {e : Engine ρ} {state next : State ρ} {log : Log} {s : Option Statement}
    (h : e.step state = (log, .next s next)) :
    WellFoundedRelation.rel (next.pending e.options.maxIncludeDepth)
      (state.pending e.options.maxIncludeDepth) := by
  obtain ⟨stack, sources⟩ := state
  unfold step at h
  split at h
  · simp at h
  · next source rest hs =>
    simp only at hs
    subst hs
    split at h
    · simp at h
    · split at h
      · simp at h
      · simp only [Prod.mk.injEq, Step.next.injEq] at h
        rw [← h.2.2]
        exact Replaces.head _ [] _ (by simp)
    · next s cursor hc =>
      split at h
      · simp at h
      · next log' stack' opened hh =>
        simp only [Prod.mk.injEq, Step.next.injEq] at h
        rw [← h.2.2]
        have hrel := Replaces.head (r := Prod.Lex (· < ·) (· < ·))
          (source.amount e.options.maxIncludeDepth)
          ((opened ++ [source.advance cursor]).map
            (Source.amount e.options.maxIncludeDepth))
          (rest.map (Source.amount e.options.maxIncludeDepth)) ?_
        · simpa [WellFoundedRelation.rel, InvImage, State.pending] using hrel
        · intro n hn
          simp only [List.map_append, List.map_cons, List.map_nil, List.mem_append, List.mem_map,
            List.mem_singleton] at hn
          rcases hn with ⟨o, ho, rfl⟩ | rfl
          · obtain ⟨hlimit, hdepth⟩ := includeDepth_of_handle hh o ho
            rw [source.includeDepth_advance] at hlimit hdepth
            exact Prod.Lex.left _ _ (by omega)
          · exact Prod.Lex.right _ (Cursor.rest_next_length_lt hc)

/-- Makes steps until no source is left: the open contexts then, or the first failure. -/
def drain (e : Engine ρ) (state : State ρ) : Log × Except Failure (Stack ρ) :=
  match _ : e.step state with
  | (log, .done) => (log, .ok state.stack)
  | (log, .failed f) => (log, .error f)
  | (log, .next _ next) =>
    let (later, result) := drain e next
    (log ++ later, result)
termination_by state.pending e.options.maxIncludeDepth
decreasing_by exact pending_step (by assumption)

/-- Makes steps to the end: the top level with everything in it, complete, or the first failure. -/
def run (e : Engine ρ) [Record ρ] (state : State ρ) : Log × Except Failure (Context ρ) :=
  let (log, result) := e.drain state
  (log, result.map fun stack => stack.bottom.close.complete)

end Engine

end ScopedConf
