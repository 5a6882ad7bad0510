import ScopedConf.Proofs.Streams

/-! Two runs side by side. Where every statement leads related stacks to related stacks, with the
same reports or the same failure, all that is read does so, with everything that it includes. -/

namespace ScopedConf

variable {ρ : Type}

namespace Outcome

variable {α β γ δ : Type}

/-- The same reports, and the same failure or related results. -/
inductive Related (R : α → β → Prop) : Outcome α → Outcome β → Prop
  | ok {a : α} {b : β} (log : Log) (h : R a b) : Related R (log, .ok a) (log, .ok b)
  | error (log : Log) (f : Failure) : Related R (log, .error f) (log, .error f)

namespace Related

variable {R : α → β → Prop} {S : γ → δ → Prop} {r : Outcome α} {r' : Outcome β}

theorem bind {k : α → Outcome γ} {k' : β → Outcome δ} (h : Related R r r')
    (hk : ∀ a b, R a b → Related S (k a) (k' b)) :
    Related S (Outcome.bind r k) (Outcome.bind r' k') := by
  cases h with
  | error log f => exact .error log f
  | @ok a b log hab =>
    have hlater := hk a b hab
    simp only [Outcome.bind]
    generalize k a = later, k' b = later' at hlater
    cases hlater with
    | error more f => exact .error _ f
    | ok more hcd => exact .ok _ hcd

theorem located (h : Related R r r') (location : Location) :
    Related R (Reported.at r location) (Reported.at r' location) := by
  cases h with
  | error log f => exact .error log _
  | ok log hab => exact .ok log hab

theorem imp {S : α → β → Prop} (h : Related R r r')
    (himp : ∀ a b, r.2 = .ok a → R a b → S a b) : Related S r r' := by
  cases h with
  | error log f => exact .error log f
  | ok log hab => exact .ok log (himp _ _ rfl hab)

theorem map (h : Related R r r') {f : α → γ} {g : β → δ} (hS : ∀ a b, R a b → S (f a) (g b)) :
    Related S (Reported.map f r) (Reported.map g r') := by
  cases h with
  | error log f => exact .error log f
  | ok log hab => exact .ok log (hS _ _ hab)

theorem of_map {r : Reported γ} {f : γ → α} {g : γ → β} (h : ∀ c, r.2 = .ok c → R (f c) (g c)) :
    Related R (r.map f) (r.map g) := by
  obtain ⟨log, result⟩ := r
  cases result with
  | error failure => exact .error log failure
  | ok c => exact .ok log (h c rfl)

theorem eq_ok (h : Related R r r') {a : α} (hr : r.2 = .ok a) : ∃ b, r'.2 = .ok b ∧ R a b := by
  cases h with
  | error log f => simp at hr
  | ok log hab => exact ⟨_, rfl, Except.ok.inj hr ▸ hab⟩

end Related

theorem snd_bind_eq_ok {r : Outcome α} {k : α → Outcome β} {b : β} :
    (bind r k).2 = .ok b ↔ ∃ a, r.2 = .ok a ∧ (k a).2 = .ok b := by
  obtain ⟨log, result⟩ := r
  cases result <;> simp [bind]

end Outcome

namespace Engine

/-- The statements `ss` of a source, handled one after the other, each with all that it includes. -/
def handleAll (e : Engine ρ) (source : Source) : Stack ρ → List Statement → Outcome (Stack ρ)
  | stack, [] => .pure stack
  | stack, s :: ss =>
    .bind ((e.handle source stack s).at s.location) fun (stack, opened) =>
      .bind (e.drain ⟨stack, opened⟩) fun stack => e.handleAll source stack ss

variable {e : Engine ρ} {source : Source} {stack next last : Stack ρ} {s : Statement}
  {ss : List Statement} {log : Log}

theorem handleAll_append (e : Engine ρ) (source : Source) (stack : Stack ρ)
    (ss later : List Statement) :
    e.handleAll source stack (ss ++ later) =
      .bind (e.handleAll source stack ss) fun stack => e.handleAll source stack later := by
  induction ss generalizing stack with
  | nil => rfl
  | cons s ss ih => simp only [List.cons_append, handleAll, ih, Outcome.bind_assoc]

theorem feed_eq_handleAll (e : Engine ρ) (source : Source) (ending : Except Failure Location)
    (stack : Stack ρ) (ss : List Statement) :
    e.feed source ending stack ss =
      .bind (e.handleAll source stack ss) fun stack => e.feed source ending stack [] := by
  induction ss generalizing stack with
  | nil => rfl
  | cons s ss ih =>
    rw [feed, handleAll]
    simp only [ih, Outcome.bind_assoc]

theorem snd_handleAll_append {later : List Statement} :
    (e.handleAll source stack (ss ++ later)).2 = .ok last ↔
      ∃ next, (e.handleAll source stack ss).2 = .ok next ∧
        (e.handleAll source next later).2 = .ok last := by
  rw [handleAll_append, Outcome.snd_bind_eq_ok]

section simulation

variable {R : Stack ρ → Stack ρ → Prop} {P : Source → Prop} {t : Stack ρ} {sources : List Source}

def WithSources (R : Stack ρ → Stack ρ → Prop) (P : Source → Prop)
    (x y : Stack ρ × List Source) : Prop :=
  R x.1 y.1 ∧ x.2 = y.2 ∧ ∀ source ∈ x.2, P source

/-- Statements from sources of this kind are handled alike on related stacks. -/
structure Simulates (e : Engine ρ) (R : Stack ρ → Stack ρ → Prop) (P : Source → Prop) : Prop where
  depth : ∀ s t, R s t → s.depth = t.depth
  advance : ∀ source cursor, P source → P (source.advance cursor)
  handle : ∀ source s t stmt, P source → R s t →
    Outcome.Related (WithSources R P) (e.handle source s stmt) (e.handle source t stmt)

inductive StepRelated (R : Stack ρ → Stack ρ → Prop) (P : Source → Prop) :
    Log × Step ρ → Log × Step ρ → Prop
  | done (log : Log) : StepRelated R P (log, .done) (log, .done)
  | failed (log : Log) (f : Failure) : StepRelated R P (log, .failed f) (log, .failed f)
  | next {s t : Stack ρ} (log : Log) (s? : Option Statement) (sources : List Source) (hR : R s t)
    (hP : ∀ source ∈ sources, P source) :
    StepRelated R P (log, .next s? ⟨s, sources⟩) (log, .next s? ⟨t, sources⟩)

namespace Simulates

theorem step (h : e.Simulates R P) (hR : R stack t) (hP : ∀ source ∈ sources, P source) :
    StepRelated R P (e.step ⟨stack, sources⟩) (e.step ⟨t, sources⟩) := by
  cases sources with
  | nil => exact .done _
  | cons source rest =>
    obtain ⟨hsource, hrest⟩ := List.forall_mem_cons.mp hP
    cases hnext : source.cursor.next with
    | mk read cursor =>
      match read with
      | .error f =>
        simp only [Engine.step, hnext]
        exact .failed _ f
      | .ok none =>
        rw [e.step_of_end _ rest hnext, e.step_of_end _ rest hnext, h.depth _ _ hR]
        split
        · exact .next _ none rest hR hrest
        · exact .failed _ _
      | .ok (some s) =>
        rw [e.step_of_statement _ rest hnext, e.step_of_statement _ rest hnext]
        have hhandle := h.handle source stack t s hsource hR
        generalize e.handle source stack s = handled, e.handle source t s = handled' at hhandle
        cases hhandle with
        | error log f => exact .failed log _
        | @ok x y log hxy =>
          obtain ⟨next, opened⟩ := x
          obtain ⟨next', opened'⟩ := y
          obtain ⟨hnext, rfl, hopened⟩ := hxy
          refine .next log (some s) _ hnext fun n hn => ?_
          rcases List.mem_append.mp hn with hn | hn
          · exact hopened n hn
          · rcases List.mem_cons.mp hn with rfl | hn
            · exact h.advance source cursor hsource
            · exact hrest n hn

theorem drain (h : e.Simulates R P) (hR : R stack t) (hP : ∀ source ∈ sources, P source) :
    Outcome.Related R (e.drain ⟨stack, sources⟩) (e.drain ⟨t, sources⟩) := by
  have hsteps := h.step hR hP
  generalize hstart : (⟨stack, sources⟩ : State ρ) = start at hsteps ⊢
  generalize hother : e.step ⟨t, sources⟩ = other at hsteps
  fun_induction Engine.drain e start generalizing stack t sources other with
  | case1 start log hstep =>
    subst hstart
    rw [hstep] at hsteps
    cases hsteps
    rw [drain_of_done hother]
    exact .ok log hR
  | case2 start log f hstep =>
    rw [hstep] at hsteps
    cases hsteps
    rw [drain_of_failed hother]
    exact .error log f
  | case3 start log s? next hstep later result hlater ih =>
    rw [hstep] at hsteps
    cases hsteps with
    | next _ _ sources hnext hsources =>
      have hrelated := ih hnext hsources rfl _ rfl (h.step hnext hsources)
      rw [hlater] at hrelated
      rw [drain_of_next hother]
      exact (Outcome.Related.ok (R := R) log hnext).bind fun _ _ _ => hrelated

theorem handleAll (h : e.Simulates R P) (hsource : P source) (hR : R stack t)
    (ss : List Statement) :
    Outcome.Related R (e.handleAll source stack ss) (e.handleAll source t ss) := by
  induction ss generalizing stack t with
  | nil => exact .ok [] hR
  | cons s ss ih =>
    refine ((h.handle source stack t s hsource hR).located s.location).bind fun x y hxy => ?_
    obtain ⟨next, opened⟩ := x
    obtain ⟨next', opened'⟩ := y
    obtain ⟨hnext, rfl, hopened⟩ := hxy
    exact (h.drain hnext hopened).bind fun _ _ hlast => ih hlast

end Simulates

end simulation

end Engine

end ScopedConf
