import ScopedConf.Proofs.Runs

/-! Sources as the streams of statements that they deliver. The engine reads a source to its end,
with all that is included on the way, before it goes on with the next one; so a run is a loop over
statements. -/

namespace ScopedConf

variable {ρ : Type}

abbrev Outcome (α : Type) := Log × Except Failure α

namespace Outcome

variable {α β γ : Type}

def pure (a : α) : Outcome α := ([], .ok a)

def fail (f : Failure) : Outcome α := ([], .error f)

def bind (r : Outcome α) (f : α → Outcome β) : Outcome β :=
  match r with
  | (log, .error failure) => (log, .error failure)
  | (log, .ok a) => (log ++ (f a).1, (f a).2)

@[simp] theorem pure_bind (a : α) (f : α → Outcome β) : bind (pure a) f = f a := rfl

@[simp] theorem fail_bind (failure : Failure) (f : α → Outcome β) :
    bind (fail failure) f = fail failure := rfl

theorem bind_assoc (r : Outcome α) (f : α → Outcome β) (g : β → Outcome γ) :
    bind (bind r f) g = bind r fun a => bind (f a) g := by
  obtain ⟨log, result⟩ := r
  cases result with
  | error failure => rfl
  | ok a =>
    cases hf : f a with
    | mk later result => cases result <;> simp [bind, hf]

end Outcome

def Reported.at {α : Type} (r : Reported α) (location : Location) : Outcome α :=
  (r.1, r.2.mapError (·.orAt location))

/-- The statements that a source delivers, and where it ends or why it cannot be read on. -/
structure Stream where
  statements : List Statement
  ending : Except Failure Location

def Cursor.stream (c : Cursor) : Stream :=
  match _ : c.next with
  | (.error f, _) => ⟨[], .error f⟩
  | (.ok none, d) => ⟨[], .ok d.location⟩
  | (.ok (some s), d) => ⟨s :: d.stream.statements, d.stream.ending⟩
termination_by c.rest.length
decreasing_by all_goals exact Cursor.rest_next_length_lt (by assumption)

theorem Cursor.stream_of_statement {c d : Cursor} {s : Statement} (h : c.next = (.ok (some s), d)) :
    c.stream = ⟨s :: d.stream.statements, d.stream.ending⟩ := by
  rw [stream]
  split <;> simp_all

theorem Cursor.stream_of_end {c d : Cursor} (h : c.next = (.ok none, d)) :
    c.stream = ⟨[], .ok d.location⟩ := by
  rw [stream]
  split <;> simp_all

theorem Cursor.stream_of_error {c d : Cursor} {f : Failure} (h : c.next = (.error f, d)) :
    c.stream = ⟨[], .error f⟩ := by
  rw [stream]
  split <;> simp_all

namespace Engine

/-- The loop of the engine over a source that delivers the given statements. An include is read to
its end before the statement behind it. -/
def feed (e : Engine ρ) (source : Source) (ending : Except Failure Location) :
    Stack ρ → List Statement → Outcome (Stack ρ)
  | stack, [] =>
    match ending with
    | .error f => .fail f
    | .ok location =>
      if stack.depth ≠ source.baseDepth then .fail (.located .unexpectedEnd location)
      else
        (if 0 < source.includeDepth then [Event.finishedInclude location.file] else [], .ok stack)
  | stack, s :: ss =>
    .bind ((e.handle source stack s).at s.location) fun (stack, opened) =>
      .bind (e.drain ⟨stack, opened⟩) fun stack => e.feed source ending stack ss

/-- The run of the engine on one source that delivers the stream. -/
def runStream (e : Engine ρ) [Record ρ] (source : Source) (stream : Stream) :
    Outcome (Context ρ) :=
  .bind (e.feed source stream.ending ⟨Frame.root e.registry, []⟩ stream.statements) fun stack =>
    .pure stack.bottom.close.complete

variable {e : Engine ρ} {state next : State ρ} {log : Log}

theorem drain_of_done (h : e.step state = (log, .done)) :
    e.drain state = (log, .ok state.stack) := by
  rw [drain]
  split <;> simp_all

theorem drain_of_failed {f : Failure} (h : e.step state = (log, .failed f)) :
    e.drain state = (log, .error f) := by
  rw [drain]
  split <;> simp_all

theorem drain_of_next {s : Option Statement} (h : e.step state = (log, .next s next)) :
    e.drain state = Outcome.bind (log, .ok next) e.drain := by
  rw [drain]
  split <;> simp_all [Outcome.bind]

theorem drain_nil (e : Engine ρ) (stack : Stack ρ) : e.drain ⟨stack, []⟩ = Outcome.pure stack :=
  drain_of_done rfl

/-- How a run ends, if it ends within `n` steps. -/
def drainWithin (e : Engine ρ) : Nat → State ρ → Option (Outcome (Stack ρ))
  | 0, _ => none
  | n + 1, state =>
    match e.step state with
    | (log, .done) => some (log, .ok state.stack)
    | (log, .failed f) => some (log, .error f)
    | (log, .next _ next) =>
      (e.drainWithin n next).map fun r => Outcome.bind (log, .ok ()) fun _ => r

theorem drain_of_drainWithin {n : Nat} {r : Outcome (Stack ρ)}
    (h : e.drainWithin n state = some r) : e.drain state = r := by
  induction n generalizing state r with
  | zero => simp [drainWithin] at h
  | succ n ih =>
    rw [drainWithin] at h
    split at h
    · next hstep => rw [drain_of_done hstep, Option.some.inj h]
    · next hstep => rw [drain_of_failed hstep, Option.some.inj h]
    · next hstep =>
      obtain ⟨later, hlater, rfl⟩ := Option.map_eq_some_iff.mp h
      rw [drain_of_next hstep, ← ih hlater]
      rfl

def succeedsWithin (e : Engine ρ) (n : Nat) (state : State ρ) : Bool :=
  (e.drainWithin n state).any fun r => r.2.isOk

theorem exists_run_of_succeedsWithin [Record ρ] {n : Nat} (h : e.succeedsWithin n state = true) :
    ∃ log root, e.run state = (log, .ok root) := by
  obtain ⟨r, hr, hok⟩ := (Option.any_eq_true _ _).mp h
  have hdrain := drain_of_drainWithin hr
  obtain ⟨log, result⟩ := r
  cases result with
  | error f => simp [Except.isOk, Except.toBool] at hok
  | ok stack => exact ⟨log, stack.bottom.close.complete, by rw [run, hdrain]; rfl⟩

def yieldsWithin [Record ρ] (e : Engine ρ) (n : Nat) (state : State ρ)
    (p : Context ρ → Bool) : Bool :=
  (e.drainWithin n state).any fun r =>
    match r.2 with
    | .error _ => false
    | .ok stack => p stack.bottom.close.complete

theorem exists_run_of_yieldsWithin [Record ρ] {n : Nat} {p : Context ρ → Bool}
    (h : e.yieldsWithin n state p = true) :
    ∃ log root, e.run state = (log, .ok root) ∧ p root = true := by
  obtain ⟨⟨log, result⟩, hr, hp⟩ := (Option.any_eq_true _ _).mp h
  cases result with
  | error f => simp at hp
  | ok stack =>
    refine ⟨log, stack.bottom.close.complete, ?_, hp⟩
    rw [run, drain_of_drainWithin hr]
    rfl

def failsWithin (e : Engine ρ) (n : Nat) (state : State ρ) (f : Failure) : Bool :=
  (e.drainWithin n state).any fun r =>
    match r.2 with
    | .error g => g = f
    | .ok _ => false

theorem drain_of_failsWithin {n : Nat} {f : Failure} (h : e.failsWithin n state f = true) :
    (e.drain state).2 = .error f := by
  obtain ⟨r, hr, hfails⟩ := (Option.any_eq_true _ _).mp h
  rw [drain_of_drainWithin hr]
  split at hfails
  · next g hg => rw [hg, of_decide_eq_true hfails]
  · simp at hfails

def Step.behind (rest : List Source) : Step ρ → Step ρ
  | .done => .done
  | .failed f => .failed f
  | .next s state => .next s ⟨state.stack, state.sources ++ rest⟩

theorem step_append (e : Engine ρ) (state : State ρ) (rest : List Source)
    (h : state.sources ≠ []) :
    e.step ⟨state.stack, state.sources ++ rest⟩ =
      ((e.step state).1, (e.step state).2.behind rest) := by
  obtain ⟨stack, sources⟩ := state
  cases sources with
  | nil => exact absurd rfl h
  | cons source more =>
    simp only [step, List.cons_append]
    cases hnext : source.cursor.next with
    | mk read cursor =>
      cases read with
      | error f => rfl
      | ok s? =>
        cases s? with
        | none =>
          cases hend : endSource (source.advance cursor) stack with
          | mk log result => cases result <;> simp [hend, Step.behind]
        | some s =>
          cases hhandle : e.handle (source.advance cursor) stack s with
          | mk log result => cases result <;> simp [hhandle, Step.behind]

theorem drain_append (e : Engine ρ) (state : State ρ) (rest : List Source) :
    e.drain ⟨state.stack, state.sources ++ rest⟩ =
      Outcome.bind (e.drain state) fun stack => e.drain ⟨stack, rest⟩ := by
  fun_induction drain e state with
  | case1 state log hstep =>
    obtain ⟨rfl, hsources⟩ := eq_of_step_done hstep
    simp [hsources, Outcome.bind]
  | case2 state log f hstep =>
    have happend := e.step_append state rest (by intro hnil; simp [step, hnil] at hstep)
    rw [hstep] at happend
    rw [drain_of_failed happend]
    rfl
  | case3 state log s next hstep later result hdrain ih =>
    have happend := e.step_append state rest (by intro hnil; simp [step, hnil] at hstep)
    rw [hstep] at happend
    rw [drain_of_next happend]
    simp only [Outcome.bind, ih]
    rw [hdrain]
    cases result <;> simp

theorem depth_of_drain {last : Stack ρ} (h : (e.drain state).2 = .ok last) :
    last.depth = (state.sources.getLast?.map Source.baseDepth).getD state.stack.depth := by
  fun_induction drain e state with
  | case1 state log hstep =>
    obtain ⟨-, hnone⟩ := eq_of_step_done hstep
    rw [hnone, ← Except.ok.inj h]
    rfl
  | case2 => simp at h
  | case3 state log s? next hstep later result hlater ih =>
    have hnext := ih (by rwa [hlater])
    cases s? with
    | none =>
      obtain ⟨source, rest, cursor, hsources, -, hdepth, rfl⟩ := eq_of_step_ended hstep
      rw [hnext, hsources]
      cases rest with
      | nil => exact hdepth
      | cons => rfl
    | some s =>
      obtain ⟨source, rest, cursor, opened, hsources, -, -, hopened⟩ := eq_of_step_statement hstep
      rw [hnext, hopened, hsources]
      cases rest with
      | nil => simp [Source.advance]
      | cons n rest =>
        have hlast := List.getLast?_eq_some_getLast (List.cons_ne_nil n rest)
        simp [List.getLast?_append, List.getLast?_cons_cons, hlast]

theorem depth_of_drain_opened {stack last : Stack ρ} {sources : List Source}
    (h : (e.drain ⟨stack, sources⟩).2 = .ok last)
    (hsources : ∀ n ∈ sources, n.baseDepth = stack.depth) : last.depth = stack.depth := by
  rw [depth_of_drain h]
  cases hlast : sources.getLast? with
  | none => rfl
  | some n => simpa [hlast] using hsources n (List.mem_of_getLast? hlast)

theorem handle_advance (e : Engine ρ) (source : Source) (cursor : Cursor) :
    e.handle (source.advance cursor) = e.handle source := rfl

theorem feed_advance (e : Engine ρ) (source : Source) (cursor : Cursor)
    (ending : Except Failure Location) :
    e.feed (source.advance cursor) ending = e.feed source ending := by
  funext stack ss
  induction ss generalizing stack with
  | nil => rfl
  | cons s ss ih => simp only [feed, handle_advance, ih]

theorem step_of_end {source : Source} {cursor : Cursor} (e : Engine ρ) (stack : Stack ρ)
    (rest : List Source) (hnext : source.cursor.next = (.ok none, cursor)) :
    e.step ⟨stack, source :: rest⟩ =
      if stack.depth = source.baseDepth then
        (if 0 < source.includeDepth then [Event.finishedInclude cursor.location.file] else [],
          .next none ⟨stack, rest⟩)
      else ([], .failed (.located .unexpectedEnd cursor.location)) := by
  by_cases hdepth : stack.depth = source.baseDepth
  · simp [step, hnext, endSource, hdepth, Source.advance, Cursor.location]
    rfl
  · simp [step, hnext, endSource, hdepth, Source.advance, Cursor.location]

theorem step_of_statement {source : Source} {cursor : Cursor} {s : Statement} (e : Engine ρ)
    (stack : Stack ρ) (rest : List Source) (hnext : source.cursor.next = (.ok (some s), cursor)) :
    e.step ⟨stack, source :: rest⟩ =
      match e.handle source stack s with
      | (log, .error f) => (log, .failed (f.orAt s.location))
      | (log, .ok (stack, opened)) =>
        (log, .next (some s) ⟨stack, opened ++ source.advance cursor :: rest⟩) := by
  cases hhandle : e.handle source stack s with
  | mk log result => cases result <;> simp [step, hnext, handle_advance, hhandle]

/-- The engine reads the statements of the topmost source, and then the sources behind it. -/
theorem drain_source (e : Engine ρ) (stack : Stack ρ) (source : Source) (rest : List Source) :
    e.drain ⟨stack, source :: rest⟩ =
      Outcome.bind (e.feed source source.cursor.stream.ending stack source.cursor.stream.statements)
        fun stack => e.drain ⟨stack, rest⟩ := by
  generalize hcursor : source.cursor = cursor
  fun_induction Cursor.stream cursor generalizing source stack with
  | case1 cursor f d hnext =>
    have hstep : e.step ⟨stack, source :: rest⟩ = ([], .failed f) := by simp [step, hcursor, hnext]
    rw [drain_of_failed hstep]
    rfl
  | case2 cursor d hnext =>
    have hstep := e.step_of_end stack rest (hcursor ▸ hnext)
    simp only [feed]
    by_cases hdepth : stack.depth = source.baseDepth
    · rw [if_pos hdepth] at hstep
      rw [drain_of_next hstep]
      simp [hdepth, Outcome.bind]
    · rw [if_neg hdepth] at hstep
      rw [drain_of_failed hstep]
      simp [hdepth, Outcome.bind, Outcome.fail]
  | case3 cursor s d hnext ih =>
    have hstep := e.step_of_statement stack rest (hcursor ▸ hnext)
    simp only [feed]
    cases hhandle : e.handle source stack s with
    | mk log result =>
      rw [hhandle] at hstep
      cases result with
      | error f =>
        rw [drain_of_failed hstep]
        rfl
      | ok handled =>
        obtain ⟨next, opened⟩ := handled
        have hfeed := fun stack => ih stack (source.advance d) rfl
        simp only [feed_advance] at hfeed
        have happend := e.drain_append ⟨next, opened⟩ (source.advance d :: rest)
        simp only at happend
        rw [drain_of_next hstep]
        change Outcome.bind (log, .ok _) e.drain = Outcome.bind (Outcome.bind (log, .ok _) _) _
        rw [Outcome.bind_assoc]
        simp only [Outcome.bind_assoc, ← hfeed]
        exact congrArg (fun drained => Outcome.bind (log, .ok ()) fun _ => drained) happend

/-- A run depends on its source by what the source delivers. -/
theorem run_eq_runStream (e : Engine ρ) [Record ρ] (source : Source) :
    e.run (e.opening source) = e.runStream source source.cursor.stream := by
  unfold run runStream opening
  rw [drain_source]
  simp only [drain_nil]
  generalize e.feed source _ _ _ = fed
  obtain ⟨log, result⟩ := fed
  cases result <;> simp [Outcome.bind, Outcome.pure, Except.map]

end Engine

end ScopedConf
