import ScopedConf.Proofs.Positions
import ScopedConf.Proofs.Refusals
import ScopedConf.Proofs.Uses

/-! Directives that may be used once. In every context of a run they are used once at most, be it
from different files, and only a second use in the same context is a duplicate. -/

namespace ScopedConf

variable {ρ : Type}

/-- A directive that was executed, in the context at this position. -/
structure Usage (ρ : Type) where
  position : List Nat
  module : Registry.Entry ρ
  directive : Directive ρ

/-- In one context, a name stands for one directive, and where there are two usages of it, it may be
used again and again. -/
def Usage.Apart (u v : Usage ρ) : Prop :=
  v.position = u.position → v.directive.name = u.directive.name →
    v.module = u.module ∧ v.directive = u.directive ∧ u.directive.shape.has .once = false

variable {name : String}

theorem Refusal.cause_ne_duplicate (r : Refusal) (directive name : String) :
    r.cause directive ≠ .duplicateDirective name := by
  cases r <;> simp [Refusal.cause]

theorem Refusal.checkCause_ne_duplicate (r : Refusal) (directive name : String) :
    r.checkCause directive ≠ .duplicateDirective name := by
  cases r <;> simp [Refusal.checkCause]

namespace Frame

variable {f : Frame ρ} {d : Directive ρ} {s : Statement}

theorem used_of_admitUse (h : f.admitUse d s = .error (.duplicateDirective name)) :
    s.name = name ∧ d.name ∈ f.used := by
  simp only [admitUse] at h
  repeat' split at h
  all_goals simp_all

theorem obey_ne_duplicate (f : Frame ρ) (index : Nat) (d : Directive ρ) (s : Statement)
    (name : String) : f.obey index d s ≠ .error (.duplicateDirective name) := by
  intro h
  unfold obey store at h
  split at h
  · split at h
    · exact Refusal.cause_ne_duplicate _ _ _ (Except.error.inj h)
    · split at h
      · simp at h
      · split at h
        · exact Refusal.checkCause_ne_duplicate _ _ _ (Except.error.inj h)
        · simp at h
  · simp at h

end Frame

namespace Engine

def usageOf? (e : Engine ρ) (stack : Stack ρ) (s : Statement) : Option (Usage ρ) :=
  match s.terminator, stack.top.dispatch with
  | .closeBrace, _ => none
  | _, .strategy .. => none
  | _, .directives =>
    (e.lookUp stack.top s.name).toOption.map fun (m, d) => ⟨stack.position, m, d⟩

/-- The directive that the next step executes. -/
def usage? (e : Engine ρ) (state : State ρ) : Option (Usage ρ) :=
  match (e.step state).2 with
  | .next (some s) _ => e.usageOf? state.stack s
  | _ => none

/-- The directives that a run executes, in order. -/
def usages (e : Engine ρ) (state : State ρ) : List (Usage ρ) :=
  (e.trail state).filterMap e.usage?

variable {e : Engine ρ} {source : Source} {stack next : Stack ρ} {s : Statement} {log : Log}
  {opened : List Source} {f g : Frame ρ} {outer : List (Frame ρ)} {m : Registry.Entry ρ}
  {d : Directive ρ} {done : List (Usage ρ)} {u : Usage ρ}

theorem usageOf?_of_closeBrace (hs : s.terminator = .closeBrace) : e.usageOf? stack s = none := by
  unfold usageOf?
  rw [hs]

theorem usageOf?_of_strategy {handle : Strategy ρ} {owner : Nat}
    (hd : stack.top.dispatch = .strategy handle owner) : e.usageOf? stack s = none := by
  unfold usageOf?
  rw [hd]
  cases s.terminator <;> rfl

theorem usageOf?_of_accept (hs : s.terminator ≠ .closeBrace) (hd : f.dispatch = .directives)
    (haccept : e.accept f s = .ok (m, d, g)) :
    e.usageOf? ⟨f, outer⟩ s = some ⟨Frame.path outer, m, d⟩ := by
  unfold usageOf?
  rw [hd, (accept_eq_ok.mp haccept).1]
  cases ht : s.terminator <;> simp_all [Except.toOption, Stack.position]

theorem usageOf?_eq_some (h : e.usageOf? stack s = some u) :
    stack.top.dispatch = .directives ∧ u.position = stack.position := by
  unfold usageOf? at h
  split at h
  · simp at h
  · simp at h
  · next hd _ =>
    obtain ⟨found, -, rfl⟩ := Option.map_eq_some_iff.mp h
    exact ⟨hd, rfl⟩

theorem usage?_eq_some {state : State ρ} (h : e.usage? state = some u) :
    state.stack.top.dispatch = .directives ∧ u.position = state.stack.position := by
  unfold usage? at h
  split at h
  · exact usageOf?_eq_some h
  · simp at h

structure Knows (e : Engine ρ) (done : List (Usage ρ)) (outer : List (Frame ρ)) (f : Frame ρ) :
    Prop where
  resolved : ∀ u ∈ done, u.position = Frame.path outer →
    e.lookUp f u.directive.name = .ok (u.module, u.directive)
  remembered : ∀ u ∈ done, u.position = Frame.path outer → u.directive.shape.has .once = true →
    u.directive.name ∈ f.used
  executed : ∀ name ∈ f.used, ∃ u ∈ done, u.position = Frame.path outer ∧
    u.directive.name = name ∧ u.directive.shape.has .once = true

inductive Tracks (e : Engine ρ) (done : List (Usage ρ)) : List (Frame ρ) → Prop
  | nil : Tracks e done []
  | cons {f : Frame ρ} {outer : List (Frame ρ)} (first : e.Knows done outer f)
    (rest : e.Tracks done outer) : Tracks e done (f :: outer)

namespace Knows

theorem of_header (h : e.Knows done outer f) (hheader : g.header = f.header)
    (hused : g.used = f.used) : e.Knows done outer g where
  resolved u hu hposition := by rw [lookUp_of_header hheader, h.resolved u hu hposition]
  remembered := hused ▸ h.remembered
  executed := hused ▸ h.executed

theorem elsewhere (h : e.Knows done outer f) (hu : u.position ≠ Frame.path outer) :
    e.Knows (done ++ [u]) outer f where
  resolved v hv hposition := by
    rcases List.mem_append.mp hv with hv | hv
    · exact h.resolved v hv hposition
    · exact absurd (List.mem_singleton.mp hv ▸ hposition) hu
  remembered v hv hposition := by
    rcases List.mem_append.mp hv with hv | hv
    · exact h.remembered v hv hposition
    · exact absurd (List.mem_singleton.mp hv ▸ hposition) hu
  executed name hname := by
    obtain ⟨v, hv, hposition⟩ := h.executed name hname
    exact ⟨v, List.mem_append_left _ hv, hposition⟩

theorem accepted (h : e.Knows done outer f) (haccept : e.accept f s = .ok (m, d, g)) :
    e.Knows (done ++ [⟨Frame.path outer, m, d⟩]) outer g := by
  have hlookUp := (accept_eq_ok.mp haccept).1
  have hsame := lookUp_of_header (e := e) (header_of_accept haccept)
  obtain rfl := eq_remember_of_accept haccept
  refine ⟨?_, ?_, ?_⟩
  · intro u hu hposition
    rw [hsame]
    rcases List.mem_append.mp hu with hu | hu
    · exact h.resolved u hu hposition
    · obtain rfl := List.mem_singleton.mp hu
      rwa [(mem_of_lookUp hlookUp).2]
  · intro u hu hposition honce
    rw [Frame.used_remember]
    rcases List.mem_append.mp hu with hu | hu
    · have hused := h.remembered u hu hposition honce
      split
      · exact List.mem_cons_of_mem _ hused
      · exact hused
    · obtain rfl := List.mem_singleton.mp hu
      rw [if_pos honce]
      exact List.mem_cons_self
  · intro name hused
    rw [Frame.used_remember] at hused
    have hearlier : name ∈ f.used → ∃ u ∈ done ++ [⟨Frame.path outer, m, d⟩],
        u.position = Frame.path outer ∧ u.directive.name = name ∧
          u.directive.shape.has .once = true := by
      intro hmem
      obtain ⟨u, hu, hexecuted⟩ := h.executed name hmem
      exact ⟨u, List.mem_append_left _ hu, hexecuted⟩
    split at hused
    · next honce =>
      rcases List.mem_cons.mp hused with rfl | hmem
      · exact ⟨_, List.mem_append_right _ (List.mem_singleton_self _), rfl, rfl, honce⟩
      · exact hearlier hmem
    · exact hearlier hused

theorem apart (h : e.Knows done outer f) (haccept : e.accept f s = .ok (m, d, g)) (hu : u ∈ done) :
    u.Apart ⟨Frame.path outer, m, d⟩ := by
  intro hposition hname
  obtain ⟨hlookUp, hadmit⟩ := accept_eq_ok.mp haccept
  have hresolved := h.resolved u hu hposition.symm
  rw [← hname, (mem_of_lookUp hlookUp).2, hlookUp] at hresolved
  obtain ⟨rfl, rfl⟩ := Prod.mk.inj (Except.ok.inj hresolved)
  refine ⟨rfl, rfl, Bool.eq_false_iff.mpr fun honce => ?_⟩
  exact Frame.notMem_used_of_admitUse hadmit honce (h.remembered u hu hposition.symm honce)

end Knows

namespace Tracks

theorem elsewhere {fs : List (Frame ρ)} (h : e.Tracks done fs)
    (hu : fs.length ≤ u.position.length) : e.Tracks (done ++ [u]) fs := by
  induction h with
  | nil => exact .nil
  | @cons f outer first rest ih =>
    rw [List.length_cons] at hu
    refine .cons (first.elsewhere fun hposition => ?_) (ih (Nat.le_of_succ_le hu))
    rw [hposition, Frame.length_path] at hu
    exact absurd hu (Nat.not_succ_le_self _)

theorem keep (h : e.Tracks done (f :: outer)) (hheader : g.header = f.header)
    (hused : g.used = f.used) : e.Tracks done (g :: outer) := by
  cases h with
  | cons first rest => exact .cons (first.of_header hheader hused) rest

theorem accepted (h : e.Tracks done (f :: outer)) (haccept : e.accept f s = .ok (m, d, g)) :
    e.Tracks (done ++ [⟨Frame.path outer, m, d⟩]) (g :: outer) := by
  cases h with
  | cons first rest =>
    exact .cons (first.accepted haccept) (rest.elsewhere (Frame.length_path outer).ge)

theorem enter {fs : List (Frame ρ)} (h : e.Tracks done fs)
    (hpast : ∀ u ∈ done, u.position < Frame.path fs) (hused : f.used = []) :
    e.Tracks done (f :: fs) := by
  refine .cons ⟨?_, ?_, ?_⟩ h
  · intro u hu hposition
    exact absurd hposition (hpast u hu).ne
  · intro u hu hposition
    exact absurd hposition (hpast u hu).ne
  · simp [hused]

theorem leave (h : e.Tracks done (f :: g :: outer)) (children : List (Context ρ)) :
    e.Tracks done ({ g with children := children } :: outer) := by
  cases h with
  | cons first rest => exact rest.keep rfl rfl

theorem apart (h : e.Tracks done (f :: outer)) (haccept : e.accept f s = .ok (m, d, g))
    (hu : u ∈ done) : u.Apart ⟨Frame.path outer, m, d⟩ := by
  cases h with
  | cons first rest => exact first.apart haccept hu

end Tracks

theorem Handles.accepted (h : Handles e source stack s log next opened)
    (hu : e.usageOf? stack s = some u) :
    ∃ m d g, e.accept stack.top s = .ok (m, d, g) ∧ u = ⟨stack.position, m, d⟩ := by
  cases h with
  | closed hs =>
    rw [usageOf?_of_closeBrace hs] at hu
    simp at hu
  | handedOver _ hd =>
    rw [usageOf?_of_strategy hd] at hu
    simp at hu
  | included hs hd haccept =>
    rw [usageOf?_of_accept hs hd haccept] at hu
    exact ⟨_, _, _, haccept, (Option.some.inj hu).symm⟩
  | obeyed hs hd haccept =>
    rw [usageOf?_of_accept hs hd haccept] at hu
    exact ⟨_, _, _, haccept, (Option.some.inj hu).symm⟩
  | opened hs hd haccept =>
    rw [usageOf?_of_accept hs hd haccept] at hu
    exact ⟨_, _, _, haccept, (Option.some.inj hu).symm⟩

theorem Handles.tracks (h : Handles e source stack s log next opened)
    (hbelow : ∀ f ∈ stack.below, f.dispatch = .directives)
    (hpast : ∀ u ∈ done, u.position < Frame.path stack.contexts)
    (hstack : e.Tracks done stack.contexts) :
    e.Tracks (done ++ (e.usageOf? stack s).toList) next.contexts := by
  cases h with
  | @closed top outer below _ hs =>
    have houter := hbelow outer List.mem_cons_self
    rw [usageOf?_of_closeBrace hs, Option.toList_none, List.append_nil]
    cases htop : top.dispatch with
    | strategy handle owner =>
      simp only [Stack.contexts, htop] at hstack
      simpa only [Stack.contexts, Frame.absorb, htop, houter] using hstack
    | directives =>
      have hnext : Stack.contexts ⟨outer.absorb top, below⟩ =
          { outer with children := outer.children ++ [top.close] } :: below := by
        simp only [Stack.contexts, Frame.absorb, htop, houter]
      simp only [Stack.contexts, htop] at hstack
      rw [hnext]
      exact hstack.leave _
  | @handedOver top outer changed below _ handle owner _ hd hchange =>
    have hupdated := Frame.updated_of_change hchange
    rw [usageOf?_of_strategy hd, Option.toList_none, List.append_nil]
    simp only [Stack.contexts, hd] at hstack ⊢
    exact hstack.keep hupdated.header hupdated.used
  | included hs hd haccept =>
    have hkept := (Frame.dispatch_of_header (header_of_accept haccept)).trans hd
    rw [usageOf?_of_accept hs hd haccept]
    simp only [Stack.contexts, hd] at hstack
    simp only [Stack.contexts, hkept]
    exact hstack.accepted haccept
  | obeyed hs hd haccept _ hobey =>
    have hupdated := Frame.updated_of_obey hobey
    have hkept := (Frame.dispatch_of_header (header_of_obey haccept hobey)).trans hd
    rw [usageOf?_of_accept hs hd haccept]
    simp only [Stack.contexts, hd] at hstack
    simp only [Stack.contexts, hkept]
    exact (hstack.accepted haccept).keep hupdated.header hupdated.used
  | @opened top f g below _ m d spec hs hd haccept _ hobey =>
    have hupdated := Frame.updated_of_obey hobey
    have hpath := Frame.path_of_children (children_of_obey haccept hobey) below
    rw [usageOf?_of_accept hs hd haccept]
    simp only [Stack.contexts, hd] at hstack hpast
    have houter := (hstack.accepted haccept).keep hupdated.header hupdated.used
    obtain ⟨context, tag, strategy⟩ := spec
    cases strategy with
    | some handle =>
      simp only [Stack.contexts, Frame.ofBlock]
      exact houter
    | none =>
      simp only [Stack.contexts, Frame.ofBlock]
      refine houter.enter (fun u hu => ?_) rfl
      rw [hpath]
      rcases List.mem_append.mp hu with hu | hu
      · exact hpast u hu
      · obtain rfl := List.mem_singleton.mp hu
        rw [Frame.path_cons]
        exact Shift.lt_append _ _

structure Tracked (e : Engine ρ) (done : List (Usage ρ)) (state : State ρ) : Prop where
  below : ∀ f ∈ state.stack.below, f.dispatch = .directives
  past : ∀ u ∈ done, u.position < Frame.path state.stack.contexts
  contexts : e.Tracks done state.stack.contexts
  apart : done.Pairwise Usage.Apart

namespace Tracked

variable {state after : State ρ} {s? : Option Statement}

theorem step (h : e.Tracked done state) (hstep : e.step state = (log, .next s? after)) :
    e.Tracked (done ++ (e.usage? state).toList) after := by
  obtain ⟨hbelow, hshift⟩ := below_step h.below hstep
  cases s? with
  | none =>
    have hnone : e.usage? state = none := by simp [usage?, hstep]
    obtain ⟨source, rest, cursor, -, -, -, rfl⟩ := eq_of_step_ended hstep
    rw [hnone, Option.toList_none, List.append_nil]
    exact ⟨h.below, h.past, h.contexts, h.apart⟩
  | some s =>
    have husage : e.usage? state = e.usageOf? state.stack s := by simp [usage?, hstep]
    obtain ⟨source, rest, cursor, opened, -, -, hhandle, -⟩ := eq_of_step_statement hstep
    have hhandles := handles_of_handle hhandle
    rw [husage]
    refine ⟨hbelow, fun u hu => ?_, hhandles.tracks h.below h.past h.contexts, ?_⟩
    · rcases List.mem_append.mp hu with hu | hu
      · exact hshift.lt (h.past u hu)
      · obtain ⟨hd, hposition⟩ := usageOf?_eq_some (Option.mem_toList.mp hu)
        exact hshift.lt (hposition ▸ Stack.position_lt hd)
    · refine List.pairwise_append.mpr ⟨h.apart, ?_, fun u hu v hv => ?_⟩
      · cases e.usageOf? state.stack s <;> simp
      · have hv := Option.mem_toList.mp hv
        obtain ⟨hd, -⟩ := usageOf?_eq_some hv
        obtain ⟨m, d, g, haccept, rfl⟩ := hhandles.accepted hv
        have hcontexts := h.contexts
        rw [Stack.contexts_of_directives hd] at hcontexts
        exact hcontexts.apart haccept hu

theorem of_trail {start : State ρ} {earlier later : List (State ρ)}
    (hstart : e.Tracked [] start) (h : e.trail start = earlier ++ state :: later) :
    e.Tracked (earlier.filterMap e.usage?) state := by
  refine trail_induction (P := fun earlier state => e.Tracked (earlier.filterMap e.usage?) state)
    hstart (fun earlier state next log s? hstate hstep => ?_) h
  have hnext := hstate.step hstep
  rw [List.filterMap_append]
  cases hu : e.usage? state <;> simpa [hu] using hnext

theorem opening (e : Engine ρ) (first : Source) : e.Tracked [] (e.opening first) where
  below := by simp [Engine.opening]
  past := by simp
  contexts := .cons ⟨by simp, by simp, by simp [Engine.opening, Frame.root]⟩ .nil
  apart := .nil

end Tracked

theorem usages_apart (e : Engine ρ) (first : Source) :
    (e.usages (e.opening first)).Pairwise Usage.Apart := by
  obtain ⟨earlier, last, htrail, hlast⟩ : ∃ earlier last,
      e.trail (e.opening first) = earlier ++ [last] ∧ e.usage? last = none := by
    cases hresult : (e.drain (e.opening first)).2 with
    | ok stack =>
      obtain ⟨earlier, htrail⟩ := exists_done hresult
      exact ⟨earlier, _, htrail, rfl⟩
    | error f =>
      obtain ⟨earlier, last, log, htrail, hfailed⟩ := exists_failed hresult
      exact ⟨earlier, last, htrail, by simp [usage?, hfailed]⟩
  have hapart := (Tracked.of_trail (.opening e first) htrail).apart
  rw [usages, htrail, List.filterMap_append]
  simpa [hlast] using hapart

theorem handOver_ne_duplicate (handle : Strategy ρ) (owner : Nat) (stack : Stack ρ) (s : Statement)
    (name : String) : handOver handle owner stack s ≠ .error (.duplicateDirective name) := by
  intro h
  unfold handOver at h
  split at h
  · simp at h
  · split at h
    · exact Refusal.cause_ne_duplicate _ _ _ (Except.error.inj h)
    · split at h
      · exact Refusal.cause_ne_duplicate _ _ _ (Except.error.inj h)
      · simp at h

theorem lookUp_ne_duplicate (e : Engine ρ) (f : Frame ρ) (word name : String) :
    e.lookUp f word ≠ .error (.duplicateDirective name) := by
  intro h
  simp only [lookUp] at h
  repeat' split at h
  all_goals simp at h

/-- What is refused as a duplicate was used before, unless it is the files that say so. -/
theorem used_of_refuses {g : Failure} (h : e.Refuses source stack s g)
    (hcause : g.cause = .duplicateDirective name) :
    (e.includesAt stack s = true ∧ e.Withholds source s g) ∨
      (g = .of (.duplicateDirective name) ∧ s.name = name ∧ stack.top.dispatch = .directives ∧
        ∃ m d, e.lookUp stack.top s.name = .ok (m, d) ∧ d.name ∈ stack.top.used) := by
  cases h with
  | unbalanced => simp [Failure.of] at hcause
  | handedOver _ _ hover =>
    obtain rfl := hcause
    exact absurd hover (handOver_ne_duplicate _ _ _ _ _)
  | unresolved _ _ hlookUp =>
    obtain rfl := hcause
    exact absurd hlookUp (e.lookUp_ne_duplicate _ _ _)
  | misused _ hd hlookUp huse =>
    obtain rfl := hcause
    obtain ⟨hname, hused⟩ := Frame.used_of_admitUse huse
    exact .inr ⟨rfl, hname, hd, _, _, hlookUp, hused⟩
  | nested => simp [Failure.of] at hcause
  | unread hincludes hfiles => exact .inl ⟨hincludes, hfiles⟩
  | disobeyed _ _ _ hobey =>
    obtain rfl := hcause
    exact absurd hobey (Frame.obey_ne_duplicate _ _ _ _ _)
  | tooDeep => simp [Failure.of] at hcause

def Repeats (e : Engine ρ) (earlier : List (State ρ)) (stack : Stack ρ) (s : Statement) : Prop :=
  stack.top.dispatch = .directives ∧ ∃ before first between u,
    earlier = before ++ first :: between ∧ e.usage? first = some u ∧
      u.position = stack.position ∧ e.lookUp stack.top s.name = .ok (u.module, u.directive) ∧
      u.directive.shape.has .once = true ∧ ∀ state ∈ between, state.stack.IsOpen u.position

theorem repeats_of_used {source : Source} {last : State ρ} {earlier later : List (State ρ)}
    (htrail : e.trail (e.opening source) = earlier ++ last :: later)
    (hd : last.stack.top.dispatch = .directives)
    (hlookUp : e.lookUp last.stack.top s.name = .ok (m, d))
    (hused : d.name ∈ last.stack.top.used) : e.Repeats earlier last.stack s := by
  have hstart : e.Tracked [] (e.opening source) := .opening e source
  have hcontexts := (hstart.of_trail htrail).contexts
  rw [Stack.contexts_of_directives hd] at hcontexts
  cases hcontexts with
  | cons hknows _ =>
    obtain ⟨u, hu, hposition, hname, honce⟩ := hknows.executed _ hused
    have hresolved := hknows.resolved u hu hposition
    rw [hname, (mem_of_lookUp hlookUp).2] at hresolved
    obtain ⟨first, hfirst, husage⟩ := List.mem_filterMap.mp hu
    obtain ⟨before, between, rfl⟩ := List.append_of_mem hfirst
    obtain ⟨hfirstDirectives, hat⟩ := usage?_eq_some husage
    refine ⟨hd, before, first, between, u, rfl, husage, hposition, hresolved, honce, ?_⟩
    intro state hstate
    rw [List.append_assoc, List.cons_append] at htrail
    rw [hat]
    exact isOpen_between hstart.below htrail hfirstDirectives hd (hposition.symm.trans hat) hstate

/-- The run from `start` ends at a statement that repeats another one and is called a duplicate. If
it is an include, it may also be the files that answer so. -/
def EndsInDuplicate (e : Engine ρ) (start : State ρ) (name : String) (f : Failure) : Prop :=
  ∃ earlier last source rest s after, e.trail start = earlier ++ [last] ∧
    last.sources = source :: rest ∧ source.cursor.next = (.ok (some s), after) ∧
      ((e.includesAt last.stack s = true ∧ ∃ g, e.Withholds source s g ∧ f = g.orAt s.location) ∨
        (e.Repeats earlier last.stack s ∧ s.name = name ∧
          f = .located (.duplicateDirective name) s.location))

theorem endsInDuplicate_of_drain {first : Source} {f : Failure}
    (h : (e.drain (e.opening first)).2 = .error f) (hcause : f.cause = .duplicateDirective name) :
    e.EndsInDuplicate (e.opening first) name f := by
  obtain ⟨earlier, last, log, htrail, hfailed⟩ := exists_failed h
  obtain ⟨source, rest, hsources, hreading | ⟨s, after, g, hnext, hrefuses, rfl⟩⟩ :=
    refuses_of_step hfailed
  · rw [hcause] at hreading
    exact absurd hreading Bool.false_ne_true
  · refine ⟨earlier, last, source, rest, s, after, htrail, hsources, hnext, ?_⟩
    rcases used_of_refuses hrefuses hcause with ⟨hincludes, hfiles⟩ |
      ⟨rfl, hname, hd, m, d, hlookUp, hused⟩
    · exact .inl ⟨hincludes, g, hfiles, rfl⟩
    · exact .inr ⟨repeats_of_used htrail hd hlookUp hused, hname, rfl⟩

/-- How directives are used in the contexts of a run from `start`. A context is known by its
position: while it is open it keeps that, it is closed there, and no other one ever has it. -/
structure OncePerContext (e : Engine ρ) (start : State ρ) : Prop where
  steady : ∀ earlier state later log s? after position, e.trail start = earlier ++ state :: later →
    e.step state = (log, .next s? after) → state.stack.IsOpen position →
      position.length < after.stack.contexts.length → after.stack.IsOpen position
  closed : ∀ state log s after, e.step state = (log, .next (some s) after) →
    s.terminator = .closeBrace → state.stack.top.dispatch = .directives →
      after.stack.closedAt? state.stack.position = some state.stack.top.close
  alone : ∀ before one between other later,
    e.trail start = before ++ one :: (between ++ other :: later) →
      one.stack.top.dispatch = .directives → other.stack.top.dispatch = .directives →
        other.stack.position = one.stack.position →
          ∀ state ∈ between, state.stack.IsOpen one.stack.position
  apart : (e.usages start).Pairwise Usage.Apart
  duplicate : ∀ f name, (e.drain start).2 = .error f → f.cause = .duplicateDirective name →
    e.EndsInDuplicate start name f

/-- In every run, a directive that may be used once is executed once at most in each context, and
only its second use in the same, still open context is called a duplicate. -/
theorem once_per_context (e : Engine ρ) (first : Source) :
    e.OncePerContext (e.opening first) := by
  have hstart := Tracked.opening e first
  refine ⟨?_, fun _ _ _ _ => closedAt?_step, ?_, e.usages_apart first,
    fun _ _ => endsInDuplicate_of_drain⟩
  · intro earlier state later log s? after position htrail hstep hopen hlength
    exact isOpen_step (hstart.of_trail htrail).below hstep hopen hlength
  · intro before one between other later htrail hone hother hsame state hstate
    exact isOpen_between hstart.below htrail hone hother hsame hstate

/-- The second use may stand in another file. -/
theorem once_per_context_included :
    let e := Server.engineOver [("a.conf", "http { }\npid b;")]
    let start := e.opening (.outermost (Server.cursorOf "pid a;\ninclude a.conf;") none)
    let f := Failure.located (.duplicateDirective "pid") ⟨"a.conf", 2⟩
    (e.drain start).2 = .error f ∧ e.EndsInDuplicate start "pid" f := by
  intro e start f
  have hfails : e.failsWithin 10 start f = true := by decide +kernel
  have hdrain := drain_of_failsWithin hfails
  exact ⟨hdrain, (once_per_context e _).duplicate f "pid" hdrain rfl⟩

end Engine

end ScopedConf
