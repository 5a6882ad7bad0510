import Mathlib.Data.List.Lex
import ScopedConf.Proofs.Isolation
import ScopedConf.Proofs.Mirroring

/-! Positions of open contexts. A context stands behind those that were closed before it in the
context around it, and the numbers of these lead to it. In the course of a run positions grow, so
that none of them is given twice. -/

namespace ScopedConf

variable {ρ : Type}

/-- How many contexts were closed in each of the frames, which are listed innermost first. -/
def Frame.path (fs : List (Frame ρ)) : List Nat :=
  (fs.map fun f => f.children.length).reverse

namespace Stack

def position (stack : Stack ρ) : List Nat :=
  Frame.path stack.below

def IsOpen (stack : Stack ρ) (position : List Nat) : Prop :=
  ∃ inner f outer, stack.contexts = inner ++ f :: outer ∧ Frame.path outer = position

end Stack

namespace Frame

theorem path_cons (f : Frame ρ) (fs : List (Frame ρ)) :
    path (f :: fs) = path fs ++ [f.children.length] := by
  simp [path]

theorem path_append (inner outer : List (Frame ρ)) :
    path (inner ++ outer) = path outer ++ path inner := by
  simp [path]

theorem length_path (fs : List (Frame ρ)) : (path fs).length = fs.length := by
  simp [path]

theorem path_of_children {f g : Frame ρ} (h : g.children = f.children) (fs : List (Frame ρ)) :
    path (g :: fs) = path (f :: fs) := by
  rw [path_cons, path_cons, h]

theorem closedAt?_path (fs inner : List (Frame ρ)) (position : List Nat) :
    closedAt? (fs.reverse ++ inner) (path fs ++ position) = closedAt? inner position := by
  induction fs generalizing inner position with
  | nil => rfl
  | cons f fs ih =>
    rw [path_cons, List.reverse_cons, List.append_assoc, List.append_assoc, ih]
    exact if_pos rfl

end Frame

inductive Shift : List Nat → List Nat → Prop
  | keep (counts : List Nat) : Shift counts counts
  | enter (counts : List Nat) : Shift counts (counts ++ [0])
  | leave (counts : List Nat) (n k : Nat) : Shift (counts ++ [n] ++ [k]) (counts ++ [n + 1])

namespace Shift

variable {position counts next : List Nat}

theorem lt_append (counts : List Nat) (n : Nat) : counts < counts ++ [n] := by
  have hlt : counts ++ [] < counts ++ [n] := List.append_left_lt (List.nil_lt_cons n [])
  rwa [List.append_nil] at hlt

theorem lt (h : Shift counts next) (hposition : position < counts) : position < next := by
  cases h with
  | keep => exact hposition
  | enter => exact hposition.trans (lt_append counts 0)
  | leave counts n k =>
    refine hposition.trans ?_
    rw [List.append_assoc]
    exact List.append_left_lt (List.cons_lt_cons_iff.mpr (.inl (Nat.lt_succ_self n)))

theorem take_eq (h : Shift counts next) {depth : Nat} (hcounts : depth < counts.length)
    (hnext : depth < next.length) : next.take depth = counts.take depth := by
  cases h with
  | keep => rfl
  | enter => exact List.take_append_of_le_length hcounts.le
  | leave counts n k =>
    have hle : depth ≤ counts.length := by
      rw [List.length_append, List.length_singleton] at hnext
      exact Nat.lt_succ_iff.mp hnext
    rw [List.append_assoc, List.take_append_of_le_length hle, List.take_append_of_le_length hle]

theorem not_prefix (h : Shift counts next) (hposition : position < counts)
    (hbegins : ¬position <+: counts) : ¬position <+: next := by
  have hlater := h.lt hposition
  cases h with
  | keep => exact hbegins
  | enter =>
    intro hnext
    rcases List.prefix_concat_iff.mp hnext with rfl | hcounts
    · exact lt_irrefl _ hlater
    · exact hbegins hcounts
  | leave counts n k =>
    intro hnext
    rcases List.prefix_concat_iff.mp hnext with rfl | hcounts
    · exact lt_irrefl _ hlater
    · exact hbegins (hcounts.trans (by rw [List.append_assoc]; exact List.prefix_append _ _))

end Shift

namespace Stack

theorem contexts_of_directives {stack : Stack ρ} (h : stack.top.dispatch = .directives) :
    stack.contexts = stack.top :: stack.below := by
  simp only [contexts, h]

theorem path_contexts {stack : Stack ρ} (h : stack.top.dispatch = .directives) :
    Frame.path stack.contexts = stack.position ++ [stack.top.children.length] := by
  rw [contexts_of_directives h, Frame.path_cons]
  rfl

theorem position_lt {stack : Stack ρ} (h : stack.top.dispatch = .directives) :
    stack.position < Frame.path stack.contexts := by
  rw [path_contexts h]
  exact Shift.lt_append _ _

theorem position_prefix {stack : Stack ρ} (h : stack.top.dispatch = .directives) :
    stack.position <+: Frame.path stack.contexts := by
  rw [path_contexts h]
  exact List.prefix_append _ _

theorem isOpen_iff {stack : Stack ρ} {position : List Nat} :
    stack.IsOpen position ↔
      position <+: Frame.path stack.contexts ∧ position ≠ Frame.path stack.contexts := by
  constructor
  · rintro ⟨inner, f, outer, hcontexts, rfl⟩
    rw [hcontexts, Frame.path_append, Frame.path_cons, List.append_assoc]
    refine ⟨List.prefix_append _ _, fun heq => ?_⟩
    simpa using congrArg List.length heq
  · rintro ⟨hbegins, hne⟩
    have hlength := hbegins.length_le
    have hshort : position.length < stack.contexts.length := by
      rw [← Frame.length_path]
      exact Nat.lt_of_le_of_ne hlength fun h => hne (hbegins.eq_of_length h)
    obtain ⟨more, hmore⟩ := hbegins
    refine ⟨stack.contexts.take (stack.contexts.length - position.length - 1),
      stack.contexts[stack.contexts.length - position.length - 1],
      stack.contexts.drop (stack.contexts.length - position.length), ?_, ?_⟩
    · have hindex : stack.contexts.length - position.length - 1 < stack.contexts.length := by omega
      have hdrop := List.drop_eq_getElem_cons hindex
      rw [show stack.contexts.length - position.length - 1 + 1 =
        stack.contexts.length - position.length by omega] at hdrop
      rw [← hdrop, List.take_append_drop]
    · have hsplit := congrArg Frame.path
        (List.take_append_drop (stack.contexts.length - position.length) stack.contexts)
      rw [Frame.path_append, ← hmore] at hsplit
      refine (List.append_inj hsplit ?_).1
      rw [Frame.length_path, List.length_drop]
      omega

end Stack

namespace Engine

variable {e : Engine ρ} {source : Source} {stack next : Stack ρ} {s : Statement} {log : Log}
  {opened : List Source}

theorem Handles.shifts (h : Handles e source stack s log next opened)
    (hbelow : ∀ f ∈ stack.below, f.dispatch = .directives) :
    Shift (Frame.path stack.contexts) (Frame.path next.contexts) := by
  cases h with
  | @closed top outer below =>
    have houter := hbelow outer List.mem_cons_self
    cases htop : top.dispatch with
    | strategy handle owner =>
      simp only [Stack.contexts, Frame.absorb, htop, houter]
      exact .keep _
    | directives =>
      simp only [Stack.contexts, Frame.absorb, htop, houter, Frame.path_cons, List.length_append,
        List.length_singleton]
      exact .leave _ _ _
  | @handedOver top outer changed below _ handle owner _ hd hchange =>
    simp only [Stack.contexts, hd,
      Frame.path_of_children (Frame.updated_of_change hchange).children]
    exact .keep _
  | included _ hd haccept =>
    have hkept := (Frame.dispatch_of_header (header_of_accept haccept)).trans hd
    simp only [Stack.contexts, hd, hkept, Frame.path_of_children (records_of_accept haccept).2]
    exact .keep _
  | obeyed _ hd haccept _ hobey =>
    have hkept := (Frame.dispatch_of_header (header_of_obey haccept hobey)).trans hd
    simp only [Stack.contexts, hd, hkept, Frame.path_of_children (children_of_obey haccept hobey)]
    exact .keep _
  | @opened top f g below _ m d spec _ hd haccept _ hobey =>
    have hchildren := Frame.path_of_children (children_of_obey haccept hobey) below
    obtain ⟨context, tag, strategy⟩ := spec
    cases strategy with
    | some handle =>
      simp only [Stack.contexts, Frame.ofBlock, hd, hchildren]
      exact .keep _
    | none =>
      simp only [Stack.contexts, Frame.ofBlock, hd, Frame.path_cons _ (g :: below), hchildren]
      exact .enter _

theorem below_step {state after : State ρ} {s? : Option Statement}
    (hbelow : ∀ f ∈ state.stack.below, f.dispatch = .directives)
    (hstep : e.step state = (log, .next s? after)) :
    (∀ f ∈ after.stack.below, f.dispatch = .directives) ∧
      Shift (Frame.path state.stack.contexts) (Frame.path after.stack.contexts) := by
  cases s? with
  | none =>
    obtain ⟨source, rest, cursor, -, -, -, rfl⟩ := eq_of_step_ended hstep
    exact ⟨hbelow, .keep _⟩
  | some s =>
    obtain ⟨source, rest, cursor, opened, -, -, hhandle, -⟩ := eq_of_step_statement hstep
    have hhandles := handles_of_handle hhandle
    exact ⟨hhandles.strategies hbelow, hhandles.shifts hbelow⟩

theorem isOpen_step {state after : State ρ} {s? : Option Statement} {position : List Nat}
    (hbelow : ∀ f ∈ state.stack.below, f.dispatch = .directives)
    (hstep : e.step state = (log, .next s? after)) (hopen : state.stack.IsOpen position)
    (hafter : position.length < after.stack.contexts.length) : after.stack.IsOpen position := by
  obtain ⟨-, hshift⟩ := below_step hbelow hstep
  obtain ⟨hbegins, hne⟩ := Stack.isOpen_iff.mp hopen
  rw [← Frame.length_path] at hafter
  have hlength : position.length < (Frame.path state.stack.contexts).length :=
    Nat.lt_of_le_of_ne hbegins.length_le fun h => hne (hbegins.eq_of_length h)
  have htake := hshift.take_eq hlength hafter
  rw [← List.prefix_iff_eq_take.mp hbegins] at htake
  refine Stack.isOpen_iff.mpr ⟨List.prefix_iff_eq_take.mpr htake.symm, ?_⟩
  rintro rfl
  exact lt_irrefl _ hafter

/-- A context stands at its position when it is closed. -/
theorem closedAt?_step {state after : State ρ} {s : Statement}
    (hstep : e.step state = (log, .next (some s) after)) (hs : s.terminator = .closeBrace)
    (hd : state.stack.top.dispatch = .directives) :
    after.stack.closedAt? state.stack.position = some state.stack.top.close := by
  obtain ⟨source, rest, cursor, opened, -, -, hhandle, -⟩ := eq_of_step_statement hstep
  generalize state.stack = stack at hd hhandle ⊢
  generalize after.stack = next at hhandle ⊢
  cases handles_of_handle hhandle with
  | @closed top outer below =>
    have habsorb : outer.absorb top = { outer with children := outer.children ++ [top.close] } := by
      rw [Frame.absorb, show top.dispatch = .directives from hd]
    have hlast : Frame.closedAt? [outer.absorb top] [outer.children.length] = some top.close :=
      Frame.closedAt?_last (by rw [habsorb])
    rw [Stack.closedAt?, Stack.position, Frame.path_cons, List.reverse_cons, Frame.closedAt?_path]
    exact hlast
  | handedOver ht => simp [ht] at hs
  | included ht => exact absurd hs ht
  | obeyed ht => exact absurd hs ht
  | opened ht => exact absurd hs ht

theorem below_of_trail {start last : State ρ} {earlier later : List (State ρ)}
    (hbelow : ∀ f ∈ start.stack.below, f.dispatch = .directives)
    (h : e.trail start = earlier ++ last :: later) :
    ∀ f ∈ last.stack.below, f.dispatch = .directives :=
  trail_induction (P := fun _ state => ∀ f ∈ state.stack.below, f.dispatch = .directives) hbelow
    (fun _ _ _ _ _ hstate hstep => (below_step hstate hstep).1) h

/-- What was passed by stays behind: a position in front of the counts stays there, and if it leads
to no open context, it never will again. -/
theorem passed_of_trail {start last : State ρ} {earlier later : List (State ρ)}
    {position : List Nat} (hbelow : ∀ f ∈ start.stack.below, f.dispatch = .directives)
    (hposition : position < Frame.path start.stack.contexts)
    (h : e.trail start = earlier ++ last :: later) :
    position < Frame.path last.stack.contexts ∧
      (¬position <+: Frame.path start.stack.contexts →
        ¬position <+: Frame.path last.stack.contexts) := by
  have hlast := trail_induction (P := fun _ state =>
    (∀ f ∈ state.stack.below, f.dispatch = .directives) ∧
      position < Frame.path state.stack.contexts ∧
        (¬position <+: Frame.path start.stack.contexts →
          ¬position <+: Frame.path state.stack.contexts)) ⟨hbelow, hposition, id⟩ ?_ h
  · exact hlast.2
  · rintro earlier state after log s? ⟨hstate, hlt, hgone⟩ hstep
    obtain ⟨hafter, hshift⟩ := below_step hstate hstep
    exact ⟨hafter, hshift.lt hlt, fun hstart => hshift.not_prefix hlt (hgone hstart)⟩

theorem isOpen_between {start first last : State ρ} {before between later : List (State ρ)}
    (hbelow : ∀ f ∈ start.stack.below, f.dispatch = .directives)
    (h : e.trail start = before ++ first :: (between ++ last :: later))
    (hfirst : first.stack.top.dispatch = .directives)
    (hlast : last.stack.top.dispatch = .directives)
    (hsame : last.stack.position = first.stack.position) {state : State ρ}
    (hstate : state ∈ between) : state.stack.IsOpen first.stack.position := by
  have hbelowFirst := below_of_trail hbelow h
  obtain ⟨hfrom, -⟩ := trail_from h
  obtain ⟨front, back, rfl⟩ := List.append_of_mem hstate
  have hmid : e.trail first = (first :: front) ++ state :: (back ++ last :: later) := by
    rw [hfrom]
    simp
  obtain ⟨hlt, -⟩ := passed_of_trail hbelowFirst (Stack.position_lt hfirst) hmid
  rw [Stack.isOpen_iff]
  refine ⟨?_, hlt.ne⟩
  by_contra hclosed
  obtain ⟨hstateTrail, -⟩ := trail_from hmid
  have hback : e.trail state = (state :: back) ++ last :: later := hstateTrail
  obtain ⟨-, hgone⟩ := passed_of_trail (below_of_trail hbelowFirst hmid) hlt hback
  exact hgone hclosed (hsame ▸ Stack.position_prefix hlast)

end Engine

end ScopedConf
