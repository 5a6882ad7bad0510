import ScopedConf.Proofs.Discipline
import ScopedConf.Proofs.Ending
import ScopedConf.Proofs.Inheritance

/-! Contexts are isolated from each other. A statement changes one record of the context that it
belongs to, and nothing in the contexts that are open around it or that were closed before it. -/

namespace ScopedConf

variable {ρ : Type}

/-- At most the record of the module `index` is another one. Whose the records are stays as it
was. -/
def Held.ChangedAt (index : Nat) : List (Held ρ) → List (Held ρ) → Prop :=
  List.Forall₂ fun h h' =>
    h'.module = h.module ∧ h'.name = h.name ∧ (h.module.index ≠ index → h' = h)

structure Frame.ChangedAt (index : Nat) (f g : Frame ρ) : Prop where
  rest : g = { f with records := g.records, used := g.used }
  records : Held.ChangedAt index f.records g.records

/-- The closed context at a position, counted from the outermost of the frames. An open context
stands behind the closed ones of the context that it was opened in. -/
def Frame.closedAt? : List (Frame ρ) → List Nat → Option (Context ρ)
  | _, [] => none
  | [], _ :: _ => none
  | f :: inner, i :: position =>
    if i = f.children.length then closedAt? inner position
    else f.children[i]?.bind (Context.at? position)

def Stack.closedAt? (stack : Stack ρ) (position : List Nat) : Option (Context ρ) :=
  Frame.closedAt? (stack.top :: stack.below).reverse position

theorem Held.changedAt_refl (index : Nat) (held : List (Held ρ)) : ChangedAt index held held :=
  List.forall₂_same.mpr fun _ _ => ⟨rfl, rfl, fun _ => rfl⟩

theorem Held.changedAt_of_change {β : Type} {index : Nat} {change : ρ → Except Refusal (β × ρ)}
    {held changed : List (Held ρ)} {b : β} (h : Held.change index change held = .ok (b, changed)) :
    ChangedAt index held changed := by
  induction held generalizing changed with
  | nil => simp [Held.change] at h
  | cons first held ih =>
    unfold Held.change at h
    split at h
    · next hindex =>
      obtain ⟨⟨c, r⟩, -, heq⟩ := map_eq_ok.mp h
      obtain ⟨-, rfl⟩ := Prod.mk.inj heq
      exact .cons ⟨rfl, rfl, fun hne => absurd hindex hne⟩ (changedAt_refl index held)
    · obtain ⟨⟨c, later⟩, hlater, heq⟩ := map_eq_ok.mp h
      obtain ⟨rfl, rfl⟩ := Prod.mk.inj heq
      exact .cons ⟨rfl, rfl, fun _ => rfl⟩ (ih hlater)

namespace Frame

theorem changedAt_of_change {β : Type} {f g : Frame ρ} {index : Nat}
    {change : ρ → Except Refusal (β × ρ)} {b : β} (h : f.change index change = .ok (b, g)) :
    f.ChangedAt index g := by
  obtain ⟨⟨c, changed⟩, hchange, heq⟩ := map_eq_ok.mp h
  obtain ⟨-, rfl⟩ := Prod.mk.inj heq
  exact ⟨rfl, Held.changedAt_of_change hchange⟩

theorem change_of_obey {f g : Frame ρ} {index : Nat} {d : Directive ρ} {s : Statement}
    (h : f.obey index d s = .ok g) :
    g = f ∧ (∀ set, d.handler ≠ .slot set) ∨ ∃ set value, d.handler = .slot set ∧
      f.change index (set ⟨s.name, s.values, s.location, d.tag⟩) = .ok (value, g) := by
  unfold obey at h
  split at h
  · next set hset =>
    unfold store at h
    split at h
    · simp at h
    · next value f' hchange =>
      split at h
      · obtain rfl := Except.ok.inj h
        exact .inr ⟨set, value, hset, hchange⟩
      · split at h
        · simp at h
        · obtain rfl := Except.ok.inj h
          exact .inr ⟨set, value, hset, hchange⟩
  · next hslot => exact .inl ⟨(Except.ok.inj h).symm, hslot⟩

theorem changedAt_of_obey {f used g : Frame ρ} {index : Nat} {d : Directive ρ} {s : Statement}
    (huse : f.admitUse d s = .ok used) (hobey : used.obey index d s = .ok g) :
    f.ChangedAt index g ∧ ((∀ set, d.handler ≠ .slot set) → g.records = f.records) := by
  have hused : used = { f with used := used.used } := by
    rw [eq_of_admitUse huse]
    split <;> rfl
  rcases change_of_obey hobey with ⟨rfl, -⟩ | ⟨set, value, hset, hchange⟩
  · rw [hused]
    exact ⟨⟨rfl, Held.changedAt_refl index f.records⟩, fun _ => rfl⟩
  · have hchanged := changedAt_of_change hchange
    rw [hused] at hchanged
    exact ⟨⟨hchanged.rest, hchanged.records⟩, fun hslot => absurd hset (hslot set)⟩

theorem changedAt_of_lend {f g : Frame ρ} {handle : Strategy ρ} {owner : Nat}
    {s : Statement} (h : f.lend handle owner s = .ok g) : f.ChangedAt owner g := by
  unfold lend at h
  split at h
  · simp at h
  · next changed hchange =>
    rw [← Except.ok.inj h]
    exact changedAt_of_change hchange

theorem ChangedAt.children {index : Nat} {f g : Frame ρ} (h : f.ChangedAt index g) :
    g.children = f.children := by
  rw [h.rest]

theorem closedAt?_of_children {f g : Frame ρ} (h : g.children = f.children)
    (inner : List (Frame ρ)) : closedAt? (g :: inner) = closedAt? (f :: inner) := by
  funext position
  cases position with
  | nil => rfl
  | cons i position => simp only [closedAt?, h]

theorem closedAt?_append {inner inner' : List (Frame ρ)} (outer : List (Frame ρ))
    (h : ∀ position c, closedAt? inner position = some c → closedAt? inner' position = some c)
    {position : List Nat} {c : Context ρ} (hc : closedAt? (outer ++ inner) position = some c) :
    closedAt? (outer ++ inner') position = some c := by
  induction outer generalizing position with
  | nil => exact h position c hc
  | cons f outer ih =>
    cases position with
    | nil => simp [closedAt?] at hc
    | cons i position =>
      rw [List.cons_append, closedAt?] at hc ⊢
      split at hc
      · next hi => rw [if_pos hi, ih hc]
      · next hi => rw [if_neg hi, hc]

theorem closedAt?_push {f g inner : Frame ρ} (h : g.children = f.children) {position : List Nat}
    {c : Context ρ} (hc : closedAt? [f] position = some c) :
    closedAt? [g, inner] position = some c := by
  cases position with
  | nil => simp [closedAt?] at hc
  | cons i position =>
    rw [closedAt?] at hc ⊢
    rw [h]
    split at hc
    · cases position <;> simp [closedAt?] at hc
    · next hi => rw [if_neg hi, hc]

theorem closedAt?_close {outer top : Frame ρ} {position : List Nat} {c : Context ρ}
    (hc : closedAt? [outer, top] position = some c) :
    closedAt? [{ outer with children := outer.children ++ [top.close] }] position = some c := by
  cases position with
  | nil => simp [closedAt?] at hc
  | cons i position =>
    rw [closedAt?] at hc ⊢
    split at hc
    · next hi =>
      subst hi
      cases position with
      | nil => simp [closedAt?] at hc
      | cons j position =>
        rw [closedAt?] at hc
        split at hc
        · cases position <;> simp [closedAt?] at hc
        · simpa [Context.at?_cons, close, Context.children] using hc
    · obtain ⟨child, hchild, hat⟩ := Option.bind_eq_some_iff.mp hc
      have hi := (List.getElem?_eq_some_iff.mp hchild).1
      rw [if_neg (by simp; omega), List.getElem?_append_left hi, hchild]
      exact hat

theorem closedAt?_leave {outer top : Frame ρ} (htop : top.children = []) {position : List Nat}
    {c : Context ρ} (hc : closedAt? [outer, top] position = some c) :
    closedAt? [outer] position = some c := by
  cases position with
  | nil => simp [closedAt?] at hc
  | cons i position =>
    rw [closedAt?] at hc ⊢
    split at hc
    · cases position with
      | nil => simp [closedAt?] at hc
      | cons j position =>
        rw [closedAt?, htop] at hc
        split at hc
        · cases position <;> simp [closedAt?] at hc
        · simp at hc
    · next hi => rw [if_neg hi, hc]

theorem closedAt?_last {f g : Frame ρ} {c : Context ρ} (h : g.children = f.children ++ [c]) :
    closedAt? [g] [f.children.length] = some c := by
  rw [closedAt?, h, if_neg (by simp), List.getElem?_concat_length]
  rfl

end Frame

namespace Engine

variable {e : Engine ρ}

def OpenedIn (e : Engine ρ) (outer : Frame ρ) (owner : Nat) (f : Frame ρ) : Prop :=
  ∃ m d spec opening, e.lookUp outer opening.name = .ok (m, d) ∧ m.id.index = owner ∧
    d.block = some spec ∧ f = Frame.ofBlock e.registry owner spec opening

/-- What a statement may do to the open contexts, one constructor for each kind of statement. All
contexts that it leaves alone are the same before and after. -/
inductive Affects (e : Engine ρ) : Stack ρ → Statement → Stack ρ → Prop
  | directive {top top' : Frame ρ} {below : List (Frame ρ)} {s : Statement}
    {m : Registry.Entry ρ} {d : Directive ρ} (hs : s.terminator = .semicolon)
    (hd : top.dispatch = .directives) (lookUp : e.lookUp top s.name = .ok (m, d))
    (changed : top.ChangedAt m.id.index top')
    (kept : (∀ set, d.handler ≠ .slot set) → top'.records = top.records) :
    Affects e ⟨top, below⟩ s ⟨top', below⟩
  | opening {top top' : Frame ρ} {below : List (Frame ρ)} {s : Statement}
    {m : Registry.Entry ρ} {d : Directive ρ} {spec : BlockSpec ρ}
    (hs : s.terminator = .openBrace) (hd : top.dispatch = .directives)
    (lookUp : e.lookUp top s.name = .ok (m, d)) (block : d.block = some spec)
    (changed : top.ChangedAt m.id.index top')
    (kept : (∀ set, d.handler ≠ .slot set) → top'.records = top.records) :
    Affects e ⟨top, below⟩ s ⟨Frame.ofBlock e.registry m.id.index spec s, top' :: below⟩
  | lending {top outer outer' : Frame ρ} {below : List (Frame ρ)} {s : Statement}
    {handle : Strategy ρ} {owner : Nat} (hs : s.terminator = .semicolon)
    (hd : top.dispatch = .strategy handle owner) (opened : e.OpenedIn outer owner top)
    (changed : outer.ChangedAt owner outer') (used : outer'.used = outer.used) :
    Affects e ⟨top, outer :: below⟩ s ⟨top, outer' :: below⟩
  | closing {top outer : Frame ρ} {below : List (Frame ρ)} {s : Statement}
    (hs : s.terminator = .closeBrace) (hd : top.dispatch = .directives) :
    Affects e ⟨top, outer :: below⟩ s
      ⟨{ outer with children := outer.children ++ [top.close] }, below⟩
  | leaving {top outer : Frame ρ} {below : List (Frame ρ)} {s : Statement}
    {handle : Strategy ρ} {owner : Nat} (hs : s.terminator = .closeBrace)
    (hd : top.dispatch = .strategy handle owner) :
    Affects e ⟨top, outer :: below⟩ s ⟨outer, below⟩

/-- A strategy works on the context that its block was opened in. -/
def Borrows (e : Engine ρ) (stack : Stack ρ) : Prop :=
  ∀ handle owner, stack.top.dispatch = .strategy handle owner →
    ∃ outer below, stack.below = outer :: below ∧ e.OpenedIn outer owner stack.top

theorem lookUp_of_header {f g : Frame ρ} (h : g.header = f.header) : e.lookUp g = e.lookUp f := by
  simp only [Frame.header, Prod.mk.injEq] at h
  funext name
  simp only [lookUp, h.1, h.2.1]

theorem OpenedIn.of_header {outer outer' f : Frame ρ} {owner : Nat} (h : e.OpenedIn outer owner f)
    (hheader : outer'.header = outer.header) : e.OpenedIn outer' owner f := by
  obtain ⟨m, d, spec, opening, hlookUp, howner, hblock, hf⟩ := h
  exact ⟨m, d, spec, opening, by rw [lookUp_of_header hheader, hlookUp], howner, hblock, hf⟩

theorem OpenedIn.children {outer f : Frame ρ} {owner : Nat} (h : e.OpenedIn outer owner f) :
    f.children = [] := by
  obtain ⟨m, d, spec, opening, -, -, -, rfl⟩ := h
  rfl

namespace Handles

variable {source : Source} {stack next : Stack ρ} {s : Statement} {log : Log}
  {opened : List Source}

theorem borrows (h : Handles e source stack s log next opened)
    (hdirectives : ∀ f ∈ stack.below, f.dispatch = .directives) (hstack : e.Borrows stack) :
    e.Borrows next := by
  intro handle owner hnext
  cases h with
  | @closed top outer below =>
    have houter := hdirectives outer List.mem_cons_self
    have habsorb : (outer.absorb top).dispatch = outer.dispatch := by
      unfold Frame.absorb
      split <;> rfl
    simp [habsorb, houter] at hnext
  | handedOver _ hd hchange =>
    obtain ⟨outer, below, hbelow, hopened⟩ := hstack handle owner hnext
    obtain ⟨rfl, rfl⟩ := List.cons.inj hbelow
    exact ⟨_, _, rfl, hopened.of_header (Frame.updated_of_change hchange).header⟩
  | included _ hd haccept =>
    have hkept := Frame.dispatch_of_header (header_of_accept haccept)
    simp [hkept, hd] at hnext
  | obeyed _ hd haccept _ hobey =>
    have hkept := Frame.dispatch_of_header (header_of_obey haccept hobey)
    simp [hkept, hd] at hnext
  | @opened _ _ g below _ m d spec _ hd haccept _ hobey hblock =>
    have hlookUp := (accept_eq_ok.mp haccept).1
    rw [← lookUp_of_header (header_of_obey haccept hobey)] at hlookUp
    have howner : m.id.index = owner := by
      simp only [Frame.ofBlock] at hnext
      split at hnext
      · exact (Dispatch.strategy.inj hnext).2
      · simp at hnext
    exact ⟨g, below, rfl, m, d, spec, s, hlookUp, howner, hblock, by rw [howner]⟩

theorem affects (hr : e.registry.Finalized) (h : Handles e source stack s log next opened)
    (hstack : e.Borrows stack) : e.Affects stack s next := by
  cases h with
  | @closed top outer below _ hs =>
    cases hd : top.dispatch with
    | directives =>
      rw [Frame.absorb, hd]
      exact .closing hs hd
    | strategy handle owner =>
      rw [Frame.absorb, hd]
      exact .leaving hs hd
  | @handedOver top outer changed below _ handle owner hs hd hchange =>
    obtain ⟨outer', below', hbelow, hopened⟩ := hstack handle owner hd
    obtain ⟨rfl, rfl⟩ := List.cons.inj hbelow
    have hchanged := Frame.changedAt_of_change hchange
    have hupdated := Frame.updated_of_change hchange
    exact .lending hs hd hopened hchanged hupdated.used
  | included hs hd haccept hh =>
    obtain ⟨hlookUp, huse⟩ := accept_eq_ok.mp haccept
    obtain ⟨hopen, rfl⟩ := include_of_accept hr haccept hh
    have hsemi : s.terminator = .semicolon := by
      cases ht : s.terminator <;> simp_all
    exact .directive hsemi hd hlookUp ⟨rfl, Held.changedAt_refl _ _⟩ fun _ => rfl
  | obeyed hs hd haccept hh hobey hblock =>
    obtain ⟨hlookUp, huse⟩ := accept_eq_ok.mp haccept
    have hopen := openBrace_iff_of_accept hr haccept
    have hsemi : s.terminator = .semicolon := by
      rw [hblock] at hopen
      cases ht : s.terminator <;> simp_all
    obtain ⟨hchanged, hkept⟩ := Frame.changedAt_of_obey huse hobey
    exact .directive hsemi hd hlookUp hchanged hkept
  | opened hs hd haccept hh hobey hblock =>
    obtain ⟨hlookUp, huse⟩ := accept_eq_ok.mp haccept
    have hopen : s.terminator = .openBrace := by
      simp [openBrace_iff_of_accept hr haccept, hblock]
    obtain ⟨hchanged, hkept⟩ := Frame.changedAt_of_obey huse hobey
    exact .opening hopen hd hlookUp hblock hchanged hkept

end Handles

theorem Affects.closedAt? {stack next : Stack ρ} {s : Statement} (h : e.Affects stack s next)
    (hstack : e.Borrows stack) {position : List Nat} {c : Context ρ}
    (hc : stack.closedAt? position = some c) : next.closedAt? position = some c := by
  unfold Stack.closedAt? at hc ⊢
  -- Positions count from the outermost frame, and only the frames at the other end change.
  cases h with
  | directive hs hd lookUp changed kept =>
    rw [List.reverse_cons] at hc ⊢
    refine Frame.closedAt?_append _ (fun position c hc => ?_) hc
    rw [Frame.closedAt?_of_children changed.children, hc]
  | opening hs hd lookUp block changed kept =>
    rw [List.reverse_cons] at hc
    rw [List.reverse_cons, List.reverse_cons, List.append_assoc]
    refine Frame.closedAt?_append _ (fun position c hc => ?_) hc
    exact Frame.closedAt?_push changed.children hc
  | lending hs hd opened changed used =>
    rw [List.reverse_cons, List.reverse_cons, List.append_assoc] at hc ⊢
    refine Frame.closedAt?_append _ (fun position c hc => ?_) hc
    exact (congrFun (Frame.closedAt?_of_children changed.children _) position).trans hc
  | closing hs hd =>
    rw [List.reverse_cons, List.reverse_cons, List.append_assoc] at hc
    rw [List.reverse_cons]
    exact Frame.closedAt?_append _ (fun position c => Frame.closedAt?_close) hc
  | leaving hs hd =>
    obtain ⟨outer, below, hbelow, hopened⟩ := hstack _ _ hd
    rw [List.reverse_cons, List.reverse_cons, List.append_assoc] at hc
    rw [List.reverse_cons]
    exact Frame.closedAt?_append _ (fun position c => Frame.closedAt?_leave hopened.children) hc

structure Separated (e : Engine ρ) (o : Observed ρ) : Prop where
  balanced : e.Balanced o
  borrows : e.Borrows o.state.stack

namespace Separated

variable {o o' : Observed ρ} {log : Log} {s : Statement} {next : State ρ}

theorem affects (hr : e.registry.Finalized) (h : e.Separated o)
    (hstep : e.step o.state = (log, .next (some s) next)) :
    e.Affects o.state.stack s next.stack ∧ e.Borrows next.stack := by
  obtain ⟨source, rest, cursor, opened, hsources, hnext, hhandle, hsources'⟩ :=
    eq_of_step_statement hstep
  have hhandles := handles_of_handle hhandle
  exact ⟨hhandles.affects hr h.borrows, hhandles.borrows h.balanced.strategies h.borrows⟩

theorem stack_of_ended (hstep : e.step o.state = (log, .next none next)) :
    next.stack = o.state.stack := by
  obtain ⟨source, rest, cursor, hsources, hnext, hdepth, rfl⟩ := eq_of_step_ended hstep
  rfl

theorem move (hr : e.registry.Finalized) (h : e.Separated o) (hmove : e.Moves o o') :
    e.Separated o' ∧ ∀ position c, o.state.stack.closedAt? position = some c →
      o'.state.stack.closedAt? position = some c := by
  have hbalanced := h.balanced.move hr hmove
  cases hmove with
  | statement hstep =>
    obtain ⟨haffects, hborrows⟩ := h.affects hr hstep
    exact ⟨⟨hbalanced, hborrows⟩, fun position c => haffects.closedAt? h.borrows⟩
  | ended hstep =>
    have hstack : (o.ending _).state.stack = o.state.stack := stack_of_ended hstep
    exact ⟨⟨hbalanced, hstack ▸ h.borrows⟩, fun position c hc => hstack ▸ hc⟩

theorem of_reaches (hr : e.registry.Finalized) (h : e.Separated o) (hreaches : e.Reaches o o') :
    e.Separated o' ∧ ∀ position c, o.state.stack.closedAt? position = some c →
      o'.state.stack.closedAt? position = some c := by
  induction hreaches with
  | refl => exact ⟨h, fun position c hc => hc⟩
  | tail _ hmove ih =>
    obtain ⟨hseparated, hkept⟩ := ih
    obtain ⟨hseparated', hkept'⟩ := hseparated.move hr hmove
    exact ⟨hseparated', fun position c hc => hkept' position c (hkept position c hc)⟩

end Separated

end Engine

end ScopedConf
