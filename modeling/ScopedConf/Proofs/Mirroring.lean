import ScopedConf.Proofs.Discipline
import ScopedConf.Proofs.Trails

/-! The tree of a run mirrors what was executed: it has one context for every block of directives
that was opened, nested as the blocks were, and a walk meets them in the order of their opening. -/

namespace ScopedConf

variable {ρ : Type}

abbrev Heading := List String × Option Location

inductive Outline
  | node (heading : Heading) (inside : List Outline)

def Context.heading (c : Context ρ) : Heading :=
  (c.label, c.location)

def Frame.heading (f : Frame ρ) : Heading :=
  (f.label, f.location)

def Statement.heading (s : Statement) : Heading :=
  (s.words, some s.location)

namespace Outline

mutual

def headings : Outline → List Heading
  | node heading inside => heading :: headingsAll inside

def headingsAll : List Outline → List Heading
  | [] => []
  | o :: os => headings o ++ headingsAll os

end

theorem headingsAll_append (os later : List Outline) :
    headingsAll (os ++ later) = headingsAll os ++ headingsAll later := by
  induction os with
  | nil => rfl
  | cons o os ih => simp only [List.cons_append, headingsAll, ih, List.append_assoc]

end Outline

namespace Context

mutual

/-- A context, and behind it those in each of its children, one child after the other. -/
def preorder : Context ρ → List (Context ρ)
  | node kind label location records children =>
    node kind label location records children :: preorderAll children

def preorderAll : List (Context ρ) → List (Context ρ)
  | [] => []
  | c :: cs => preorder c ++ preorderAll cs

end

mutual

def outline : Context ρ → Outline
  | node _ label location _ children => .node (label, location) (outlineAll children)

def outlineAll : List (Context ρ) → List Outline
  | [] => []
  | c :: cs => outline c :: outlineAll cs

end

theorem preorderAll_append (cs ds : List (Context ρ)) :
    preorderAll (cs ++ ds) = preorderAll cs ++ preorderAll ds := by
  induction cs with
  | nil => rfl
  | cons c cs ih => simp only [List.cons_append, preorderAll, ih, List.append_assoc]

theorem outlineAll_append (cs ds : List (Context ρ)) :
    outlineAll (cs ++ ds) = outlineAll cs ++ outlineAll ds := by
  induction cs with
  | nil => rfl
  | cons c cs ih => simp only [List.cons_append, outlineAll, ih]

theorem visit_eq_preorderAll (cs : List (Context ρ)) : visit cs = preorderAll cs := by
  fun_induction visit cs with
  | case1 => rfl
  | case2 c rest ih =>
    rw [ih, preorderAll_append]
    cases c
    rfl

theorem walk_eq_preorder (c : Context ρ) : c.walk = c.preorder := by
  rw [walk, visit_eq_preorderAll, preorderAll, preorderAll, List.append_nil]

mutual

theorem map_heading_preorder (c : Context ρ) : c.preorder.map heading = c.outline.headings := by
  cases c with
  | node kind label location records children =>
    rw [preorder, outline, Outline.headings, List.map_cons, map_heading_preorderAll children]
    rfl

theorem map_heading_preorderAll (cs : List (Context ρ)) :
    (preorderAll cs).map heading = Outline.headingsAll (outlineAll cs) := by
  cases cs with
  | nil => rfl
  | cons c cs =>
    rw [preorderAll, outlineAll, Outline.headingsAll, List.map_append, map_heading_preorder c,
      map_heading_preorderAll cs]

end

mutual

theorem outline_completeIn [Record ρ] (scope : Scope ρ) (c : Context ρ) :
    (completeIn scope c).outline = c.outline := by
  cases c with
  | node kind label location records children =>
    simp only [completeIn, outline]
    rw [outlineAll_completeAll _ children]

theorem outlineAll_completeAll [Record ρ] (scope : Scope ρ) (cs : List (Context ρ)) :
    outlineAll (completeAll scope cs) = outlineAll cs := by
  cases cs with
  | nil => rfl
  | cons c cs =>
    rw [completeAll, outlineAll, outlineAll, outline_completeIn scope c,
      outlineAll_completeAll scope cs]

end

end Context

/-- What a statement does to the open contexts. A block with a strategy has no context. -/
inductive Effect
  | opens
  | closes
  | keeps

/-- Executed statements in their nesting: one that opens no context, or a context with everything
that was executed in it. -/
inductive Executed
  | plain (s : Statement)
  | block (opening : Statement) (inside : List Executed) (closing : Statement)

namespace Executed

mutual

def flatten : Executed → List (Statement × Effect)
  | plain s => [(s, .keeps)]
  | block opening inside closing => (opening, .opens) :: flattenAll inside ++ [(closing, .closes)]

def flattenAll : List Executed → List (Statement × Effect)
  | [] => []
  | x :: xs => flatten x ++ flattenAll xs

end

mutual

def outlines : Executed → List Outline
  | plain _ => []
  | block opening inside _ => [.node opening.heading (outlinesAll inside)]

def outlinesAll : List Executed → List Outline
  | [] => []
  | x :: xs => outlines x ++ outlinesAll xs

end

theorem flattenAll_append (xs later : List Executed) :
    flattenAll (xs ++ later) = flattenAll xs ++ flattenAll later := by
  induction xs with
  | nil => rfl
  | cons x xs ih => simp only [List.cons_append, flattenAll, ih, List.append_assoc]

theorem outlinesAll_append (xs later : List Executed) :
    outlinesAll (xs ++ later) = outlinesAll xs ++ outlinesAll later := by
  induction xs with
  | nil => rfl
  | cons x xs ih => simp only [List.cons_append, outlinesAll, ih, List.append_assoc]

def opened? : Statement × Effect → Option Heading
  | (s, .opens) => some s.heading
  | _ => none

mutual

theorem headings_outlines (x : Executed) :
    Outline.headingsAll x.outlines = x.flatten.filterMap opened? := by
  cases x with
  | plain s => rfl
  | block opening inside closing =>
    have hinside := headings_outlinesAll inside
    simp [outlines, flatten, Outline.headingsAll, Outline.headings, hinside, opened?]

theorem headings_outlinesAll (xs : List Executed) :
    Outline.headingsAll (outlinesAll xs) = (flattenAll xs).filterMap opened? := by
  cases xs with
  | nil => rfl
  | cons x xs =>
    rw [outlinesAll, flattenAll, Outline.headingsAll_append, List.filterMap_append,
      headings_outlines x, headings_outlinesAll xs]

end

theorem eq_of_flattenAll {xs ys : List Executed} {rest later : List (Statement × Effect)}
    (hrest : ∀ x ∈ rest.head?, x.2 = .closes) (hlater : ∀ x ∈ later.head?, x.2 = .closes)
    (h : flattenAll xs ++ rest = flattenAll ys ++ later) : xs = ys ∧ rest = later := by
  match xs, ys with
  | [], [] => exact ⟨rfl, h⟩
  | [], .plain s :: ys => simp_all [flattenAll, flatten]
  | [], .block opening inside closing :: ys => simp_all [flattenAll, flatten]
  | .plain s :: xs, [] =>
    simp only [flattenAll, flatten, List.nil_append] at h
    simp [← h] at hlater
  | .block opening inside closing :: xs, [] =>
    simp only [flattenAll, flatten, List.nil_append] at h
    simp [← h] at hlater
  | .plain s :: xs, .block opening inside closing :: ys => simp [flattenAll, flatten] at h
  | .block opening inside closing :: xs, .plain s :: ys => simp [flattenAll, flatten] at h
  | .plain s :: xs, .plain t :: ys =>
    simp only [flattenAll, flatten, List.cons_append, List.nil_append, List.cons.injEq,
      Prod.mk.injEq, and_true] at h
    obtain ⟨rfl, h⟩ := h
    obtain ⟨rfl, rfl⟩ := eq_of_flattenAll hrest hlater h
    exact ⟨rfl, rfl⟩
  | .block opening inside closing :: xs, .block opening' inside' closing' :: ys =>
    simp only [flattenAll, flatten, List.cons_append, List.append_assoc, List.nil_append,
      List.cons.injEq, Prod.mk.injEq, and_true] at h
    obtain ⟨rfl, h⟩ := h
    obtain ⟨rfl, hbehind⟩ := eq_of_flattenAll (by simp) (by simp) h
    simp only [List.cons.injEq, Prod.mk.injEq, and_true] at hbehind
    obtain ⟨rfl, hbehind⟩ := hbehind
    obtain ⟨rfl, rfl⟩ := eq_of_flattenAll hrest hlater hbehind
    exact ⟨rfl, rfl⟩

theorem flattenAll_injective {xs ys : List Executed} (h : flattenAll xs = flattenAll ys) :
    xs = ys := by
  have hnone : ∀ x ∈ ([] : List (Statement × Effect)).head?, x.2 = .closes := by simp
  exact (eq_of_flattenAll hnone hnone (congrArg (· ++ []) h)).1

end Executed

def Stack.contexts (stack : Stack ρ) : List (Frame ρ) :=
  match stack.top.dispatch with
  | .directives => stack.top :: stack.below
  | .strategy .. => stack.below

theorem Frame.heading_of_header {f g : Frame ρ} (h : g.header = f.header) :
    g.heading = f.heading := by
  simp only [Frame.header, Prod.mk.injEq] at h
  simp only [Frame.heading, h.2.2.2.1, h.2.2.2.2.1]

/-- What was executed lies in the open contexts: in each of them some of it is complete, and then
the next one was opened. -/
inductive Gathers : List (Statement × Effect) → List (Frame ρ) → Prop
  | outermost {f : Frame ρ} (xs : List Executed) (hheading : f.heading = ([], none))
    (hinside : Context.outlineAll f.children = Executed.outlinesAll xs) :
    Gathers (Executed.flattenAll xs) [f]
  | inner {f outer : Frame ρ} {below : List (Frame ρ)} {done : List (Statement × Effect)}
    {opening : Statement} (xs : List Executed) (around : Gathers done (outer :: below))
    (hheading : f.heading = opening.heading)
    (hinside : Context.outlineAll f.children = Executed.outlinesAll xs) :
    Gathers (done ++ (opening, .opens) :: Executed.flattenAll xs) (f :: outer :: below)

theorem Gathers.add {f g : Frame ρ} {below : List (Frame ρ)} {done : List (Statement × Effect)}
    (h : Gathers done (f :: below)) (hheading : g.heading = f.heading) (xs : List Executed)
    (hinside : Context.outlineAll g.children =
      Context.outlineAll f.children ++ Executed.outlinesAll xs) :
    Gathers (done ++ Executed.flattenAll xs) (g :: below) := by
  cases h with
  | @outermost _ ys hf hdone =>
    rw [← Executed.flattenAll_append]
    refine .outermost _ (hheading.trans hf) ?_
    rw [hinside, hdone, Executed.outlinesAll_append]
  | @inner _ _ _ done opening ys around hf hdone =>
    rw [List.append_assoc, List.cons_append, ← Executed.flattenAll_append]
    refine .inner _ around (hheading.trans hf) ?_
    rw [hinside, hdone, Executed.outlinesAll_append]

theorem Gathers.keep {f g : Frame ρ} {below : List (Frame ρ)} {done : List (Statement × Effect)}
    (h : Gathers done (f :: below)) (hheader : g.header = f.header)
    (hchildren : g.children = f.children) (s : Statement) :
    Gathers (done ++ [(s, .keeps)]) (g :: below) := by
  refine h.add (Frame.heading_of_header hheader) [.plain s] ?_
  rw [hchildren]
  simp [Executed.outlinesAll, Executed.outlines]

namespace Engine

def blockOf? (e : Engine ρ) (f : Frame ρ) (s : Statement) : Option (BlockSpec ρ) :=
  match e.lookUp f s.name with
  | .error _ => none
  | .ok (_, d) =>
    match d.handler with
    | .includeFiles => none
    | _ => d.block

def effect (e : Engine ρ) (stack : Stack ρ) (s : Statement) : Effect :=
  match stack.top.dispatch with
  | .strategy .. => .keeps
  | .directives =>
    match s.terminator, e.blockOf? stack.top s with
    | .closeBrace, _ => .closes
    | _, some ⟨_, _, none⟩ => .opens
    | _, _ => .keeps

def execution? (e : Engine ρ) (state : State ρ) : Option (Statement × Effect) :=
  match (e.step state).2 with
  | .next (some s) _ => some (s, e.effect state.stack s)
  | _ => none

/-- The statements that a run executes, in order. -/
def executed (e : Engine ρ) (state : State ρ) : List (Statement × Effect) :=
  (e.trail state).filterMap e.execution?

variable {e : Engine ρ} {source : Source} {stack next : Stack ρ} {s : Statement} {log : Log}
  {opened : List Source} {done : List (Statement × Effect)}

theorem blockOf?_of_accept {f g : Frame ρ} {m : Registry.Entry ρ} {d : Directive ρ}
    (haccept : e.accept f s = .ok (m, d, g)) (hh : d.handler ≠ .includeFiles) :
    e.blockOf? f s = d.block := by
  unfold blockOf?
  rw [(accept_eq_ok.mp haccept).1]
  cases hhandler : d.handler with
  | includeFiles => exact absurd hhandler hh
  | _ => simp [hhandler]

theorem blockOf?_of_include {f g : Frame ρ} {m : Registry.Entry ρ} {d : Directive ρ}
    (haccept : e.accept f s = .ok (m, d, g)) (hh : d.handler = .includeFiles) :
    e.blockOf? f s = none := by
  unfold blockOf?
  rw [(accept_eq_ok.mp haccept).1]
  simp [hh]

theorem effect_of_none {top : Frame ρ} {below : List (Frame ρ)} (hs : s.terminator ≠ .closeBrace)
    (hblock : e.blockOf? top s = none) : e.effect ⟨top, below⟩ s = .keeps := by
  unfold effect
  cases top.dispatch with
  | strategy => rfl
  | directives => cases ht : s.terminator <;> simp_all

theorem Handles.gathers (h : Handles e source stack s log next opened)
    (hbelow : ∀ f ∈ stack.below, f.dispatch = .directives) (hstack : Gathers done stack.contexts) :
    Gathers (done ++ [(s, e.effect stack s)]) next.contexts := by
  cases h with
  | @closed top outer below _ hs =>
    have houter := hbelow outer List.mem_cons_self
    cases htop : top.dispatch with
    | strategy handle owner =>
      have heffect : e.effect ⟨top, outer :: below⟩ s = .keeps := by simp [effect, htop]
      simp only [Stack.contexts, htop] at hstack
      simp only [Stack.contexts, Frame.absorb, htop, houter, heffect]
      exact hstack.keep rfl rfl s
    | directives =>
      have heffect : e.effect ⟨top, outer :: below⟩ s = .closes := by simp [effect, htop, hs]
      have hnext : Stack.contexts ⟨outer.absorb top, below⟩ =
          { outer with children := outer.children ++ [top.close] } :: below := by
        simp only [Stack.contexts, Frame.absorb, htop, houter]
      simp only [Stack.contexts, htop] at hstack
      rw [hnext, heffect]
      cases hstack with
      | @inner _ _ _ done opening xs around hheading hinside =>
        have hclosed := around.add (g := { outer with children := outer.children ++ [top.close] })
          rfl [.block opening xs s] ?_
        · simpa [Executed.flattenAll, Executed.flatten] using hclosed
        · rw [Context.outlineAll_append]
          simp [Context.outlineAll, Context.outline, Frame.close, Executed.outlinesAll,
            Executed.outlines, ← hinside, ← hheading, Frame.heading]
  | @handedOver top outer changed below _ handle owner hs hd hchange =>
    have hupdated := Frame.updated_of_change hchange
    have heffect : e.effect ⟨top, outer :: below⟩ s = .keeps := by simp [effect, hd]
    simp only [Stack.contexts, hd] at hstack
    simp only [Stack.contexts, hd, heffect]
    exact hstack.keep hupdated.header hupdated.children s
  | @included top f below _ _ _ m d hs hd haccept hh =>
    have heffect : e.effect ⟨top, below⟩ s = .keeps :=
      effect_of_none hs (blockOf?_of_include haccept hh)
    have hkept := (Frame.dispatch_of_header (header_of_accept haccept)).trans hd
    simp only [Stack.contexts, hd] at hstack
    simp only [Stack.contexts, hkept, heffect]
    exact hstack.keep (header_of_accept haccept) (records_of_accept haccept).2 s
  | @obeyed top f g below _ m d hs hd haccept hh hobey hblock =>
    have heffect : e.effect ⟨top, below⟩ s = .keeps :=
      effect_of_none hs ((blockOf?_of_accept haccept hh).trans hblock)
    have hheader := header_of_obey haccept hobey
    have hkept := (Frame.dispatch_of_header hheader).trans hd
    simp only [Stack.contexts, hd] at hstack
    simp only [Stack.contexts, hkept, heffect]
    exact hstack.keep hheader (children_of_obey haccept hobey) s
  | @opened top f g below _ m d spec hs hd haccept hh hobey hblock =>
    have hheader := header_of_obey haccept hobey
    have hchildren := children_of_obey haccept hobey
    have hspec := (blockOf?_of_accept haccept hh).trans hblock
    obtain ⟨context, tag, strategy⟩ := spec
    simp only [Stack.contexts, hd] at hstack
    cases strategy with
    | some handle =>
      have heffect : e.effect ⟨top, below⟩ s = .keeps := by
        cases ht : s.terminator <;> simp_all [effect]
      simp only [Stack.contexts, Frame.ofBlock, heffect]
      exact hstack.keep hheader hchildren s
    | none =>
      have heffect : e.effect ⟨top, below⟩ s = .opens := by
        cases ht : s.terminator <;> simp_all [effect]
      simp only [Stack.contexts, Frame.ofBlock, heffect]
      have haround := hstack.add (Frame.heading_of_header hheader) []
        (by rw [hchildren]; simp [Executed.outlinesAll])
      rw [Executed.flattenAll, List.append_nil] at haround
      exact .inner [] haround rfl rfl

structure Kept (e : Engine ρ) (earlier : List (State ρ)) (state : State ρ) : Prop where
  below : ∀ f ∈ state.stack.below, f.dispatch = .directives
  contexts : Gathers (earlier.filterMap e.execution?) state.stack.contexts

theorem Kept.step {earlier : List (State ρ)} {state next : State ρ} {s? : Option Statement}
    (h : e.Kept earlier state) (hstep : e.step state = (log, .next s? next)) :
    e.Kept (earlier ++ [state]) next := by
  cases s? with
  | none =>
    obtain ⟨source, rest, cursor, -, -, -, rfl⟩ := eq_of_step_ended hstep
    have hnone : e.execution? state = none := by simp [execution?, hstep]
    refine ⟨h.below, ?_⟩
    simpa [List.filterMap_append, hnone] using h.contexts
  | some s =>
    obtain ⟨source, rest, cursor, opened, -, -, hhandle, -⟩ := eq_of_step_statement hstep
    have hhandles := handles_of_handle hhandle
    have hexecution : e.execution? state = some (s, e.effect state.stack s) := by
      simp [execution?, hstep]
    refine ⟨hhandles.strategies h.below, ?_⟩
    simpa [List.filterMap_append, hexecution] using hhandles.gathers h.below h.contexts

theorem gathers_of_run [Record ρ] {cursor : Cursor} {directory : Option Path} {root : Context ρ}
    (hrun : (e.run (e.opening (.outermost cursor directory))).2 = .ok root) :
    ∃ f : Frame ρ, Gathers (e.executed (e.opening (.outermost cursor directory))) [f] ∧
      root = f.close.complete := by
  obtain ⟨last, hdrain, hroot⟩ := map_eq_ok.mp hrun
  obtain ⟨earlier, htrail⟩ := exists_done hdrain
  have hstart : e.Kept [] (e.opening (.outermost cursor directory)) :=
    ⟨by simp [opening], .outermost [] rfl rfl⟩
  have hlast := trail_induction hstart (fun _ _ _ _ _ h hstep => h.step hstep) htrail
  have hdepth : last.depth = 0 := depth_of_drain hdrain
  obtain ⟨top, below⟩ := last
  obtain rfl := List.eq_nil_of_length_eq_zero hdepth
  have hexecuted : e.executed (e.opening (.outermost cursor directory)) =
      earlier.filterMap e.execution? := by
    rw [executed, htrail, List.filterMap_append]
    simp [execution?, Engine.step]
  refine ⟨top, ?_, hroot.symm⟩
  rw [hexecuted]
  have hcontexts := hlast.contexts
  cases htop : top.dispatch with
  | directives => simpa [Stack.contexts, htop] using hcontexts
  | strategy handle owner =>
    simp only [Stack.contexts, htop] at hcontexts
    generalize earlier.filterMap e.execution? = executed at hcontexts
    cases hcontexts

/-- The contexts of a successful run are the blocks of directives that it opened, with the words and
the place of their opening statements. They are nested as these statements were executed, and a walk
meets them in the order in which they were executed. On every tree, a walk is a preorder. -/
theorem tree_mirrors_execution [Record ρ] (e : Engine ρ) (cursor : Cursor)
    (directory : Option Path) (log : Log) (root : Context ρ)
    (hrun : e.run (e.opening (.outermost cursor directory)) = (log, .ok root)) :
    let executed := e.executed (e.opening (.outermost cursor directory))
    (∃ xs : List Executed, Executed.flattenAll xs = executed ∧
      (∀ ys, Executed.flattenAll ys = executed → ys = xs) ∧
      root.outline = .node ([], none) (Executed.outlinesAll xs)) ∧
    root.walk.tail.map Context.heading = executed.filterMap Executed.opened? ∧
    ∀ c : Context ρ, c.walk = c.preorder := by
  intro executed
  obtain ⟨f, hgathers, rfl⟩ := gathers_of_run (congrArg Prod.snd hrun)
  generalize hexecuted : e.executed (e.opening (.outermost cursor directory)) = all at hgathers
  have hall : executed = all := hexecuted
  rw [hall]
  cases hgathers with
  | @outermost _ xs hheading hinside =>
    have houtline : f.close.complete.outline = .node ([], none) (Executed.outlinesAll xs) := by
      rw [Context.complete, Context.outline_completeIn, Frame.close, Context.outline, hinside,
        ← hheading]
      rfl
    refine ⟨⟨xs, rfl, fun ys => Executed.flattenAll_injective, houtline⟩, ?_,
      Context.walk_eq_preorder⟩
    rw [List.map_tail, Context.walk_eq_preorder, Context.map_heading_preorder, houtline,
      Outline.headings, List.tail_cons, Executed.headings_outlinesAll]

theorem tree_mirrors_execution_included :
    let e := Server.engineOver [("a.conf", "types \x7b text/css css; \x7d\nserver \x7b \x7d")]
    let start := e.opening (.outermost (Server.cursorOf
      "http \x7b\n server \x7b\n location / \x7b \x7d\n \x7d\n include a.conf;\n\x7d") none)
    ∃ log root, e.run start = (log, .ok root) ∧
      root.walk.tail.map Context.heading = (e.executed start).filterMap Executed.opened? ∧
      root.walk.tail.map Context.heading = [(["http"], some ⟨"server.conf", 1⟩),
        (["server"], some ⟨"server.conf", 2⟩), (["location", "/"], some ⟨"server.conf", 3⟩),
        (["server"], some ⟨"a.conf", 2⟩)] := by
  intro e start
  have hyields : e.yieldsWithin 20 start (fun root =>
      root.preorder.tail.map Context.heading = [(["http"], some ⟨"server.conf", 1⟩),
        (["server"], some ⟨"server.conf", 2⟩), (["location", "/"], some ⟨"server.conf", 3⟩),
        (["server"], some ⟨"a.conf", 2⟩)]) = true := by decide +kernel
  obtain ⟨log, root, hrun, hmatches⟩ := exists_run_of_yieldsWithin hyields
  obtain ⟨-, hwalk, hpreorder⟩ := tree_mirrors_execution e _ none log root hrun
  exact ⟨log, root, hrun, hwalk, by rw [hpreorder, of_decide_eq_true hmatches]⟩

end Engine

end ScopedConf
