import ScopedConf.Proofs.Items
import ScopedConf.Proofs.Simulation
import ScopedConf.Proofs.Uses

/-! Sections of a run: a directive, and a block with everything in it. What is read in a block
depends on the contexts around it by their number only, and leaves them as they are. -/

namespace ScopedConf

variable {ρ : Type}

def Terminator.depthAfter (t : Terminator) (depth : Nat) : Nat :=
  match t with
  | .openBrace => depth + 1
  | .closeBrace => depth - 1
  | .semicolon => depth

theorem Terminator.depthAfter_add {t : Terminator} {depth : Nat}
    (h : t = .closeBrace → 0 < depth) (more : Nat) :
    t.depthAfter (depth + more) = t.depthAfter depth + more := by
  cases t with
  | openBrace => exact Nat.add_right_comm depth more 1
  | closeBrace => exact Nat.sub_add_comm (h rfl)
  | semicolon => rfl

namespace Frame

def hold (f : Frame ρ) (c : Context ρ) : Frame ρ :=
  { f with children := f.children ++ [c] }

theorem dispatch_absorb (f inner : Frame ρ) : (f.absorb inner).dispatch = f.dispatch := by
  unfold absorb
  split <;> rfl

theorem dispatch_ofBlock {spec : BlockSpec ρ} (h : spec.strategy = none) (r : Registry ρ)
    (owner : Nat) (s : Statement) : (ofBlock r owner spec s).dispatch = .directives := by
  simp [ofBlock, h]

theorem absorb_eq_hold {f inner : Frame ρ} (h : inner.dispatch = .directives) :
    f.absorb inner = f.hold inner.close := by
  rw [absorb, h]
  rfl

end Frame

namespace Stack

def onto (u : Stack ρ) (base : List (Frame ρ)) : Stack ρ :=
  ⟨u.top, u.below ++ base⟩

variable {base base' : List (Frame ρ)} {u : Stack ρ}

@[simp] theorem depth_onto : (u.onto base).depth = u.depth + base.length :=
  List.length_append

theorem bottom_cons (top outer : Frame ρ) (below : List (Frame ρ)) :
    bottom ⟨top, outer :: below⟩ = bottom ⟨outer, below⟩ :=
  bottom_push ⟨outer, below⟩ top

theorem dispatch_bottom {f g : Frame ρ} (h : g.dispatch = f.dispatch) (below : List (Frame ρ)) :
    (bottom ⟨g, below⟩).dispatch = (bottom ⟨f, below⟩).dispatch := by
  cases below with
  | nil => exact h
  | cons => rfl

/-- The same contexts on `base` and on `base'`; the outermost of them is one of directives. -/
inductive Over (base base' : List (Frame ρ)) (depth : Nat) (s t : Stack ρ) : Prop
  | intro (u : Stack ρ) (hs : s = u.onto base) (ht : t = u.onto base') (hdepth : u.depth = depth)
    (hbottom : u.bottom.dispatch = .directives)

end Stack

namespace Engine

variable {e : Engine ρ} {source : Source} {s : Statement} {base base' : List (Frame ρ)}
  {depth : Nat} {stack t next : Stack ρ} {log : Log} {opened : List Source}

theorem Handles.depth_eq (hr : e.registry.Finalized)
    (h : Handles e source stack s log next opened) :
    next.depth = s.terminator.depthAfter stack.depth := by
  cases hs : s.terminator with
  | openBrace => exact h.depth_of_openBrace hr hs
  | closeBrace =>
    have hdepth := (h.depth_of_closeBrace hs).2
    simp only [Terminator.depthAfter]
    omega
  | semicolon => exact h.depth_of_semicolon hr hs

theorem settle_append (below base : List (Frame ρ)) (entered : Frame ρ × Option (Frame ρ)) :
    settle (below ++ base) entered = (settle below entered).onto base := by
  obtain ⟨f, _ | inner⟩ := entered <;> rfl

abbrev Alike (base base' : List (Frame ρ)) : Stack ρ → Stack ρ → Prop :=
  fun x y => ∃ depth, Stack.Over base base' depth x y

variable {top : Frame ρ} {below : List (Frame ρ)}

theorem closeBlock_onto (hlength : base.length = base'.length)
    (hbottom : (Stack.bottom ⟨top, below⟩).dispatch = .directives)
    (hclose : source.baseDepth < below.length + base.length → 0 < below.length) :
    Outcome.Related (Alike base base') (closeBlock source ⟨top, below ++ base⟩ s)
      (closeBlock source ⟨top, below ++ base'⟩ s) := by
  simp only [closeBlock, Stack.depth, List.length_append, ← hlength]
  split
  · exact .error _ _
  · next hdepth =>
    cases below with
    | nil => simpa using hclose (Nat.lt_of_not_le hdepth)
    | cons outer below =>
      rw [Stack.bottom_cons, ← Stack.dispatch_bottom (outer.dispatch_absorb top)] at hbottom
      exact .ok _ ⟨_, .intro _ rfl rfl rfl hbottom⟩

theorem handOver_onto {handle : Strategy ρ} {owner : Nat} (htop : top.dispatch ≠ .directives)
    (hbottom : (Stack.bottom ⟨top, below⟩).dispatch = .directives) :
    Outcome.Related (Alike base base')
      (Reported.quiet (handOver handle owner ⟨top, below ++ base⟩ s))
      (Reported.quiet (handOver handle owner ⟨top, below ++ base'⟩ s)) := by
  cases below with
  | nil => exact absurd hbottom htop
  | cons outer below =>
    simp only [handOver, List.cons_append]
    split
    · exact .error _ _
    · cases hchange : outer.change owner (fun r => (handle s r).map fun r => ((), r)) with
      | error refusal => exact .error _ _
      | ok changed =>
        obtain ⟨⟨⟩, outer'⟩ := changed
        have hkept := Frame.dispatch_of_header (Frame.updated_of_change hchange).header
        rw [Stack.bottom_cons, ← Stack.dispatch_bottom hkept, ← Stack.bottom_cons top] at hbottom
        exact .ok _ ⟨_, .intro _ rfl rfl rfl hbottom⟩

theorem dispatch_onto (e : Engine ρ) (hlength : base.length = base'.length)
    (hbottom : (Stack.bottom ⟨top, below⟩).dispatch = .directives) :
    Outcome.Related (WithSources (Alike base base') (base.length ≤ ·.baseDepth))
      (e.dispatch source ⟨top, below ++ base⟩ s) (e.dispatch source ⟨top, below ++ base'⟩ s) := by
  have hsame : (below ++ base').length = (below ++ base).length := by simp [hlength]
  cases hincludes : e.includesIn top s with
  | false =>
    rw [dispatch_eq_enter source _ hincludes, dispatch_eq_enter source _ hincludes, hsame]
    refine .of_map fun entered henter => ⟨?_, rfl, by simp⟩
    obtain ⟨f, inner⟩ := entered
    have hkept := Frame.dispatch_of_header (header_of_enter (Prod.ext rfl henter))
    rw [← Stack.dispatch_bottom hkept] at hbottom
    rw [settle_append, settle_append]
    cases inner with
    | none => exact ⟨_, .intro _ rfl rfl rfl hbottom⟩
    | some inner => exact ⟨_, .intro _ rfl rfl rfl ((Stack.bottom_cons inner f below) ▸ hbottom)⟩
  | true =>
    obtain ⟨m, d, f, haccept, hh⟩ := includesIn_iff.mp hincludes
    have hkept := Frame.dispatch_of_header (header_of_accept haccept)
    rw [← Stack.dispatch_bottom hkept] at hbottom
    simp only [dispatch_of_accept_ok haccept, execute, hh, Stack.depth, hsame]
    cases hfiles : e.includeFiles source (below ++ base).length s with
    | mk log result =>
      cases result with
      | error failure => exact .error _ _
      | ok opened =>
        refine .ok _ ⟨⟨_, .intro _ rfl rfl rfl hbottom⟩, rfl, fun n hn => ?_⟩
        have hbase := baseDepth_of_includeFiles hfiles n hn
        rw [List.length_append] at hbase
        exact Nat.le_trans (Nat.le_add_left _ _) (Nat.le_of_eq hbase.symm)

theorem handle_onto (e : Engine ρ) (source : Source) (hlength : base.length = base'.length)
    (u : Stack ρ) (hbottom : u.bottom.dispatch = .directives)
    (hclose : s.terminator = .closeBrace → source.baseDepth < u.depth + base.length → 0 < u.depth) :
    Outcome.Related (WithSources (Alike base base') (base.length ≤ ·.baseDepth))
      (e.handle source (u.onto base) s) (e.handle source (u.onto base') s) := by
  obtain ⟨top, below⟩ := u
  by_cases hs : s.terminator = .closeBrace
  · simp only [handle, hs, if_true]
    exact (closeBlock_onto hlength hbottom (hclose hs)).map fun _ _ h => ⟨h, rfl, by simp⟩
  · simp only [handle, hs, if_false, Stack.onto]
    cases htop : top.dispatch with
    | strategy handle owner =>
      exact (handOver_onto (by simp [htop]) hbottom).map fun _ _ h => ⟨h, rfl, by simp⟩
    | directives => exact e.dispatch_onto hlength hbottom

theorem simulates_onto (e : Engine ρ) (hlength : base.length = base'.length) :
    e.Simulates (Alike base base') (base.length ≤ ·.baseDepth) where
  depth s t h := by
    obtain ⟨depth, u, rfl, rfl, -, -⟩ := h
    simp [hlength]
  advance source cursor h := h
  handle source s t stmt hsource h := by
    obtain ⟨depth, u, rfl, rfl, -, hbottom⟩ := h
    exact e.handle_onto source hlength u hbottom fun _ hdepth => by omega

theorem over_of_handle (hr : e.registry.Finalized) {u : Stack ρ} {x y : Stack ρ × List Source}
    (hclose : s.terminator = .closeBrace → 0 < u.depth)
    (hhandle : (e.handle source (u.onto base) s).2 = .ok x)
    (h : WithSources (Alike base base') (base.length ≤ ·.baseDepth) x y) :
    WithSources (Stack.Over base base' (s.terminator.depthAfter u.depth))
      (fun n => base.length ≤ n.baseDepth ∧ n.baseDepth = x.1.depth) x y := by
  obtain ⟨next, opened⟩ := x
  obtain ⟨next', opened'⟩ := y
  obtain ⟨⟨depth, hover⟩, hsources, hbase⟩ := h
  have hhandles := handles_of_handle (Prod.ext rfl hhandle)
  refine ⟨?_, hsources, fun n hn => ⟨hbase n hn, ?_⟩⟩
  · obtain ⟨v, hv, hv', -, hbottom⟩ := hover
    refine .intro v hv hv' ?_ hbottom
    have hdepth := hhandles.depth_eq hr
    rw [show next = v.onto base from hv, Stack.depth_onto, Stack.depth_onto,
      Terminator.depthAfter_add hclose] at hdepth
    exact Nat.add_right_cancel hdepth
  · obtain ⟨hstart, hsame, -, -⟩ := hhandles.opened_sources n hn
    rw [hstart, hsame]

/-- With all that it includes, a statement that closes no context of the base does the same on every
base. -/
theorem handleAll_statement_onto (hr : e.registry.Finalized) (source : Source)
    (hlength : base.length = base'.length) (s : Statement)
    (hclose : s.terminator = .closeBrace → 0 < depth)
    (h : Stack.Over base base' depth stack t) :
    Outcome.Related (Stack.Over base base' (s.terminator.depthAfter depth))
      (e.handleAll source stack [s]) (e.handleAll source t [s]) := by
  obtain ⟨u, rfl, rfl, rfl, hbottom⟩ := h
  have hhandle := e.handle_onto source hlength u hbottom fun hs _ => hclose hs
  refine ((hhandle.imp fun x y => over_of_handle hr hclose).located s.location).bind ?_
  intro x y hxy
  obtain ⟨next, opened⟩ := x
  obtain ⟨next', opened'⟩ := y
  obtain ⟨hnext, rfl, hopened⟩ := hxy
  -- A file that the statement includes ends at the depth it started from, so it leaves as many
  -- contexts open above the base as it found.
  have hdrain := (e.simulates_onto hlength).drain ⟨_, hnext⟩ fun n hn => (hopened n hn).1
  refine Outcome.Related.bind (hdrain.imp fun last last' heq hlast => ?_) fun _ _ h => .ok [] h
  have hdepth := depth_of_drain_opened heq fun n hn => (hopened n hn).2
  obtain ⟨-, v, rfl, rfl, -, hv⟩ := hlast
  obtain ⟨w, rfl, -, hw, -⟩ := hnext
  rw [Stack.depth_onto, Stack.depth_onto] at hdepth
  exact .intro v rfl rfl ((Nat.add_right_cancel hdepth).trans hw) hv

mutual

theorem handleAll_item_onto (hr : e.registry.Finalized) (source : Source)
    (hlength : base.length = base'.length) {depth : Nat} {stack t : Stack ρ} (item : Item)
    (h : Stack.Over base base' depth stack t) :
    Outcome.Related (Stack.Over base base' depth) (e.handleAll source stack item.flatten)
      (e.handleAll source t item.flatten) := by
  cases item with
  | directive s hs =>
    have hstatement := handleAll_statement_onto hr source hlength s (by simp [hs]) h
    rwa [hs] at hstatement
  | block opening hopening body closing hclosing =>
    rw [Item.flatten, List.cons_append, ← List.singleton_append]
    simp only [handleAll_append]
    have hopened := handleAll_statement_onto hr source hlength opening (by simp [hopening]) h
    rw [hopening] at hopened
    refine hopened.bind fun _ _ hinside => ?_
    refine (handleAll_items_onto hr source hlength body hinside).bind fun _ _ hbehind => ?_
    have hclosed := handleAll_statement_onto hr source hlength closing
      (fun _ => Nat.succ_pos depth) hbehind
    rwa [hclosing] at hclosed

theorem handleAll_items_onto (hr : e.registry.Finalized) (source : Source)
    (hlength : base.length = base'.length) {depth : Nat} {stack t : Stack ρ} (items : List Item)
    (h : Stack.Over base base' depth stack t) :
    Outcome.Related (Stack.Over base base' depth) (e.handleAll source stack (Item.flattenAll items))
      (e.handleAll source t (Item.flattenAll items)) := by
  cases items with
  | nil => exact .ok [] h
  | cons item items =>
    rw [Item.flattenAll_cons, handleAll_append, handleAll_append]
    exact (handleAll_item_onto hr source hlength item h).bind fun _ _ hnext =>
      handleAll_items_onto hr source hlength items hnext

end

theorem exists_body_onto (hr : e.registry.Finalized) (base' : List (Frame ρ))
    (hlength : base.length = base'.length) {f : Frame ρ} (hf : f.dispatch = .directives)
    {body : List Item} {last : Stack ρ}
    (hbody : (e.handleAll source ⟨f, base⟩ (Item.flattenAll body)).2 = .ok last) :
    ∃ inner : Frame ρ, inner.dispatch = .directives ∧ last = ⟨inner, base⟩ ∧
      (e.handleAll source ⟨f, base'⟩ (Item.flattenAll body)).2 = .ok ⟨inner, base'⟩ := by
  have hstart : Stack.Over base base' 0 ⟨f, base⟩ ⟨f, base'⟩ := .intro ⟨f, []⟩ rfl rfl rfl hf
  have hsame := handleAll_items_onto hr source hlength body hstart
  obtain ⟨last', hother, hlast⟩ := hsame.eq_ok hbody
  obtain ⟨⟨inner, below⟩, rfl, rfl, hdepth, hbottom⟩ := hlast
  obtain rfl := List.eq_nil_of_length_eq_zero hdepth
  exact ⟨inner, hbottom, rfl, hother⟩

section handled

variable {f g f' g' inner : Frame ρ} {last : Stack ρ} {m : Registry.Entry ρ} {d : Directive ρ}
  {spec : BlockSpec ρ} {opening closing : Statement} {hopening : opening.terminator = .openBrace}
  {hclosing : closing.terminator = .closeBrace} {body : List Item}

theorem snd_handleAll_plain (hs : s.terminator ≠ .closeBrace) (hf : f.dispatch = .directives)
    (hplain : e.includesIn f s = false) :
    (e.handleAll source ⟨f, below⟩ [s]).2 = .ok last ↔
      ∃ entered, (e.enter below.length f s).2 = .ok entered ∧ last = settle below entered := by
  have hhandle : e.handle source ⟨f, below⟩ s = e.dispatch source ⟨f, below⟩ s := by
    simp [handle, hs, hf]
  rw [handleAll, hhandle, dispatch_eq_enter source below hplain]
  cases henter : e.enter below.length f s with
  | mk log result =>
    cases result with
    | error failure => simp [Reported.map, Reported.at, Outcome.bind, Except.map, Except.mapError]
    | ok entered =>
      simp [Reported.map, Reported.at, Outcome.bind, Except.map, Except.mapError, drain_nil,
        Outcome.pure, handleAll, eq_comm]

theorem snd_handleAll_directive (hr : e.registry.Finalized) (hs : s.terminator = .semicolon)
    (hf : f.dispatch = .directives) (hplain : e.includesIn f s = false) :
    (e.handleAll source ⟨f, below⟩ [s]).2 = .ok last ↔
      ∃ m d g, e.Uses f s m d g ∧ last = ⟨g, below⟩ := by
  have hnone : ∀ {m d g}, e.Uses f s m d g → d.block = none := by
    intro m d g huses
    have hopen := openBrace_iff_of_accept hr huses.accept
    cases hblock : d.block with
    | none => rfl
    | some spec => simp [hs, hblock] at hopen
  rw [snd_handleAll_plain (by simp [hs]) hf hplain]
  constructor
  · rintro ⟨entered, henter, rfl⟩
    obtain ⟨m, d, g, huses, -, rfl⟩ := snd_enter_eq_ok.mp henter
    exact ⟨m, d, g, huses, by rw [hnone huses]; rfl⟩
  · rintro ⟨m, d, g, huses, rfl⟩
    have hblock := hnone huses
    exact ⟨_, snd_enter_eq_ok.mpr ⟨m, d, g, huses, by simp [hblock], rfl⟩, by rw [hblock]; rfl⟩

/-- The block that `opening` opens in `f`, with `body` in it: `f` becomes `g`, and `inner` is what
becomes of the context of the block. -/
structure Builds (e : Engine ρ) (source : Source) (below : List (Frame ρ)) (opening : Statement)
    (body : List Item) (f : Frame ρ) (m : Registry.Entry ρ) (d : Directive ρ) (spec : BlockSpec ρ)
    (g inner : Frame ρ) : Prop where
  uses : e.Uses f opening m d g
  block : d.block = some spec
  strategy : spec.strategy = none
  limit : below.length < e.options.maxBlockDepth
  base : source.baseDepth ≤ below.length
  inside : (e.handleAll source ⟨Frame.ofBlock e.registry m.id.index spec opening, g :: below⟩
    (Item.flattenAll body)).2 = .ok ⟨inner, g :: below⟩

theorem Builds.inside_on (hr : e.registry.Finalized)
    (h : e.Builds source below opening body f m d spec g inner) (g' : Frame ρ) :
    inner.dispatch = .directives ∧
      (e.handleAll source ⟨Frame.ofBlock e.registry m.id.index spec opening, g' :: below⟩
        (Item.flattenAll body)).2 = .ok ⟨inner, g' :: below⟩ := by
  obtain ⟨inner', hdirectives, heq, hinside⟩ :=
    exists_body_onto hr (g' :: below) (by simp)
      (Frame.dispatch_ofBlock h.strategy _ _ _) h.inside
  obtain rfl : inner = inner' := congrArg Stack.top heq
  exact ⟨hdirectives, hinside⟩

/-- What is built in a block does not depend on the contexts around it. -/
theorem Builds.of_uses (hr : e.registry.Finalized)
    (h : e.Builds source below opening body f m d spec g inner)
    (huses : e.Uses f' opening m d g') :
    e.Builds source below opening body f' m d spec g' inner :=
  ⟨huses, h.block, h.strategy, h.limit, h.base, (h.inside_on hr g').2⟩

theorem includesIn_of_openBrace (hr : e.registry.Finalized) (hs : s.terminator = .openBrace) :
    e.includesIn f s = false := by
  refine Bool.eq_false_iff.mpr fun hincludes => ?_
  obtain ⟨m, d, f', haccept, hh⟩ := includesIn_iff.mp hincludes
  exact (include_of_accept hr haccept hh).1 hs

theorem snd_handleAll_closing {outer : Frame ρ} (hs : s.terminator = .closeBrace) :
    (e.handleAll source ⟨f, outer :: below⟩ [s]).2 = .ok last ↔
      source.baseDepth ≤ below.length ∧ last = ⟨outer.absorb f, below⟩ := by
  have hhandle : e.handle source ⟨f, outer :: below⟩ s =
      (closeBlock source ⟨f, outer :: below⟩ s).map fun stack => (stack, []) := by
    simp [handle, hs]
  rw [handleAll, hhandle]
  by_cases hbase : source.baseDepth ≤ below.length
  · have hdepth : ¬below.length + 1 ≤ source.baseDepth := by omega
    simp [closeBlock, Stack.depth, hdepth, hbase, Reported.map, Reported.at, Outcome.bind,
      Except.map, Except.mapError, drain_nil, Outcome.pure, handleAll, eq_comm]
  · have hdepth : below.length + 1 ≤ source.baseDepth := by omega
    simp [closeBlock, Stack.depth, hdepth, hbase, Reported.map, Reported.at, Outcome.bind,
      Except.map, Except.mapError]

theorem snd_handleAll_block (hr : e.registry.Finalized) (hf : f.dispatch = .directives)
    (hstrategy : ∀ m d spec, e.lookUp f opening.name = .ok (m, d) → d.block = some spec →
      spec.strategy = none) :
    (e.handleAll source ⟨f, below⟩ (Item.block opening hopening body closing hclosing).flatten).2 =
        .ok last ↔
      ∃ m d spec g inner, e.Builds source below opening body f m d spec g inner ∧
        last = ⟨g.hold inner.close, below⟩ := by
  have hplain : e.includesIn f opening = false := includesIn_of_openBrace hr hopening
  rw [Item.flatten, List.cons_append, ← List.singleton_append, snd_handleAll_append]
  simp only [snd_handleAll_append, snd_handleAll_plain (by simp [hopening]) hf hplain]
  constructor
  · rintro ⟨_, ⟨entered, henter, rfl⟩, behind, hinside, hclose⟩
    obtain ⟨m, d, g, huses, hlimit, rfl⟩ := snd_enter_eq_ok.mp henter
    have hsome := (openBrace_iff_of_accept hr huses.accept).mp hopening
    obtain ⟨spec, hblock⟩ := Option.isSome_iff_exists.mp hsome
    have hplain := hstrategy m d spec (accept_eq_ok.mp huses.accept).1 hblock
    rw [hblock] at hinside
    obtain ⟨inner, hinner, rfl, hinside⟩ :=
      exists_body_onto hr (g :: below) (by simp) (Frame.dispatch_ofBlock hplain _ _ _) hinside
    obtain ⟨hbase, rfl⟩ := (snd_handleAll_closing hclosing).mp hclose
    exact ⟨m, d, spec, g, inner, ⟨huses, hblock, hplain, hlimit hsome, hbase, hinside⟩,
      by rw [Frame.absorb_eq_hold hinner]⟩
  · rintro ⟨m, d, spec, g, inner, h, rfl⟩
    refine ⟨_, ⟨_, snd_enter_eq_ok.mpr ⟨m, d, g, h.uses, fun _ => h.limit, rfl⟩, rfl⟩,
      ⟨inner, g :: below⟩, ?_, ?_⟩
    · rw [h.block]
      exact h.inside
    · rw [← Frame.absorb_eq_hold (h.inside_on hr g).1]
      exact (snd_handleAll_closing hclosing).mpr ⟨h.base, rfl⟩

end handled

end Engine

end ScopedConf
