import ScopedConf.Proofs.Server.Reference
import ScopedConf.Proofs.Streams

/-! The engine without its stack: an evaluator that descends into a block when the block is opened
and returns at its closing brace. On statements without includes, it says what the loop does. -/

namespace ScopedConf

variable {ρ : Type}

/-- A body that was evaluated, out of `ss`: what it made of a context, the brace that closed it, and
the statements behind the brace. -/
structure Body (ρ : Type) (ss : List Statement) where
  context : Frame ρ
  closing : Statement
  rest : List Statement
  shorter : rest.length < ss.length

def Body.behind {ss all : List Statement} (b : Body ρ ss) (h : ss.length < all.length) :
    Body ρ all :=
  ⟨b.context, b.closing, b.rest, Nat.lt_trans b.shorter h⟩

structure Evaluated (ρ : Type) (ss : List Statement) where
  context : Frame ρ
  rest : List Statement
  suffix : rest.length ≤ ss.length

def unclosed : Except Failure Location → Failure
  | .error f => f
  | .ok location => .located .unexpectedEnd location

def handOverBody (handle : Strategy ρ) (owner : Nat) (ending : Except Failure Location) :
    Frame ρ → (ss : List Statement) → Outcome (Body ρ ss)
  | _, [] => .fail (unclosed ending)
  | outer, s :: ss =>
    match s.terminator with
    | .closeBrace => .pure ⟨outer, s, ss, Nat.lt_succ_self _⟩
    | .openBrace => .fail (.located (.unexpectedBlock s.name) s.location)
    | .semicolon =>
      match outer.lend handle owner s with
      | .error cause => .fail (.located cause s.location)
      | .ok outer =>
        .bind (handOverBody handle owner ending outer ss) fun body =>
          .pure (body.behind (Nat.lt_succ_self _))

namespace Engine

mutual

/-- A statement in the context `f`, and the body of the block that it opens. -/
def evaluateStatement (e : Engine ρ) (ending : Except Failure Location) (depth : Nat) (f : Frame ρ)
    (s : Statement) (ss : List Statement) : Outcome (Evaluated ρ ss) :=
  .bind ((e.enter depth f s).at s.location) fun
    | (f, none) => .pure ⟨f, ss, Nat.le_refl _⟩
    | (f, some inner) => e.evaluateBlock ending depth f inner ss
termination_by (ss.length, 2)

def evaluateBlock (e : Engine ρ) (ending : Except Failure Location) (depth : Nat)
    (f inner : Frame ρ) (ss : List Statement) : Outcome (Evaluated ρ ss) :=
  match inner.dispatch with
  | .directives =>
    .bind (e.evaluateBody ending (depth + 1) inner ss) fun body =>
      .bind ([Event.closed body.context.title body.closing.location.line], .ok ()) fun _ =>
        .pure ⟨{ f with children := f.children ++ [body.context.close] }, body.rest,
          Nat.le_of_lt body.shorter⟩
  | .strategy handle owner =>
    .bind (handOverBody handle owner ending f ss) fun body =>
      .bind ([Event.closed inner.title body.closing.location.line], .ok ()) fun _ =>
        .pure ⟨body.context, body.rest, Nat.le_of_lt body.shorter⟩
termination_by (ss.length, 1)

def evaluateBody (e : Engine ρ) (ending : Except Failure Location) (depth : Nat) (f : Frame ρ) :
    (ss : List Statement) → Outcome (Body ρ ss)
  | [] => .fail (unclosed ending)
  | s :: ss =>
    if s.terminator = .closeBrace then .pure ⟨f, s, ss, Nat.lt_succ_self _⟩
    else
      .bind (e.evaluateStatement ending depth f s ss) fun done =>
        .bind (e.evaluateBody ending depth done.context done.rest) fun body =>
          .pure (body.behind (Nat.lt_succ_of_le done.suffix))
termination_by ss => (ss.length, 0)
decreasing_by
  · exact Prod.Lex.left _ _ (Nat.lt_succ_self _)
  · exact Prod.Lex.left _ _ (Nat.lt_succ_of_le done.suffix)

end

/-- The statements of the top level, which no brace closes. -/
def evaluateTop (e : Engine ρ) (ending : Except Failure Location) (f : Frame ρ) :
    List Statement → Outcome (Frame ρ)
  | [] =>
    match ending with
    | .error failure => .fail failure
    | .ok _ => .pure f
  | s :: ss =>
    if s.terminator = .closeBrace then .fail (.located .unbalancedBlock s.location)
    else
      .bind (e.evaluateStatement ending 0 f s ss) fun done =>
        e.evaluateTop ending done.context done.rest
termination_by ss => ss.length
decreasing_by exact Nat.lt_succ_of_le done.suffix

def evaluate (e : Engine ρ) [Record ρ] (stream : Stream) : Outcome (Context ρ) :=
  .bind (e.evaluateTop stream.ending (Frame.root e.registry) stream.statements) fun f =>
    .pure f.close.complete

/-- Whether the loop executes no include among these statements. -/
def includeFree (e : Engine ρ) (source : Source) : Stack ρ → List Statement → Bool
  | _, [] => true
  | stack, s :: ss =>
    !e.includesAt stack s &&
      match (e.handle source stack s).2 with
      | .error _ => true
      | .ok (stack, _) => e.includeFree source stack ss

/-- The loop, from here on, has the result `r`, unless it executes an include. -/
def Agrees (e : Engine ρ) (source : Source) (ending : Except Failure Location) (stack : Stack ρ)
    (ss : List Statement) (r : Outcome (Stack ρ)) : Prop :=
  e.includeFree source stack ss = true → e.feed source ending stack ss = r

variable {e : Engine ρ} {source : Source} {ending : Except Failure Location}

theorem agrees_of_error {stack : Stack ρ} {s : Statement} {ss : List Statement} {log : Log}
    (f : Failure) (h : e.includesAt stack s = false → e.handle source stack s = (log, .error f)) :
    e.Agrees source ending stack (s :: ss) (log, .error (f.orAt s.location)) := by
  intro hfree
  simp only [includeFree, Bool.and_eq_true, Bool.not_eq_true'] at hfree
  rw [feed, h hfree.1]
  rfl

theorem agrees_of_ok {stack : Stack ρ} {s : Statement} {ss : List Statement}
    {r : Outcome (Stack ρ)} (log : Log) (next : Stack ρ)
    (h : e.includesAt stack s = false → e.handle source stack s = (log, .ok (next, [])))
    (hrest : e.Agrees source ending next ss r) :
    e.Agrees source ending stack (s :: ss) (.bind (log, .ok ()) fun _ => r) := by
  intro hfree
  simp only [includeFree, Bool.and_eq_true, Bool.not_eq_true'] at hfree
  obtain ⟨hinclude, hfree⟩ := hfree
  rw [h hinclude] at hfree
  rw [feed, h hinclude]
  change Outcome.bind (log, .ok ()) (fun _ => Outcome.bind (e.drain ⟨next, []⟩) fun stack =>
    e.feed source ending stack ss) = _
  rw [drain_nil, Outcome.pure_bind, hrest hfree]

theorem agrees_unclosed (hbase : source.baseDepth = 0) (top outer : Frame ρ)
    (below : List (Frame ρ)) :
    e.Agrees source ending ⟨top, outer :: below⟩ [] (.fail (unclosed ending)) := by
  intro _
  cases ending <;> simp [feed, unclosed, Stack.depth, hbase]

theorem agrees_closeBrace (hbase : source.baseDepth = 0) {top outer : Frame ρ}
    {below : List (Frame ρ)} {s : Statement} {ss : List Statement} {r : Outcome (Stack ρ)}
    (hs : s.terminator = .closeBrace)
    (hrest : e.Agrees source ending ⟨outer.absorb top, below⟩ ss r) :
    e.Agrees source ending ⟨top, outer :: below⟩ (s :: ss)
      (.bind ([Event.closed top.title s.location.line], .ok ()) fun _ => r) := by
  refine agrees_of_ok _ _ (fun _ => ?_) hrest
  simp [handle, hs, closeBlock, Stack.depth, hbase, Reported.map, Except.map]

theorem handle_strategy (e : Engine ρ) (source : Source) {handle : Strategy ρ} {owner : Nat}
    {top : Frame ρ} (outer : Frame ρ) (below : List (Frame ρ)) {s : Statement}
    (hs : s.terminator = .semicolon) (htop : top.dispatch = .strategy handle owner) :
    e.handle source ⟨top, outer :: below⟩ s =
      (Reported.quiet (outer.lend handle owner s)).map
        fun outer => (⟨top, outer :: below⟩, []) := by
  simp only [Engine.handle, hs, htop, handOver, Frame.lend, reduceCtorEq, if_false]
  cases outer.change owner fun r => (handle s r).map fun r => ((), r) <;> rfl

theorem agrees_handOverBody (hbase : source.baseDepth = 0) {handle : Strategy ρ} {owner : Nat}
    {top outer : Frame ρ} {below : List (Frame ρ)} {ss : List Statement}
    {r : Body ρ ss → Outcome (Stack ρ)} (htop : top.dispatch = .strategy handle owner)
    (hrest : ∀ body : Body ρ ss, body.context.dispatch = outer.dispatch →
      e.Agrees source ending ⟨body.context, below⟩ body.rest (r body)) :
    e.Agrees source ending ⟨top, outer :: below⟩ ss
      (.bind (handOverBody handle owner ending outer ss) fun body =>
        .bind ([Event.closed top.title body.closing.location.line], .ok ()) fun _ => r body) := by
  induction ss generalizing outer with
  | nil => exact agrees_unclosed hbase top outer below
  | cons s ss ih =>
    rw [handOverBody]
    cases hs : s.terminator with
    | closeBrace =>
      have habsorb : outer.absorb top = outer := by simp [Frame.absorb, htop]
      refine agrees_closeBrace hbase hs ?_
      rw [habsorb]
      exact hrest ⟨outer, s, ss, _⟩ rfl
    | openBrace =>
      refine agrees_of_error (.of (.unexpectedBlock s.name)) fun _ => ?_
      simp only [Engine.handle, hs, htop, handOver, reduceCtorEq, if_false, if_true]
      rfl
    | semicolon =>
      have hhandle := e.handle_strategy source outer below hs htop
      cases hlend : outer.lend handle owner s with
      | error cause =>
        refine agrees_of_error (.of cause) fun _ => ?_
        rw [hhandle, hlend]
        rfl
      | ok lent =>
        have hheader := Frame.dispatch_of_header (Frame.updated_of_lend hlend).header
        simp only [Outcome.bind_assoc, Outcome.pure_bind]
        refine agrees_of_ok [] ⟨top, lent :: below⟩ (fun _ => ?_) (ih ?_)
        · rw [hhandle, hlend]
          rfl
        · exact fun body hbody => hrest (body.behind (Nat.lt_succ_self _)) (hbody.trans hheader)

theorem handle_directives (e : Engine ρ) (source : Source) {top : Frame ρ}
    (below : List (Frame ρ)) {s : Statement}
    (hs : s.terminator ≠ .closeBrace) (htop : top.dispatch = .directives)
    (h : e.includesAt ⟨top, below⟩ s = false) :
    e.handle source ⟨top, below⟩ s =
      (e.enter below.length top s).map fun entered => (settle below entered, []) := by
  have hinclude : e.includesIn top s = false := by
    refine Bool.eq_false_iff.mpr fun hinclude => ?_
    have hat : e.includesAt ⟨top, below⟩ s = true := includesAt_iff.mpr ⟨hs, htop, hinclude⟩
    simp [h] at hat
  rw [← dispatch_eq_enter source below hinclude]
  simp [Engine.handle, hs, htop]

mutual

-- The loop never returns from a block, so what it does behind one is a parameter here: `r`.

/-- The loop reads a statement and the body of its block as the evaluator does. -/
theorem agrees_statement (hbase : source.baseDepth = 0) {f : Frame ρ} {below : List (Frame ρ)}
    {s : Statement} {ss : List Statement} {r : Evaluated ρ ss → Outcome (Stack ρ)}
    (hs : s.terminator ≠ .closeBrace) (hf : f.dispatch = .directives)
    (hrest : ∀ done : Evaluated ρ ss, done.context.dispatch = .directives →
      e.Agrees source ending ⟨done.context, below⟩ done.rest (r done)) :
    e.Agrees source ending ⟨f, below⟩ (s :: ss)
      (.bind (e.evaluateStatement ending below.length f s ss) r) := by
  have hhandle := e.handle_directives source below hs hf
  rw [evaluateStatement, Outcome.bind_assoc]
  cases henter : e.enter below.length f s with
  | mk log result =>
    rw [henter] at hhandle
    cases result with
    | error failure => exact agrees_of_error failure hhandle
    | ok entered =>
      obtain ⟨g, inner⟩ := entered
      have hg := (Frame.dispatch_of_header (header_of_enter henter)).trans hf
      cases inner with
      | none => exact agrees_of_ok log ⟨g, below⟩ hhandle (hrest ⟨g, ss, Nat.le_refl _⟩ hg)
      | some inner =>
        exact agrees_of_ok log ⟨inner, g :: below⟩ hhandle (agrees_block hbase hg hrest)
termination_by (ss.length, 2)

theorem agrees_block (hbase : source.baseDepth = 0) {f inner : Frame ρ} {below : List (Frame ρ)}
    {ss : List Statement} {r : Evaluated ρ ss → Outcome (Stack ρ)} (hf : f.dispatch = .directives)
    (hrest : ∀ done : Evaluated ρ ss, done.context.dispatch = .directives →
      e.Agrees source ending ⟨done.context, below⟩ done.rest (r done)) :
    e.Agrees source ending ⟨inner, f :: below⟩ ss
      (.bind (e.evaluateBlock ending below.length f inner ss) r) := by
  rw [evaluateBlock]
  cases hinner : inner.dispatch with
  | directives =>
    simp only [Outcome.bind_assoc, Outcome.pure_bind]
    refine agrees_body hbase hinner fun body hbody => ?_
    rw [Frame.absorb, hbody]
    exact hrest ⟨_, body.rest, Nat.le_of_lt body.shorter⟩ hf
  | strategy handle owner =>
    simp only [Outcome.bind_assoc, Outcome.pure_bind]
    refine agrees_handOverBody hbase hinner fun body hbody => ?_
    exact hrest ⟨body.context, body.rest, Nat.le_of_lt body.shorter⟩ (hbody.trans hf)
termination_by (ss.length, 1)

theorem agrees_body (hbase : source.baseDepth = 0) {f outer : Frame ρ} {below : List (Frame ρ)}
    {ss : List Statement} {r : Body ρ ss → Outcome (Stack ρ)} (hf : f.dispatch = .directives)
    (hrest : ∀ body : Body ρ ss, body.context.dispatch = .directives →
      e.Agrees source ending ⟨outer.absorb body.context, below⟩ body.rest (r body)) :
    e.Agrees source ending ⟨f, outer :: below⟩ ss
      (.bind (e.evaluateBody ending (below.length + 1) f ss) fun body =>
        .bind ([Event.closed body.context.title body.closing.location.line], .ok ())
          fun _ => r body) := by
  cases ss with
  | nil =>
    rw [evaluateBody]
    exact agrees_unclosed hbase f outer below
  | cons s ss =>
    rw [evaluateBody]
    by_cases hs : s.terminator = .closeBrace
    · rw [if_pos hs]
      exact agrees_closeBrace hbase hs (hrest ⟨f, s, ss, Nat.lt_succ_self _⟩ hf)
    · rw [if_neg hs]
      simp only [Outcome.bind_assoc, Outcome.pure_bind]
      refine agrees_statement hbase hs hf fun done hdone => ?_
      refine agrees_body hbase hdone fun body hbody => ?_
      exact hrest (body.behind (Nat.lt_succ_of_le done.suffix)) hbody
termination_by (ss.length, 0)
decreasing_by
  · subst_vars
    exact Prod.Lex.left _ _ (Nat.lt_succ_of_le done.suffix)
  · subst_vars
    exact Prod.Lex.left _ _ (Nat.lt_succ_self _)

end

theorem agrees_top (hbase : source.baseDepth = 0) (hinclude : source.includeDepth = 0)
    {f : Frame ρ} {ss : List Statement} (hf : f.dispatch = .directives) :
    e.Agrees source ending ⟨f, []⟩ ss
      (.bind (e.evaluateTop ending f ss) fun f => .pure ⟨f, []⟩) := by
  cases ss with
  | nil =>
    intro _
    cases ending <;> simp [feed, evaluateTop, Stack.depth, hbase, hinclude]
    rfl
  | cons s ss =>
    rw [evaluateTop]
    by_cases hs : s.terminator = .closeBrace
    · rw [if_pos hs]
      refine agrees_of_error (.of .unbalancedBlock) fun _ => ?_
      simp [handle, hs, closeBlock, Stack.depth, hbase, Reported.map, Except.map]
    · rw [if_neg hs, Outcome.bind_assoc]
      exact agrees_statement hbase hs hf fun done hdone => agrees_top hbase hinclude hdone
termination_by ss.length
decreasing_by
  subst_vars
  exact Nat.lt_succ_of_le done.suffix

/-- Statements without includes mean what the evaluator makes of them, failures and reports
included. A registry that was finalized opens blocks at opening braces, and only there. -/
theorem run_eq_evaluate (e : Engine ρ) [Record ρ] (hr : e.registry.Finalized) (cursor : Cursor)
    (directory : Option Path) (stream : Stream)
    (hfree : e.includeFree (.outermost cursor directory) ⟨Frame.root e.registry, []⟩
      stream.statements = true) :
    e.runStream (.outermost cursor directory) stream = e.evaluate stream ∧
      (cursor.stream = stream →
        e.run (e.opening (.outermost cursor directory)) = e.evaluate stream) ∧
      ∀ depth f s log g inner, e.enter depth f s = (log, .ok (g, inner)) →
        (inner.isSome = true ↔ s.terminator = .openBrace) := by
  have hstream : e.runStream (.outermost cursor directory) stream = e.evaluate stream := by
    have hfeed : e.feed (.outermost cursor directory) stream.ending ⟨Frame.root e.registry, []⟩
        stream.statements = _ := agrees_top rfl rfl rfl hfree
    rw [runStream, hfeed, Outcome.bind_assoc]
    rfl
  refine ⟨hstream, fun hcursor => ?_, fun depth f s log g inner h => isSome_of_enter hr h⟩
  rw [run_eq_runStream, ← hstream, ← hcursor]
  rfl

theorem run_eq_evaluate_nested_blocks :
    let cursor := Server.cursorOf
      "http \x7b types \x7b text/html html; \x7d server \x7b listen 80; \x7d \x7d"
    let source := Source.outermost cursor none
    (Server.engineOver []).registry.Finalized ∧
      (Server.engineOver []).includeFree source ⟨Frame.root Server.reference, []⟩
        cursor.stream.statements = true ∧
      (Server.engineOver []).run ((Server.engineOver []).opening source) =
        (Server.engineOver []).evaluate cursor.stream := by
  intro cursor source
  have hfree : (Server.engineOver []).includeFree source ⟨Frame.root Server.reference, []⟩
      cursor.stream.statements = true := by decide +kernel
  obtain ⟨-, hrun, -⟩ :=
    run_eq_evaluate (Server.engineOver []) Server.finalized_reference _ none _ hfree
  exact ⟨Server.finalized_reference, hfree, hrun rfl⟩

end Engine

end ScopedConf
