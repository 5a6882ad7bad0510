import Mathlib.Data.List.Forall2
import ScopedConf.Proofs.Server.Reference
import ScopedConf.Proofs.Streams

/-! The discipline of the two stacks, open contexts and open sources, in every state that a run
passes through. -/

namespace ScopedConf

variable {ρ : Type}

def openBraces (handled : List (Statement × Bool)) : Nat :=
  handled.countP fun h => h.1.terminator == .openBrace

def closeBraces (handled : List (Statement × Bool)) : Nat :=
  handled.countP fun h => h.1.terminator == .closeBrace

/-- The blocks that are open over the base of a source are those that the source opened itself and
did not close; under the base of the last source there are none. -/
inductive Settled (limit : Nat) : List Source → List Account → Nat → Prop
  | nil : Settled limit [] [] 0
  | cons {source : Source} {sources : List Source} {a : Account} {accounts : List Account}
    {depth : Nat} (hincludes : source.includeDepth = a.includes.length)
    (hlimit : source.includeDepth ≤ limit) (hclosed : a.closed ≤ a.opened)
    (hdepth : source.baseDepth + a.opened = depth + a.closed)
    (hbelow : Settled limit sources accounts source.baseDepth) :
    Settled limit (source :: sources) (a :: accounts) depth

namespace Settled

variable {limit depth : Nat} {sources opened : List Source} {accounts : List Account}

theorem pairwise (h : Settled limit sources accounts depth) :
    (sources.map Source.baseDepth).Pairwise (· ≥ ·) ∧ ∀ s ∈ sources, s.baseDepth ≤ depth := by
  induction h with
  | nil => simp
  | cons hincludes hlimit hclosed hdepth hbelow ih =>
    simp only [List.map_cons, List.pairwise_cons, List.forall_mem_map, List.mem_cons,
      forall_eq_or_imp]
    refine ⟨⟨ih.2, ih.1⟩, by omega, fun s hs => ?_⟩
    have hh := ih.2 s hs
    omega

theorem baseDepth_getLast (h : Settled limit sources accounts depth) :
    ∀ s ∈ sources.getLast?, s.baseDepth = 0 := by
  induction h with
  | nil => simp
  | @cons source sources a accounts depth hincludes hlimit hclosed hdepth hbelow ih =>
    generalize hbase : source.baseDepth = base at hbelow
    cases hbelow with
    | nil =>
      intro s hs
      simp only [List.getLast?_singleton, Option.mem_some_iff] at hs
      rw [← hs, hbase]
    | cons => simpa only [List.getLast?_cons_cons] using ih

theorem forall₂ (h : Settled limit sources accounts depth) :
    List.Forall₂ (fun (s : Source) (a : Account) =>
      s.includeDepth = a.includes.length ∧ s.includeDepth ≤ limit ∧ a.closed ≤ a.opened)
      sources accounts := by
  induction h with
  | nil => exact .nil
  | cons hincludes hlimit hclosed hdepth hbelow ih => exact .cons ⟨hincludes, hlimit, hclosed⟩ ih

theorem append {includes : List Statement} (h : Settled limit sources accounts depth)
    (hopened : ∀ s ∈ opened, s.baseDepth = depth ∧ s.includeDepth = includes.length ∧
      includes.length ≤ limit) :
    Settled limit (opened ++ sources)
      (List.replicate opened.length (.fresh includes) ++ accounts) depth := by
  induction opened with
  | nil => simpa using h
  | cons s opened ih =>
    obtain ⟨hbase, hincludes, hlimit⟩ := hopened s List.mem_cons_self
    have hh := ih fun s hs => hopened s (List.mem_cons_of_mem _ hs)
    rw [List.length_cons, List.replicate_succ, List.cons_append, List.cons_append]
    exact .cons hincludes (hincludes ▸ hlimit) (Nat.le_refl _) (by simp [hbase, Account.fresh])
      (hbase.symm ▸ hh)

theorem count {source : Source} {a : Account} {s : Statement} (cursor : Cursor) (next : Nat)
    (h : Settled limit (source :: sources) (a :: accounts) depth)
    (hopen : s.terminator = .openBrace → next = depth + 1)
    (hclose : s.terminator = .closeBrace → source.baseDepth < depth ∧ next + 1 = depth)
    (hplain : s.terminator = .semicolon → next = depth) :
    Settled limit (source.advance cursor :: sources) (a.count s :: accounts) next := by
  cases h with
  | cons hincludes hlimit hclosed hdepth hbelow =>
    unfold Account.count
    cases hs : s.terminator with
    | openBrace =>
      have hnext := hopen hs
      refine .cons hincludes hlimit ?_ ?_ hbelow <;> simp only [Source.advance] <;> omega
    | closeBrace =>
      have hnext := hclose hs
      refine .cons hincludes hlimit ?_ ?_ hbelow <;> simp only [Source.advance] <;> omega
    | semicolon =>
      have hnext := hplain hs
      refine .cons hincludes hlimit hclosed ?_ hbelow
      simp only [Source.advance]
      omega

end Settled

namespace Engine

theorem baseDepth_of_openFiles {e : Engine ρ} {line baseDepth includeDepth : Nat}
    {paths : List Path} {log : Log} {sources : List Source}
    (h : e.openFiles line baseDepth includeDepth paths = (log, .ok sources)) :
    ∀ n ∈ sources, n.baseDepth = baseDepth := by
  induction paths generalizing log sources with
  | nil =>
    simp only [openFiles, Prod.mk.injEq, Except.ok.injEq] at h
    simp [← h.2]
  | cons p ps ih =>
    unfold openFiles at h
    split at h
    · simp at h
    · next later hlater =>
      split at h
      · simp at h
      · simp only [Prod.mk.injEq, Except.ok.injEq] at h
        rw [← h.2]
        simpa using ⟨rfl, ih hlater⟩

theorem baseDepth_of_includeFiles {e : Engine ρ} {source : Source} {depth : Nat}
    {s : Statement} {log : Log} {sources : List Source}
    (h : e.includeFiles source depth s = (log, .ok sources)) :
    ∀ n ∈ sources, n.baseDepth = depth := by
  obtain ⟨paths, later, -, hopen⟩ := includeFiles_eq_ok h
  exact baseDepth_of_openFiles hopen

namespace Handles

variable {e : Engine ρ} {source : Source} {stack next : Stack ρ} {s : Statement} {log : Log}
  {opened : List Source}

theorem depth_of_openBrace (hr : e.registry.Finalized)
    (h : Handles e source stack s log next opened) (hs : s.terminator = .openBrace) :
    next.depth = stack.depth + 1 := by
  cases h with
  | closed ht => simp [hs] at ht
  | handedOver ht => simp [hs] at ht
  | included _ _ haccept hh => exact absurd hs (include_of_accept hr haccept hh).1
  | obeyed _ _ haccept _ _ hblock => simp [openBrace_iff_of_accept hr haccept, hblock] at hs
  | opened => rfl

theorem depth_of_closeBrace (h : Handles e source stack s log next opened)
    (hs : s.terminator = .closeBrace) :
    source.baseDepth < stack.depth ∧ next.depth + 1 = stack.depth := by
  cases h with
  | closed _ hdepth => exact ⟨Nat.lt_succ_of_le hdepth, rfl⟩
  | handedOver ht => simp [hs] at ht
  | included ht => exact absurd hs ht
  | obeyed ht => exact absurd hs ht
  | opened ht => exact absurd hs ht

theorem depth_of_semicolon (hr : e.registry.Finalized)
    (h : Handles e source stack s log next opened) (hs : s.terminator = .semicolon) :
    next.depth = stack.depth := by
  cases h with
  | closed ht => simp [hs] at ht
  | handedOver => rfl
  | included => rfl
  | obeyed => rfl
  | opened _ _ haccept _ _ hblock =>
    have ho := openBrace_iff_of_accept hr haccept
    simp [hs, hblock] at ho

theorem depth_le (h : Handles e source stack s log next opened)
    (hstack : stack.depth ≤ e.options.maxBlockDepth) : next.depth ≤ e.options.maxBlockDepth := by
  simp only [Stack.depth] at hstack ⊢
  cases h with
  | closed => exact Nat.le_of_succ_le hstack
  | handedOver => simpa using hstack
  | included => exact hstack
  | obeyed => exact hstack
  | opened hs hd haccept hh hobey hblock hlimit => exact hlimit

theorem strategies (h : Handles e source stack s log next opened)
    (hstack : ∀ f ∈ stack.below, f.dispatch = .directives) :
    ∀ f ∈ next.below, f.dispatch = .directives := by
  cases h with
  | closed => exact fun f hf => hstack f (List.mem_cons_of_mem _ hf)
  | handedOver hs hd hchange =>
    simp only [List.mem_cons, forall_eq_or_imp] at hstack ⊢
    have hchanged := Frame.dispatch_of_header (Frame.updated_of_change hchange).header
    exact ⟨hchanged.trans hstack.1, hstack.2⟩
  | included => exact hstack
  | obeyed => exact hstack
  | opened hs hd haccept hh hobey =>
    have hdispatch := Frame.dispatch_of_header (header_of_obey haccept hobey)
    simp only [List.mem_cons, forall_eq_or_imp]
    exact ⟨hdispatch.trans hd, hstack⟩

theorem opened_sources (h : Handles e source stack s log next opened) :
    ∀ n ∈ opened, n.baseDepth = stack.depth ∧ next.depth = stack.depth ∧
      n.includeDepth = source.includeDepth + 1 ∧
      source.includeDepth < e.options.maxIncludeDepth := by
  cases h with
  | included hs hd haccept hh hfiles =>
    intro n hn
    obtain ⟨hlimit, hdepth⟩ := includeDepth_of_includeFiles hfiles n hn
    exact ⟨baseDepth_of_includeFiles hfiles n hn, rfl, hdepth, hlimit⟩
  | _ => simp

theorem balance (hr : e.registry.Finalized) (h : Handles e source stack s log next opened)
    {handled : List (Statement × Bool)} (included : Bool)
    (hbalance : stack.depth + closeBraces handled = openBraces handled) :
    next.depth + closeBraces (handled ++ [(s, included)]) =
      openBraces (handled ++ [(s, included)]) := by
  simp only [openBraces, closeBraces, List.countP_append] at hbalance ⊢
  cases hs : s.terminator with
  | openBrace =>
    have hdepth := h.depth_of_openBrace hr hs
    simp [hs]
    omega
  | closeBrace =>
    have hdepth := (h.depth_of_closeBrace hs).2
    simp [hs]
    omega
  | semicolon =>
    have hdepth := h.depth_of_semicolon hr hs
    simp [hs]
    omega

theorem settled {sources : List Source} {a : Account} {accounts : List Account} {cursor : Cursor}
    (hr : e.registry.Finalized) (h : Handles e (source.advance cursor) stack s log next opened)
    (hsettled : Settled e.options.maxIncludeDepth (source :: sources) (a :: accounts)
      stack.depth) :
    Settled e.options.maxIncludeDepth (opened ++ source.advance cursor :: sources)
      (List.replicate opened.length (.fresh (s :: a.includes)) ++ a.count s :: accounts)
      next.depth := by
  have hcount := hsettled.count cursor next.depth (h.depth_of_openBrace hr) h.depth_of_closeBrace
    (h.depth_of_semicolon hr)
  have htop : source.includeDepth = a.includes.length := by
    cases hsettled
    assumption
  refine hcount.append fun n hn => ?_
  obtain ⟨hbase, hdepth, hincludes, hlimit⟩ := h.opened_sources n hn
  rw [Source.includeDepth_advance] at hincludes hlimit
  refine ⟨hbase.trans hdepth.symm, ?_, ?_⟩
  · rw [hincludes, List.length_cons, htop]
  · rw [List.length_cons, ← htop]
    exact hlimit

end Handles

/-- The invariant of a run. -/
structure Balanced (e : Engine ρ) (o : Observed ρ) : Prop where
  settled : Settled e.options.maxIncludeDepth o.state.sources o.accounts o.state.stack.depth
  blocks : o.state.stack.depth ≤ e.options.maxBlockDepth
  strategies : ∀ f ∈ o.state.stack.below, f.dispatch = .directives
  balance : o.state.stack.depth + closeBraces o.handled = openBraces o.handled

theorem balanced_start (e : Engine ρ) (cursor : Cursor) (directory : Option Path) :
    e.Balanced (.start (e.opening (.outermost cursor directory))) where
  settled := .cons rfl (Nat.zero_le _) (Nat.le_refl _) rfl .nil
  blocks := Nat.zero_le _
  strategies := by simp [Observed.start, opening]
  balance := rfl

namespace Balanced

variable {e : Engine ρ} {o o' : Observed ρ} {log : Log} {s : Statement} {next : State ρ}

theorem statement (hr : e.registry.Finalized) (h : e.Balanced o)
    (hstep : e.step o.state = (log, .next (some s) next)) :
    e.Balanced (o.handling s (e.includesAt o.state.stack s) next) := by
  obtain ⟨source, rest, cursor, opened, hsources, hnext, hhandle, hsources'⟩ :=
    eq_of_step_statement hstep
  have hhandles := handles_of_handle hhandle
  have hsettled := h.settled
  rw [hsources] at hsettled
  refine ⟨?_, hhandles.depth_le h.blocks, hhandles.strategies h.strategies,
    hhandles.balance hr _ h.balance⟩
  generalize haccounts : o.accounts = accounts at hsettled
  cases accounts with
  | nil => cases hsettled
  | cons a accounts =>
    have hlength : next.sources.length - o.state.sources.length = opened.length := by
      simp [hsources, hsources']
    simp only [Observed.handling, haccounts, hlength]
    rw [hsources']
    exact hhandles.settled hr hsettled

theorem ended (h : e.Balanced o) (hstep : e.step o.state = (log, .next none next)) :
    e.Balanced (o.ending next) := by
  obtain ⟨source, rest, cursor, hsources, hnext, hdepth, rfl⟩ := eq_of_step_ended hstep
  have hsettled := h.settled
  rw [hsources] at hsettled
  refine ⟨?_, h.blocks, h.strategies, h.balance⟩
  generalize haccounts : o.accounts = accounts at hsettled
  cases hsettled with
  | cons hincludes hlimit hclosed hbase hbelow =>
    simp only [Observed.ending, haccounts, List.tail_cons]
    exact hdepth ▸ hbelow

theorem move (hr : e.registry.Finalized) (h : e.Balanced o) (hmove : e.Moves o o') :
    e.Balanced o' := by
  cases hmove with
  | statement hstep => exact h.statement hr hstep
  | ended hstep => exact h.ended hstep

theorem of_reaches (hr : e.registry.Finalized) (h : e.Balanced o) (hreaches : e.Reaches o o') :
    e.Balanced o' := by
  induction hreaches with
  | refl => exact h
  | tail _ hmove ih => exact ih.move hr hmove

end Balanced

/-- The open sources and the open contexts agree in every respect. The sources are listed with the
innermost in front. -/
structure Disciplined (e : Engine ρ) (o : Observed ρ) : Prop where
  bases : (o.state.sources.map Source.baseDepth).Pairwise (· ≥ ·)
  bottom : ∀ source ∈ o.state.sources.getLast?, source.baseDepth = 0
  top : ∀ source ∈ o.state.sources.head?, source.baseDepth ≤ o.state.stack.depth
  blocks : o.state.stack.depth ≤ e.options.maxBlockDepth
  includes : List.Forall₂ (fun (source : Source) (a : Account) =>
    source.includeDepth = a.includes.length ∧ source.includeDepth ≤ e.options.maxIncludeDepth ∧
      a.closed ≤ a.opened) o.state.sources o.accounts
  strategies : ∀ f ∈ o.state.stack.below, f.dispatch = .directives
  balance : o.state.stack.depth + closeBraces o.handled = openBraces o.handled

/-- A source closes the blocks that it opened itself, all of them before it ends, and no others. -/
structure Contained (e : Engine ρ) (o : Observed ρ) : Prop where
  opening : ∀ log s next, e.step o.state = (log, .next (some s) next) →
    ∀ new ∈ next.sources.take (next.sources.length - o.state.sources.length),
      new.baseDepth = o.state.stack.depth
  closing : ∀ log s next, e.step o.state = (log, .next (some s) next) →
    s.terminator = .closeBrace → ∃ source sources a accounts,
      o.state.sources = source :: sources ∧ o.accounts = a :: accounts ∧ a.closed < a.opened ∧
        source.baseDepth < o.state.stack.depth ∧ next.stack.depth + 1 = o.state.stack.depth
  ending : ∀ log next, e.step o.state = (log, .next none next) → ∃ source a accounts,
    o.state.sources = source :: next.sources ∧ o.accounts = a :: accounts ∧ a.closed = a.opened ∧
      o.state.stack.depth = source.baseDepth

namespace Balanced

variable {e : Engine ρ} {o : Observed ρ}

theorem disciplined (h : e.Balanced o) : e.Disciplined o where
  bases := h.settled.pairwise.1
  bottom := h.settled.baseDepth_getLast
  top source hs := h.settled.pairwise.2 source (List.mem_of_mem_head? hs)
  blocks := h.blocks
  includes := h.settled.forall₂
  strategies := h.strategies
  balance := h.balance

theorem exists_account (h : e.Balanced o) {source : Source} {sources : List Source}
    (hs : o.state.sources = source :: sources) :
    ∃ a accounts, o.accounts = a :: accounts ∧
      source.baseDepth + a.opened = o.state.stack.depth + a.closed := by
  have hsettled := h.settled
  rw [hs] at hsettled
  generalize o.accounts = accounts at hsettled
  cases hsettled with
  | @cons _ _ a accounts _ hincludes hlimit hclosed hdepth => exact ⟨a, accounts, rfl, hdepth⟩

theorem contained (h : e.Balanced o) : e.Contained o where
  opening log s next hstep := by
    obtain ⟨source, rest, cursor, opened, hsources, hnext, hhandle, hsources'⟩ :=
      eq_of_step_statement hstep
    have htake : next.sources.take (next.sources.length - o.state.sources.length) = opened := by
      simp [hsources, hsources']
    rw [htake]
    exact fun n hn => ((handles_of_handle hhandle).opened_sources n hn).1
  closing log s next hstep hs := by
    obtain ⟨source, rest, cursor, opened, hsources, hnext, hhandle, hsources'⟩ :=
      eq_of_step_statement hstep
    obtain ⟨hbase, hdepth⟩ := (handles_of_handle hhandle).depth_of_closeBrace hs
    obtain ⟨a, accounts, haccounts, hcount⟩ := h.exists_account hsources
    simp only [Source.advance] at hbase
    exact ⟨source, rest, a, accounts, hsources, haccounts, by omega, hbase, hdepth⟩
  ending log next hstep := by
    obtain ⟨source, rest, cursor, hsources, hnext, hdepth, rfl⟩ := eq_of_step_ended hstep
    obtain ⟨a, accounts, haccounts, hcount⟩ := h.exists_account hsources
    exact ⟨source, a, accounts, hsources, haccounts, by omega, hdepth⟩

theorem depth_eq_zero (h : e.Balanced o) (hs : o.state.sources = []) :
    o.state.stack.depth = 0 := by
  have hsettled := h.settled
  rw [hs] at hsettled
  generalize o.accounts = accounts at hsettled
  generalize o.state.stack.depth = depth at hsettled ⊢
  cases hsettled
  rfl

end Balanced

/-- The discipline holds in every state of every run, and a run that ends well has closed all the
blocks it opened. -/
theorem stack_discipline (e : Engine ρ) [Record ρ] (hr : e.registry.Finalized) (cursor : Cursor)
    (directory : Option Path) :
    (∀ o, e.Reaches (.start (e.opening (.outermost cursor directory))) o →
      e.Disciplined o ∧ e.Contained o) ∧
    ∀ log root, e.run (e.opening (.outermost cursor directory)) = (log, .ok root) →
      ∃ final, e.Reaches (.start (e.opening (.outermost cursor directory))) final ∧
        final.state.sources = [] ∧ root = final.state.stack.bottom.close.complete ∧
        final.state.stack.below = [] ∧ closeBraces final.handled = openBraces final.handled := by
  have hstart := balanced_start e cursor directory
  constructor
  · intro o hreaches
    have hbalanced := hstart.of_reaches hr hreaches
    exact ⟨hbalanced.disciplined, hbalanced.contained⟩
  · intro log root hrun
    obtain ⟨final, hreaches, hsources, hroot⟩ := reaches_of_run hrun
    have hbalanced := hstart.of_reaches hr hreaches
    have hdepth := hbalanced.depth_eq_zero hsources
    have hbalance := hbalanced.balance
    exact ⟨final, hreaches, hsources, hroot, List.eq_nil_of_length_eq_zero hdepth, by omega⟩

theorem stack_discipline_include_in_block :
    let e := Server.engineOver [("a.conf", "server \x7b listen 80; \x7d")]
    let start := e.opening (.outermost (Server.cursorOf "http \x7b include a.conf; \x7d") none)
    e.registry.Finalized ∧ (∀ o, e.Reaches (.start start) o → e.Disciplined o ∧ e.Contained o) ∧
      ∃ final, e.Reaches (.start start) final ∧ final.state.stack.below = [] ∧
        closeBraces final.handled = openBraces final.handled := by
  intro e start
  have hsucceeds : e.succeedsWithin 20 start = true := by decide +kernel
  obtain ⟨log, root, hrun⟩ := exists_run_of_succeedsWithin hsucceeds
  obtain ⟨hreachable, hends⟩ := stack_discipline e Server.finalized_reference
    (Server.cursorOf "http \x7b include a.conf; \x7d") none
  obtain ⟨final, hreaches, -, -, hbelow, hbalance⟩ := hends log root hrun
  exact ⟨Server.finalized_reference, hreachable, final, hreaches, hbelow, hbalance⟩

end Engine

end ScopedConf
