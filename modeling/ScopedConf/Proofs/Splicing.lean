import ScopedConf.Proofs.Discipline
import ScopedConf.Proofs.Recursion

/-! Includes are splices. The statements that a run handles are those of the outermost source with
the statements of the included files in the place of every include that was executed, and without
the includes the engine makes the same of them. -/

namespace ScopedConf

variable {ρ : Type}

mutual

/-- The statements `ss` of a source in `directory`, as they are handled with all that they include,
and the result of replacing every include that was executed. -/
inductive Splices (e : Engine ρ) :
    Option Path → List Statement → List (Statement × Bool) → List Statement → Prop
  | nil {directory : Option Path} : Splices e directory [] [] []
  | plain {directory : Option Path} {s : Statement} {ss spliced : List Statement}
    {handled : List (Statement × Bool)} (rest : Splices e directory ss handled spliced) :
    Splices e directory (s :: ss) ((s, false) :: handled) (s :: spliced)
  | included {source : Source} {s : Statement} {ss spliced inner : List Statement}
    {handled marked : List (Statement × Bool)} {paths : List Path}
    (expand : e.files.expand (source.resolve s.argument) = .ok paths)
    (files : SplicesFiles e paths marked inner)
    (rest : Splices e source.directory ss handled spliced) :
    Splices e source.directory (s :: ss) ((s, true) :: marked ++ handled) (inner ++ spliced)

inductive SplicesFiles (e : Engine ρ) :
    List Path → List (Statement × Bool) → List Statement → Prop
  | nil : SplicesFiles e [] [] []
  | cons {p : Path} {paths : List Path} {bytes : List UInt8} {location : Location}
    {spliced inner : List Statement} {handled marked : List (Statement × Bool)}
    (read : e.files.read p = .ok bytes)
    (ending : (Cursor.ofBytes p.text bytes).stream.ending = .ok location)
    (file : Splices e p.parent? (Cursor.ofBytes p.text bytes).stream.statements marked inner)
    (rest : SplicesFiles e paths handled spliced) :
    SplicesFiles e (p :: paths) (marked ++ handled) (inner ++ spliced)

end

namespace Engine

variable {e : Engine ρ} {source other : Source} {stack next last : Stack ρ} {s : Statement}
  {ss : List Statement} {log : Log} {opened sources : List Source}
  {handled : List (Statement × Bool)}

theorem handle_plain (h : e.handle source stack s = (log, .ok (next, opened)))
    (hplain : e.includesAt stack s = false) :
    opened = [] ∧ ∀ other : Source, other.baseDepth = 0 →
      e.handle other stack s = (log, .ok (next, [])) := by
  obtain ⟨top, below⟩ := stack
  have hhandles := handles_of_handle h
  by_cases hs : s.terminator = .closeBrace
  · cases hhandles with
    | closed =>
      refine ⟨rfl, fun other hbase => ?_⟩
      simp [handle, hs, closeBlock, Stack.depth, hbase, Reported.map, Except.map]
    | handedOver ht => simp [hs] at ht
    | included ht => exact absurd hs ht
    | obeyed ht => exact absurd hs ht
    | opened ht => exact absurd hs ht
  · cases hd : top.dispatch with
    | strategy strategy owner =>
      have hopened : opened = [] := by
        cases hhandles <;> simp_all
      refine ⟨hopened, fun other _ => ?_⟩
      have hother : e.handle other ⟨top, below⟩ s = e.handle source ⟨top, below⟩ s := by
        simp [handle, hs, hd]
      rw [hother, h, hopened]
    | directives =>
      rw [e.handle_directives source below hs hd hplain] at h
      obtain ⟨entered, henter, heq⟩ := Reported.map_eq_ok.mp h
      obtain ⟨rfl, rfl⟩ := Prod.mk.inj heq
      refine ⟨rfl, fun other _ => ?_⟩
      rw [e.handle_directives other below hs hd hplain, henter]
      rfl

inductive Opens (e : Engine ρ) : List Path → List Source → Prop
  | nil : Opens e [] []
  | cons {p : Path} {paths : List Path} {bytes : List UInt8} {sources : List Source}
    (baseDepth includeDepth : Nat) (read : e.files.read p = .ok bytes)
    (rest : Opens e paths sources) :
    Opens e (p :: paths) (Source.ofFile p bytes baseDepth includeDepth :: sources)

theorem opens_of_openFiles {line baseDepth includeDepth : Nat} {paths : List Path}
    (h : e.openFiles line baseDepth includeDepth paths = (log, .ok sources)) :
    e.Opens paths sources := by
  induction paths generalizing log sources with
  | nil =>
    simp only [openFiles, Prod.mk.injEq, Except.ok.injEq] at h
    rw [← h.2]
    exact .nil
  | cons p ps ih =>
    unfold openFiles at h
    split at h
    · simp at h
    · next later hlater =>
      split at h
      · simp at h
      · next bytes hread =>
        simp only [Prod.mk.injEq, Except.ok.injEq] at h
        rw [← h.2]
        exact .cons baseDepth includeDepth hread (ih hlater)

theorem handle_included (hr : e.registry.Finalized)
    (h : e.handle source stack s = (log, .ok (next, opened)))
    (hincluded : e.includesAt stack s = true) :
    next = stack ∧ ∃ paths, e.files.expand (source.resolve s.argument) = .ok paths ∧
      e.Opens paths opened := by
  obtain ⟨hs, hd, hin⟩ := includesAt_iff.mp hincluded
  obtain ⟨m, d, f, haccept, hh⟩ := includesIn_iff.mp hin
  have hsame := (include_of_accept hr haccept hh).2
  obtain ⟨top, below⟩ := stack
  simp only at hd haccept hsame
  simp only [handle, hs, if_false, hd, dispatch_of_accept_ok haccept, hsame, execute, hh,
    Prod.mk.injEq] at h
  obtain ⟨files, hfiles, heq⟩ := Reported.map_eq_ok.mp (Prod.ext rfl h.2)
  obtain ⟨rfl, rfl⟩ := Prod.mk.inj heq
  obtain ⟨paths, later, hpaths, hopen⟩ := includeFiles_eq_ok hfiles
  exact ⟨rfl, paths, hpaths, opens_of_openFiles hopen⟩

/-- The statements that the open sources are yet to deliver, as they are going to be handled. -/
inductive Delivers (e : Engine ρ) : List Source → List (Statement × Bool) → Prop
  | nil : Delivers e [] []
  | cons {source : Source} {sources : List Source} {location : Location}
    {marked handled : List (Statement × Bool)}
    (ending : source.cursor.stream.ending = .ok location)
    (first : Splices e source.directory source.cursor.stream.statements marked (unmarked marked))
    (rest : Delivers e sources handled) :
    Delivers e (source :: sources) (marked ++ handled)

namespace Delivers

theorem ended {cursor : Cursor} (h : e.Delivers sources handled)
    (hnext : source.cursor.next = (.ok none, cursor)) :
    e.Delivers (source :: sources) handled := by
  have hstream := Cursor.stream_of_end hnext
  rw [← List.nil_append handled]
  refine .cons (by rw [hstream]) ?_ h
  rw [hstream]
  exact .nil

theorem plain {cursor : Cursor} (h : e.Delivers (source.advance cursor :: sources) handled)
    (hnext : source.cursor.next = (.ok (some s), cursor)) :
    e.Delivers (source :: sources) ((s, false) :: handled) := by
  have hstream := Cursor.stream_of_statement hnext
  cases h with
  | @cons _ _ location marked handled ending first rest =>
    rw [← List.cons_append]
    refine .cons (by rw [hstream]; exact ending) ?_ rest
    rw [hstream]
    exact .plain first

theorem exists_files {paths : List Path} (hopens : e.Opens paths opened)
    (h : e.Delivers (opened ++ sources) handled) :
    ∃ marked later, handled = marked ++ later ∧ SplicesFiles e paths marked (unmarked marked) ∧
      e.Delivers sources later := by
  induction hopens generalizing handled with
  | nil => exact ⟨[], handled, rfl, .nil, h⟩
  | @cons p paths bytes opened baseDepth includeDepth hread _ ih =>
    cases h with
    | @cons _ _ location marked handled ending first rest =>
      obtain ⟨inner, later, rfl, hinner, hlater⟩ := ih rest
      refine ⟨marked ++ inner, later, (List.append_assoc _ _ _).symm, ?_, hlater⟩
      rw [unmarked_append]
      exact .cons hread ending first hinner

theorem included {cursor : Cursor} {paths : List Path}
    (hexpand : e.files.expand (source.resolve s.argument) = .ok paths)
    (hopens : e.Opens paths opened)
    (h : e.Delivers (opened ++ source.advance cursor :: sources) handled)
    (hnext : source.cursor.next = (.ok (some s), cursor)) :
    e.Delivers (source :: sources) ((s, true) :: handled) := by
  have hstream := Cursor.stream_of_statement hnext
  obtain ⟨marked, later, rfl, hfiles, hlater⟩ := h.exists_files hopens
  cases hlater with
  | @cons _ _ location own handled ending first rest =>
    rw [← List.cons_append, ← List.append_assoc]
    refine .cons (by rw [hstream]; exact ending) ?_ rest
    rw [hstream, List.cons_append, unmarked_included, unmarked_append]
    exact .included hexpand hfiles first

end Delivers

inductive Feeds (e : Engine ρ) : Stack ρ → List Statement → Stack ρ → Prop
  | nil (stack : Stack ρ) : Feeds e stack [] stack
  | cons {stack next last : Stack ρ} {s : Statement} {ss : List Statement}
    (plain : e.includesAt stack s = false)
    (handle : ∀ source, source.baseDepth = 0 →
      ∃ log, e.handle source stack s = (log, .ok (next, [])))
    (rest : Feeds e next ss last) : Feeds e stack (s :: ss) last

namespace Feeds

theorem handles (h : e.Feeds stack (s :: ss) last) :
    e.includesAt stack s = false ∧ ∃ source log next, Handles e source stack s log next [] ∧
      e.Feeds next ss last := by
  cases h with
  | @cons _ next _ _ _ plain handle rest =>
    obtain ⟨log, hhandle⟩ := handle (.outermost (.ofBytes "" []) none) rfl
    exact ⟨plain, _, log, next, handles_of_handle hhandle, rest⟩

theorem feed (h : e.Feeds stack ss last) (source : Source) (hbase : source.baseDepth = 0)
    (ending : Except Failure Location) :
    ∃ log, e.feed source ending stack ss =
      Outcome.bind (log, .ok ()) fun _ => e.feed source ending last [] := by
  induction h with
  | nil => exact ⟨[], rfl⟩
  | @cons stack next last s ss plain handle _ ih =>
    obtain ⟨log, hhandle⟩ := handle source hbase
    obtain ⟨later, hrest⟩ := ih
    have hfeed : e.feed source ending stack (s :: ss) =
        Outcome.bind (log, .ok ()) fun _ => e.feed source ending next ss := by
      rw [Engine.feed, hhandle]
      change Outcome.bind (log, .ok ()) (fun _ => Outcome.bind (e.drain ⟨next, []⟩) _) = _
      rw [drain_nil]
      rfl
    refine ⟨log ++ later, ?_⟩
    rw [hfeed, hrest]
    simp [Outcome.bind]

end Feeds

variable {o final : Observed ρ}

/-- From every state of a run that ends well, the sources deliver what is handled from there on. -/
theorem delivers_of_reaches (hr : e.registry.Finalized) (h : e.Reaches o final)
    (hsources : final.state.sources = []) :
    ∃ handled, final.handled = o.handled ++ handled ∧ e.Delivers o.state.sources handled ∧
      e.Feeds o.state.stack (unmarked handled) final.state.stack := by
  -- Backwards, since an include delivers what is handled between it and the statement behind it.
  induction h using Relation.ReflTransGen.head_induction_on with
  | refl => exact ⟨[], by simp, hsources ▸ .nil, .nil _⟩
  | @head o _ hmove _ ih =>
    obtain ⟨handled, hhandled, hdelivers, hfeeds⟩ := ih
    cases hmove with
    | ended hstep =>
      obtain ⟨source, rest, cursor, hsources, hnext, hdepth, rfl⟩ := eq_of_step_ended hstep
      refine ⟨handled, hhandled, ?_, hfeeds⟩
      rw [hsources]
      exact hdelivers.ended hnext
    | @statement log s next hstep =>
      obtain ⟨source, rest, cursor, opened, hsources, hnext, hhandle, hopened⟩ :=
        eq_of_step_statement hstep
      simp only [Observed.handling] at hhandled hdelivers hfeeds
      refine ⟨(s, e.includesAt o.state.stack s) :: handled, by simp [hhandled], ?_⟩
      rw [hopened] at hdelivers
      rw [hsources]
      cases hincludes : e.includesAt o.state.stack s with
      | false =>
        obtain ⟨rfl, hother⟩ := handle_plain hhandle hincludes
        exact ⟨hdelivers.plain hnext, .cons hincludes
          (fun other hbase => ⟨log, hother other hbase⟩) hfeeds⟩
      | true =>
        obtain ⟨hsame, paths, hexpand, hopens⟩ := handle_included hr hhandle hincludes
        rw [hsame] at hfeeds
        exact ⟨hdelivers.included hexpand hopens hnext, hfeeds⟩

theorem Feeds.to_bottom (h : e.Feeds stack ss last) (hlast : last.depth = 0) (cursor : Cursor)
    (directory : Option Path) (location : Location) :
    ∃ log, e.feed (.outermost cursor directory) (.ok location) stack ss = (log, .ok last) := by
  obtain ⟨log, hfeed⟩ := h.feed (.outermost cursor directory) rfl (.ok location)
  refine ⟨log, ?_⟩
  rw [hfeed]
  simp [Engine.feed, Source.outermost, hlast, Outcome.bind]

theorem exists_splicing {cursor : Cursor} {directory : Option Path} [Record ρ]
    (hr : e.registry.Finalized) {root : Context ρ}
    (hrun : e.run (e.opening (.outermost cursor directory)) = (log, .ok root)) :
    ∃ final, e.Reaches (.start (e.opening (.outermost cursor directory))) final ∧
      final.state.sources = [] ∧ (∃ location, cursor.stream.ending = .ok location) ∧
      Splices e directory cursor.stream.statements final.handled final.spliced ∧
      e.Feeds ⟨Frame.root e.registry, []⟩ final.spliced final.state.stack ∧
      final.state.stack.depth = 0 ∧ root = final.state.stack.bottom.close.complete := by
  obtain ⟨final, hreaches, hsources, hroot⟩ := reaches_of_run hrun
  have hdepth := ((balanced_start e cursor directory).of_reaches hr hreaches).depth_eq_zero hsources
  obtain ⟨handled, hhandled, hdelivers, hfeeds⟩ := delivers_of_reaches hr hreaches hsources
  simp only [Observed.start, opening, List.nil_append] at hhandled hdelivers hfeeds
  refine ⟨final, hreaches, hsources, ?_⟩
  rw [Observed.spliced, hhandled]
  cases hdelivers with
  | @cons _ _ location marked _ ending first rest =>
    cases rest with
    | nil =>
      rw [List.append_nil] at hfeeds ⊢
      exact ⟨⟨location, ending⟩, first, hfeeds, hdepth, hroot⟩

/-- A run that ends well handles its source with everything included spliced in, and one source
that delivers the spliced statements gives the same tree. -/
theorem include_splices (e : Engine ρ) [Record ρ] (hr : e.registry.Finalized) (cursor : Cursor)
    (directory : Option Path) (log : Log) (root : Context ρ)
    (hrun : e.run (e.opening (.outermost cursor directory)) = (log, .ok root)) :
    ∃ final, e.Reaches (.start (e.opening (.outermost cursor directory))) final ∧
      final.state.sources = [] ∧ (∃ location, cursor.stream.ending = .ok location) ∧
      Splices e directory cursor.stream.statements final.handled final.spliced ∧
      (∀ cursor' directory' location, ∃ log', e.runStream (.outermost cursor' directory')
        ⟨final.spliced, .ok location⟩ = (log', .ok root)) ∧
      ∀ cursor' directory' location, cursor'.stream = ⟨final.spliced, .ok location⟩ →
        ∃ log', e.run (e.opening (.outermost cursor' directory')) = (log', .ok root) := by
  obtain ⟨final, hreaches, hsources, hending, hsplices, hfeeds, hdepth, rfl⟩ :=
    exists_splicing hr hrun
  have hstream : ∀ cursor' directory' location, ∃ log', e.runStream
      (.outermost cursor' directory') ⟨final.spliced, .ok location⟩ =
        (log', .ok final.state.stack.bottom.close.complete) := by
    intro cursor' directory' location
    obtain ⟨log', hfeed⟩ := hfeeds.to_bottom hdepth cursor' directory' location
    exact ⟨log', by simp [runStream, hfeed, Outcome.bind, Outcome.pure]⟩
  refine ⟨final, hreaches, hsources, hending, hsplices, hstream, ?_⟩
  intro cursor' directory' location hcursor
  obtain ⟨log', hrun'⟩ := hstream cursor' directory' location
  refine ⟨log', ?_⟩
  rw [run_eq_runStream, ← hrun', ← hcursor]
  rfl

theorem include_splices_nested :
    let e := Server.engineOver [("http.conf", "include sites/*.conf; root /srv;"),
      ("sites/a.conf", "server \x7b listen 80; \x7d"), ("sites/b.conf", "sendfile on;")]
    let source := Source.outermost (Server.cursorOf "http \x7b include http.conf; \x7d") none
    e.registry.Finalized ∧ ∃ log root, e.run (e.opening source) = (log, .ok root) ∧
      ∃ final, e.Reaches (.start (e.opening source)) final ∧
        Splices e none source.cursor.stream.statements final.handled final.spliced := by
  intro e source
  have hsucceeds : e.succeedsWithin 20 (e.opening source) = true := by decide +kernel
  obtain ⟨log, root, hrun⟩ := exists_run_of_succeedsWithin hsucceeds
  obtain ⟨final, hreaches, -, -, hsplices, -⟩ :=
    include_splices e Server.finalized_reference _ none log root hrun
  exact ⟨Server.finalized_reference, log, root, hrun, final, hreaches, hsplices⟩

end Engine

end ScopedConf
