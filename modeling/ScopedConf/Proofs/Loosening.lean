import ScopedConf.Engine.Parse
import ScopedConf.Proofs.Server.Reference
import ScopedConf.Proofs.Streams

/-! Looser options. A limit, and the refusal of names that are declared twice, can only end a parse:
what goes well under some options goes the same way under looser ones. -/

namespace ScopedConf

variable {ρ : Type}

/-- Deeper nesting is let pass, and where names declared twice were refused they may be taken from
the module that is registered first. -/
structure ParseOptions.LoosenedTo (o looser : ParseOptions) : Prop where
  blocks : o.maxBlockDepth ≤ looser.maxBlockDepth
  includes : o.maxIncludeDepth ≤ looser.maxIncludeDepth
  ambiguity : looser.ambiguity = o.ambiguity ∨
    o.ambiguity = .refuse ∧ looser.ambiguity = .firstRegistered

namespace Engine

def under (e : Engine ρ) (options : ParseOptions) : Engine ρ :=
  { e with options := options }

variable {e : Engine ρ} {options : ParseOptions} {source : Source} {stack : Stack ρ}
  {s : Statement} {log : Log}

theorem lookUp_under (h : e.options.LoosenedTo options) {f : Frame ρ} {name : String}
    {found : Registry.Entry ρ × Directive ρ} (hfound : e.lookUp f name = .ok found) :
    (e.under options).lookUp f name = .ok found := by
  have hregistry : (e.under options).registry = e.registry := rfl
  have hoptions : (e.under options).options = options := rfl
  unfold lookUp at hfound ⊢
  simp only [hregistry, hoptions] at hfound ⊢
  generalize (e.registry.directivesIn f.kind f.moduleTag).filter _ = candidates at hfound ⊢
  match candidates with
  | [] => simp at hfound
  | [one] => exact hfound
  | first :: second :: more =>
    -- Two candidates pass only where the first one is taken, and then it is taken here as well.
    cases hown : e.options.ambiguity with
    | refuse => simp [hown] at hfound
    | firstRegistered =>
      have hlooser : options.ambiguity = .firstRegistered := by
        rcases h.ambiguity with hsame | ⟨hrefuse, -⟩
        · exact hsame.trans hown
        · simp [hown] at hrefuse
      simp only [hown] at hfound
      simpa only [hlooser] using hfound

theorem openBlock_under (h : e.options.LoosenedTo options) {owner : Nat}
    {block : Option (BlockSpec ρ)} {next : Stack ρ}
    (hopen : e.openBlock stack owner block s = (log, .ok next)) :
    (e.under options).openBlock stack owner block s = (log, .ok next) := by
  have hregistry : (e.under options).registry = e.registry := rfl
  have hoptions : (e.under options).options = options := rfl
  unfold openBlock at hopen ⊢
  cases block with
  | none => exact hopen
  | some spec =>
    simp only [hregistry, hoptions] at hopen ⊢
    split at hopen
    · simp at hopen
    · next hlimit =>
      have hblocks := h.blocks
      rwa [if_neg (by omega)]

theorem openFiles_under (e : Engine ρ) (options : ParseOptions)
    (line baseDepth includeDepth : Nat) (paths : List Path) :
    (e.under options).openFiles line baseDepth includeDepth paths =
      e.openFiles line baseDepth includeDepth paths := by
  have hfiles : (e.under options).files = e.files := rfl
  induction paths with
  | nil => rfl
  | cons p paths ih => simp only [openFiles, ih, hfiles]

theorem includeFiles_under (h : e.options.LoosenedTo options) {depth : Nat}
    {opened : List Source} (hfiles : e.includeFiles source depth s = (log, .ok opened)) :
    (e.under options).includeFiles source depth s = (log, .ok opened) := by
  have hsame : (e.under options).files = e.files := rfl
  have hoptions : (e.under options).options = options := rfl
  unfold includeFiles at hfiles ⊢
  simp only [hsame, hoptions, openFiles_under] at hfiles ⊢
  split at hfiles
  · simp at hfiles
  · next hlimit =>
    have hincludes := h.includes
    rwa [if_neg (by omega)]

theorem execute_under (h : e.options.LoosenedTo options) {m : Registry.Entry ρ}
    {d : Directive ρ} {result : Stack ρ × List Source}
    (hexecute : e.execute source stack m d s = (log, .ok result)) :
    (e.under options).execute source stack m d s = (log, .ok result) := by
  unfold execute at hexecute ⊢
  cases hhandler : d.handler with
  | includeFiles =>
    simp only [hhandler] at hexecute ⊢
    obtain ⟨opened, hopened, heq⟩ := Reported.map_eq_ok.mp hexecute
    exact Reported.map_eq_ok.mpr ⟨opened, includeFiles_under h hopened, heq⟩
  | none =>
    simp only [hhandler] at hexecute ⊢
    obtain ⟨next, hnext, heq⟩ := Reported.map_eq_ok.mp hexecute
    exact Reported.map_eq_ok.mpr ⟨next, openBlock_under h hnext, heq⟩
  | slot set =>
    simp only [hhandler] at hexecute ⊢
    cases hstore : stack.top.store m.id.index d set s with
    | error cause => simp [hstore] at hexecute
    | ok top =>
      simp only [hstore] at hexecute ⊢
      obtain ⟨next, hnext, heq⟩ := Reported.map_eq_ok.mp hexecute
      exact Reported.map_eq_ok.mpr ⟨next, openBlock_under h hnext, heq⟩

theorem dispatch_under (h : e.options.LoosenedTo options) {result : Stack ρ × List Source}
    (hdispatch : e.dispatch source stack s = (log, .ok result)) :
    (e.under options).dispatch source stack s = (log, .ok result) := by
  unfold dispatch at hdispatch ⊢
  cases hlookUp : e.lookUp stack.top s.name with
  | error cause => simp [hlookUp] at hdispatch
  | ok found =>
    obtain ⟨m, d⟩ := found
    simp only [hlookUp, lookUp_under h hlookUp] at hdispatch ⊢
    cases huse : stack.top.admitUse d s with
    | error cause => simp [huse] at hdispatch
    | ok top =>
      simp only [huse, Prod.mk.injEq] at hdispatch ⊢
      obtain ⟨hlog, hresult⟩ := hdispatch
      have hexecute := execute_under h (Prod.ext rfl hresult)
      rw [hexecute]
      exact ⟨hlog, rfl⟩

theorem handle_under (h : e.options.LoosenedTo options) {result : Stack ρ × List Source}
    (hhandle : e.handle source stack s = (log, .ok result)) :
    (e.under options).handle source stack s = (log, .ok result) := by
  unfold handle at hhandle ⊢
  split at hhandle
  · next hs => rwa [if_pos hs]
  · next hs =>
    rw [if_neg hs]
    split at hhandle
    · exact hhandle
    · exact dispatch_under h hhandle

theorem step_under (h : e.options.LoosenedTo options) {state next : State ρ}
    {s? : Option Statement} (hstep : e.step state = (log, .next s? next)) :
    (e.under options).step state = (log, .next s? next) := by
  unfold step at hstep ⊢
  split at hstep
  · simp at hstep
  · split at hstep
    · simp at hstep
    · exact hstep
    · split at hstep
      · simp at hstep
      · next hhandle =>
        rw [handle_under h hhandle]
        exact hstep

theorem step_under_of_done {state : State ρ} (hstep : e.step state = (log, .done)) :
    (e.under options).step state = (log, .done) := by
  obtain ⟨rfl, hsources⟩ := eq_of_step_done hstep
  simp only [step, hsources]

theorem drain_under (h : e.options.LoosenedTo options) {state : State ρ}
    (hdrain : e.drain state = (log, .ok stack)) :
    (e.under options).drain state = (log, .ok stack) := by
  fun_induction drain e state generalizing log with
  | case1 state log' hstep => rw [drain_of_done (step_under_of_done hstep), hdrain]
  | case2 => simp at hdrain
  | case3 state log' s? next hstep later result hlater ih =>
    obtain ⟨rfl, rfl⟩ := Prod.mk.inj hdrain
    rw [drain_of_next (step_under h hstep), Outcome.bind, ih hlater]

theorem parseSource_under [Record ρ] (h : e.options.LoosenedTo options) {root : Context ρ}
    (hparse : e.parseSource source = (log, .ok root)) :
    (e.under options).parseSource source = (log, .ok root) := by
  have hregistry : (e.under options).registry = e.registry := rfl
  unfold parseSource run at hparse ⊢
  cases hdrain : e.drain ⟨⟨Frame.root e.registry, []⟩, [source]⟩ with
  | mk drained result =>
    rw [hdrain] at hparse
    cases result with
    | error f => simp [concluded, Except.map] at hparse
    | ok stack => rwa [hregistry, drain_under h hdrain]

/-- What is parsed well is parsed the same under looser options: to the same tree, and with the same
reports on the way, warnings among them. -/
theorem parse_under_looser [Record ρ] (e : Engine ρ) (options : ParseOptions)
    (h : e.options.LoosenedTo options) :
    (∀ name text log root, e.parseText name text = (log, .ok root) →
      (e.under options).parseText name text = (log, .ok root)) ∧
    ∀ p log root, e.parseFile p = (log, .ok root) →
      (e.under options).parseFile p = (log, .ok root) := by
  refine ⟨fun name text log root hparse => parseSource_under h hparse, fun p log root hparse => ?_⟩
  have hfiles : (e.under options).files = e.files := rfl
  unfold parseFile at hparse ⊢
  rw [hfiles]
  cases hread : e.files.read p with
  | error f => simp [hread, concluded] at hparse
  | ok bytes =>
    simp only [hread] at hparse ⊢
    exact parseSource_under h hparse

theorem parse_under_looser_tight_limits :
    let e : Engine Server.Settings :=
      { Server.engineOver [("a.conf", "server \x7b listen 80; \x7d")] with
        options := { maxIncludeDepth := 1, maxBlockDepth := 2 } }
    let options : ParseOptions :=
      { maxIncludeDepth := 4, maxBlockDepth := 8, ambiguity := .firstRegistered }
    let text := "http \x7b include none/*.conf; include a.conf; \x7d"
    e.options.LoosenedTo options ∧ ∃ log root,
      e.parseText "server.conf" text = (log, .ok root) ∧
        (e.under options).parseText "server.conf" text = (log, .ok root) := by
  intro e options text
  have hlooser : e.options.LoosenedTo options :=
    ⟨by decide, by decide, .inr ⟨rfl, rfl⟩⟩
  have hsucceeds : e.succeedsWithin 20
      (e.opening (.ofText "server.conf" (Utf8.encode text.toList))) = true := by decide +kernel
  obtain ⟨drained, root, hrun⟩ := exists_run_of_succeedsWithin hsucceeds
  have hparse : e.parseText "server.conf" text = _ := congrArg (concluded "server.conf") hrun
  exact ⟨hlooser, _, root, hparse, (parse_under_looser e options hlooser).1 _ _ _ root hparse⟩

end Engine

end ScopedConf
