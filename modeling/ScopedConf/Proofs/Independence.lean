import ScopedConf.Engine.Parse
import ScopedConf.Proofs.Erasure
import ScopedConf.Proofs.Runs
import ScopedConf.Proofs.Server.Reference
import ScopedConf.Proofs.Streams

/-! A further module does not disturb the others. A parse that goes well, or fails in any way but on
an unknown directive, ends the same under a registry that has one module more, apart from the
records that this module keeps. -/

namespace ScopedConf

variable {ρ : Type} {index : Nat}

/-- The larger registry has the module `m` as well, behind all others, in the place `index`. -/
structure Registry.Extends (r larger : Registry ρ) (m : Module ρ) (index : Nat) : Prop where
  entries : ∃ id, id.index = index ∧ larger.entries = r.entries ++ [⟨id, m⟩]
  earlier : ∀ entry ∈ r.entries, entry.id.index ≠ index

theorem Draft.place_append_singleton (before : List (Registry.Entry ρ)) (ms : List (Module ρ))
    (m : Module ρ) :
    ∃ id : ModuleId, id.index = (place before ms).length ∧
      place before (ms ++ [m]) = place before ms ++ [⟨id, m⟩] := by
  induction ms generalizing before with
  | nil => exact ⟨_, rfl, rfl⟩
  | cons first ms ih => exact ih _

theorem Draft.index_lt_of_place {before : List (Registry.Entry ρ)} {ms : List (Module ρ)}
    (h : ∀ entry ∈ before, entry.id.index < before.length) :
    ∀ entry ∈ place before ms, entry.id.index < (place before ms).length := by
  induction ms generalizing before with
  | nil => exact h
  | cons m ms ih =>
    refine ih fun entry hentry => ?_
    rw [List.length_append, List.length_singleton]
    rcases List.mem_append.mp hentry with hentry | hentry
    · exact Nat.lt_succ_of_lt (h entry hentry)
    · rw [List.mem_singleton.mp hentry]
      exact Nat.lt_succ_self _

theorem Draft.extends_of_finish {d next : Draft ρ} {m : Module ρ} {events later : List Event}
    {r larger : Registry ρ} (hregister : d.register m = .ok next)
    (hfinish : d.finish = (events, .ok r)) (hlarger : next.finish = (later, .ok larger)) :
    r.Extends larger m r.entries.length := by
  obtain ⟨-, hentries⟩ := eq_of_finish hfinish
  obtain ⟨-, hmore⟩ := eq_of_finish hlarger
  rw [modules_of_register hregister] at hmore
  obtain ⟨id, hid, hplace⟩ := place_append_singleton [] d.modules m
  refine ⟨⟨id, by rw [hid, hentries], by rw [hmore, hplace, hentries]⟩, fun entry hentry => ?_⟩
  rw [hentries] at hentry ⊢
  exact Nat.ne_of_lt (index_lt_of_place (by simp) entry hentry)

def Unknown {α : Type} (r : Except Failure α) : Prop :=
  ∃ f name, r = .error f ∧ f.cause = .unknownDirective name

namespace Registry.Extends

variable {r larger : Registry ρ} {m : Module ρ}

theorem freshRecords (h : r.Extends larger m index) (context : ContextSet) (tag : ModuleTag) :
    r.freshRecords context tag =
      Held.without index (larger.freshRecords context tag) := by
  obtain ⟨id, hid, hentries⟩ := h.entries
  have hkeep : Held.without index (r.freshRecords context tag) =
      r.freshRecords context tag := by
    refine List.filter_eq_self.mpr fun held hheld => ?_
    obtain ⟨entry, hentry, hrecord⟩ := List.mem_filterMap.mp hheld
    obtain ⟨record, -, rfl⟩ := Option.map_eq_some_iff.mp hrecord
    simpa using h.earlier entry (List.mem_filter.mp hentry).1
  have hdrop : Held.without index
      (Registry.freshRecords ⟨[⟨id, m⟩]⟩ context tag) = [] := by
    refine List.filter_eq_nil_iff.mpr fun held hheld => ?_
    obtain ⟨entry, hentry, hrecord⟩ := List.mem_filterMap.mp hheld
    obtain ⟨record, -, rfl⟩ := Option.map_eq_some_iff.mp hrecord
    obtain rfl := List.mem_singleton.mp (List.mem_filter.mp hentry).1
    simpa using hid
  have happend : larger.freshRecords context tag =
      r.freshRecords context tag ++ Registry.freshRecords ⟨[⟨id, m⟩]⟩ context tag := by
    rw [Registry.freshRecords, hentries, List.filter_append, List.filterMap_append]
    rfl
  rw [happend, Held.without_append, hkeep, hdrop, List.append_nil]

theorem directivesIn (h : r.Extends larger m index) (context : ContextSet) (tag : ModuleTag) :
    ∃ own : List (Entry ρ × Directive ρ),
      larger.directivesIn context tag = r.directivesIn context tag ++ own ∧
        ∀ pair ∈ own, pair.2 ∈ m.directives := by
  obtain ⟨id, -, hentries⟩ := h.entries
  refine ⟨Registry.directivesIn ⟨[⟨id, m⟩]⟩ context tag, ?_, fun pair hpair => ?_⟩
  · rw [Registry.directivesIn, hentries, List.filter_append, List.flatMap_append]
    rfl
  · obtain ⟨hentry, hdirective⟩ := mem_entries_of_directivesIn hpair
    obtain heq := List.mem_singleton.mp hentry
    rwa [heq] at hdirective

end Registry.Extends

def Engine.on (e : Engine ρ) (r : Registry ρ) : Engine ρ :=
  { e with registry := r }

/-- Which directive a name means does not change with the directives of `m`: the first one counts,
or `m` declares none of the names that are in use. -/
def Engine.Unambiguous (e : Engine ρ) (m : Module ρ) : Prop :=
  e.options.ambiguity = .firstRegistered ∨
    ∀ entry ∈ e.registry.entries, ∀ d ∈ entry.module.directives, ∀ own ∈ m.directives,
      own.name ≠ d.name

def Frame.Spares (index : Nat) (f : Frame ρ) : Prop :=
  ∀ handle owner, f.dispatch = .strategy handle owner → owner ≠ index

def Stack.Spares (index : Nat) (stack : Stack ρ) : Prop :=
  stack.top.Spares index ∧ ∀ f ∈ stack.below, f.Spares index

theorem Frame.spares_of_header {f g : Frame ρ} (h : f.Spares index)
    (hheader : g.header = f.header) : g.Spares index := by
  unfold Spares
  rwa [dispatch_of_header hheader]

theorem Frame.spares_ofBlock (r : Registry ρ) {owner : Nat} (h : owner ≠ index)
    (spec : BlockSpec ρ) (s : Statement) : (Frame.ofBlock r owner spec s).Spares index := by
  intro handle other hdispatch
  cases hspec : spec.strategy with
  | none => simp [ofBlock, hspec] at hdispatch
  | some strategy =>
    simp only [ofBlock, hspec, Dispatch.strategy.injEq] at hdispatch
    exact hdispatch.2 ▸ h

theorem Stack.spares_without {stack : Stack ρ} :
    (stack.without index).Spares index ↔ stack.Spares index := by
  have hframe : ∀ f : Frame ρ, (f.without index).Spares index ↔ f.Spares index := fun _ => .rfl
  simp [Spares, without, hframe]

namespace Engine

variable {e : Engine ρ} {larger : Registry ρ} {m : Module ρ}

theorem lookUp_on (h : e.registry.Extends larger m index) (hnames : e.Unambiguous m) (f : Frame ρ)
    (name : String) :
    e.lookUp (f.without index) name = .error (.unknownDirective name) ∨
      e.lookUp (f.without index) name = (e.on larger).lookUp f name := by
  obtain ⟨own, hdirectives, hown⟩ := h.directivesIn f.kind f.moduleTag
  have hlookUp : e.lookUp (f.without index) name = e.lookUp f name := rfl
  rw [hlookUp]
  have hcandidates : ((e.on larger).registry.directivesIn f.kind f.moduleTag).filter
      (fun pair => pair.2.name == name) =
      (e.registry.directivesIn f.kind f.moduleTag).filter (fun pair => pair.2.name == name) ++
        own.filter fun pair => pair.2.name == name := by
    rw [← List.filter_append, ← hdirectives]
    rfl
  unfold lookUp
  rw [hcandidates]
  cases hfound : (e.registry.directivesIn f.kind f.moduleTag).filter fun pair => pair.2.name == name
  with
  | nil => exact .inl rfl
  | cons first rest =>
    refine .inr ?_
    have hoptions : (e.on larger).options = e.options := rfl
    rcases hnames with hfirst | hnames
    · cases rest <;> cases own.filter fun pair => pair.2.name == name <;> simp [hoptions, hfirst]
    · have hmem := List.mem_filter.mp (hfound ▸ List.mem_cons_self : first ∈ List.filter _ _)
      obtain ⟨hentry, hdirective⟩ := Registry.mem_entries_of_directivesIn hmem.1
      have hnone : own.filter (fun pair => pair.2.name == name) = [] := by
        refine List.filter_eq_nil_iff.mpr fun pair hpair hname => ?_
        have hdiffer := hnames first.1 hentry first.2 hdirective pair.2 (hown pair hpair)
        exact hdiffer ((beq_iff_eq.mp hname).trans (beq_iff_eq.mp hmem.2).symm)
      rw [hnone, List.append_nil, hoptions]

theorem index_ne_of_lookUp (h : e.registry.Extends larger m index) {f : Frame ρ} {name : String}
    {entry : Registry.Entry ρ} {d : Directive ρ} (hlookUp : e.lookUp f name = .ok (entry, d)) :
    entry.id.index ≠ index :=
  h.earlier entry (Registry.mem_entries_of_directivesIn (mem_of_lookUp hlookUp).1).1

def reportWithout (index : Nat) (r : Reported (Stack ρ × List Source)) :
    Reported (Stack ρ × List Source) :=
  r.map fun (stack, opened) => (stack.without index, opened)

theorem openFiles_on (e : Engine ρ) (larger : Registry ρ) (line baseDepth includeDepth : Nat)
    (paths : List Path) :
    (e.on larger).openFiles line baseDepth includeDepth paths =
      e.openFiles line baseDepth includeDepth paths := by
  induction paths with
  | nil => rfl
  | cons p paths ih =>
    rw [openFiles, openFiles, ih]
    rfl

theorem includeFiles_on (e : Engine ρ) (larger : Registry ρ) (source : Source) (depth : Nat)
    (s : Statement) :
    (e.on larger).includeFiles source depth s = e.includeFiles source depth s := by
  unfold includeFiles
  simp only [openFiles_on]
  rfl

theorem root_on (h : e.registry.Extends larger m index) :
    Frame.root e.registry = (Frame.root larger).without index := by
  rw [Frame.root, h.freshRecords]
  rfl

theorem ofBlock_on (h : e.registry.Extends larger m index) (owner : Nat) (spec : BlockSpec ρ)
    (s : Statement) :
    Frame.ofBlock e.registry owner spec s =
      (Frame.ofBlock larger owner spec s).without index := by
  cases hspec : spec.strategy with
  | none =>
    simp only [Frame.ofBlock, hspec, h.freshRecords]
    rfl
  | some handle =>
    simp only [Frame.ofBlock, hspec]
    rfl

theorem openBlock_on (h : e.registry.Extends larger m index) (stack : Stack ρ) (owner : Nat)
    (block : Option (BlockSpec ρ)) (s : Statement) :
    e.openBlock (stack.without index) owner block s =
      ((e.on larger).openBlock stack owner block s).map
        (Stack.without index) := by
  cases block with
  | none => rfl
  | some spec =>
    have hoptions : (e.on larger).options = e.options := rfl
    simp only [openBlock, Stack.depth_without, ofBlock_on h, hoptions]
    split <;> rfl

theorem execute_on (h : e.registry.Extends larger m index) (source : Source) (stack : Stack ρ)
    {entry : Registry.Entry ρ} (hentry : entry.id.index ≠ index)
    (d : Directive ρ) (s : Statement) :
    e.execute source (stack.without index) entry d s =
      reportWithout index ((e.on larger).execute source stack entry d s) := by
  unfold execute
  cases d.handler with
  | includeFiles =>
    simp only [includeFiles_on, Stack.depth_without, reportWithout, Reported.map_map]
  | none => simp only [openBlock_on h, reportWithout, Reported.map_map]
  | slot set =>
    have hstore : (stack.without index).top.store entry.id.index d set s = _ :=
      stack.top.store_without hentry d set s
    simp only [hstore]
    cases stack.top.store entry.id.index d set s with
    | error cause => rfl
    | ok top =>
      have hopen := openBlock_on h ⟨top, stack.below⟩ entry.id.index d.block s
      simp only [Except.map, reportWithout, Reported.map_map]
      change (e.openBlock (Stack.without index ⟨top, stack.below⟩) _ _ _).map _ = _
      rw [hopen, Reported.map_map]

theorem dispatch_on (h : e.registry.Extends larger m index) (hnames : e.Unambiguous m)
    (source : Source) (stack : Stack ρ) (s : Statement) :
    Unknown (e.dispatch source (stack.without index) s).2 ∨
      e.dispatch source (stack.without index) s =
        reportWithout index ((e.on larger).dispatch source stack s) := by
  unfold dispatch
  rcases lookUp_on h hnames stack.top s.name with hunknown | hsame
  · have hnone : e.lookUp (stack.without index).top s.name = _ := hunknown
    rw [hnone]
    exact .inl ⟨_, s.name, rfl, rfl⟩
  · refine .inr ?_
    have hlookUp : e.lookUp (stack.without index).top s.name = _ := hsame
    rw [hlookUp]
    cases hfound : (e.on larger).lookUp stack.top s.name with
    | error cause => rfl
    | ok found =>
      obtain ⟨entry, d⟩ := found
      have hentry := index_ne_of_lookUp h (hlookUp.trans hfound)
      have haccepted : (stack.without index).top.admitUse d s = _ := stack.top.admitUse_without d s
      simp only [haccepted]
      cases stack.top.admitUse d s with
      | error cause => rfl
      | ok top =>
        have hexecute := execute_on h source ⟨top, stack.below⟩ hentry d s
        simp only [Except.map]
        change (_ :: (e.execute source (Stack.without index ⟨top, stack.below⟩) entry d s).1,
          (e.execute source (Stack.without index ⟨top, stack.below⟩) entry d s).2) = _
        rw [hexecute]
        rfl

theorem closeBlock_without (source : Source) (stack : Stack ρ) (s : Statement) :
    closeBlock source (stack.without index) s =
      (closeBlock source stack s).map (Stack.without index) := by
  unfold closeBlock
  rw [Stack.depth_without]
  split
  · rfl
  · obtain ⟨top, below⟩ := stack
    cases below with
    | nil => rfl
    | cons outer below =>
      have habsorb : (outer.without index).absorb (top.without index) =
          (outer.absorb top).without index := outer.absorb_without top
      simp only [Stack.without, List.map_cons, habsorb]
      rfl

theorem handOver_without {handle : Strategy ρ} {owner : Nat} (howner : owner ≠ index)
    (stack : Stack ρ) (s : Statement) :
    handOver handle owner (stack.without index) s =
      (handOver handle owner stack s).map (Stack.without index) := by
  unfold handOver
  split
  · rfl
  · obtain ⟨top, below⟩ := stack
    cases below with
    | nil => rfl
    | cons outer below =>
      have hchange := outer.change_without howner fun r => (handle s r).map fun r => ((), r)
      simp only [Stack.without, List.map_cons, hchange]
      cases outer.change owner fun r => (handle s r).map fun r => ((), r) <;> rfl

theorem handle_on (h : e.registry.Extends larger m index) (hnames : e.Unambiguous m)
    (source : Source) {stack : Stack ρ} (hspares : stack.Spares index) (s : Statement) :
    Unknown (e.handle source (stack.without index) s).2 ∨
      e.handle source (stack.without index) s =
        reportWithout index ((e.on larger).handle source stack s) := by
  unfold handle
  split
  · refine .inr ?_
    rw [closeBlock_without, reportWithout, Reported.map_map, Reported.map_map]
  · have hdispatch : (stack.without index).top.dispatch = stack.top.dispatch := rfl
    rw [hdispatch]
    cases htop : stack.top.dispatch with
    | directives => exact dispatch_on h hnames source stack s
    | strategy handle owner =>
      refine .inr ?_
      have howner := hspares.1 handle owner htop
      simp only [handOver_without howner]
      cases handOver handle owner stack s <;> rfl

theorem spares_of_handle (hindex : ∀ entry ∈ e.registry.entries, entry.id.index ≠ index)
    {source : Source} {stack next : Stack ρ} {s : Statement} {log : Log} {opened : List Source}
    (h : e.handle source stack s = (log, .ok (next, opened))) (hspares : stack.Spares index) :
    next.Spares index := by
  obtain ⟨htop, hbelow⟩ := hspares
  cases handles_of_handle h with
  | closed hs hdepth =>
    obtain ⟨houter, hrest⟩ := List.forall_mem_cons.mp hbelow
    refine ⟨?_, hrest⟩
    unfold Frame.absorb
    split <;> exact houter
  | handedOver hs hd hchange =>
    obtain ⟨houter, hrest⟩ := List.forall_mem_cons.mp hbelow
    have hheader := (Frame.updated_of_change hchange).header
    exact ⟨htop, List.forall_mem_cons.mpr ⟨Frame.spares_of_header houter hheader, hrest⟩⟩
  | included hs hd haccept hh hfiles =>
    exact ⟨Frame.spares_of_header htop (header_of_accept haccept), hbelow⟩
  | obeyed hs hd haccept hh hobey hblock =>
    exact ⟨Frame.spares_of_header htop (header_of_obey haccept hobey), hbelow⟩
  | opened hs hd haccept hh hobey hblock hlimit =>
    have howner := hindex _ (mem_of_accept haccept).1
    have hheader := header_of_obey haccept hobey
    exact ⟨Frame.spares_ofBlock e.registry howner _ _,
      List.forall_mem_cons.mpr ⟨Frame.spares_of_header htop hheader, hbelow⟩⟩

theorem spares_of_step (hindex : ∀ entry ∈ e.registry.entries, entry.id.index ≠ index)
    {state next : State ρ} {log : Log} {s? : Option Statement}
    (h : e.step state = (log, .next s? next)) (hspares : state.stack.Spares index) :
    next.stack.Spares index := by
  cases s? with
  | none =>
    obtain ⟨source, rest, cursor, -, -, -, rfl⟩ := eq_of_step_ended h
    exact hspares
  | some s =>
    obtain ⟨source, rest, cursor, opened, -, -, hhandle, -⟩ := eq_of_step_statement h
    exact spares_of_handle hindex hhandle hspares

/-- The second step leads where the first one does, with records of a module added; or the first one
fails at a directive that no module knows. -/
inductive Mirrors (index : Nat) : Step ρ → Step ρ → Prop
  | unknown {f : Failure} {name : String} (hname : f.cause = .unknownDirective name)
    (other : Step ρ) : Mirrors index (.failed f) other
  | done : Mirrors index .done .done
  | failed (f : Failure) : Mirrors index (.failed f) (.failed f)
  | next (s? : Option Statement) (state : State ρ) :
    Mirrors index (.next s? ⟨state.stack.without index, state.sources⟩) (.next s? state)

theorem step_on (h : e.registry.Extends larger m index) (hnames : e.Unambiguous m)
    {stack : Stack ρ} (sources : List Source) (hspares : stack.Spares index) :
    Mirrors index (e.step ⟨stack.without index, sources⟩).2
      ((e.on larger).step ⟨stack, sources⟩).2 := by
  cases sources with
  | nil => exact .done
  | cons source rest =>
    cases hnext : source.cursor.next with
    | mk read cursor =>
      match read with
      | .error f =>
        simp only [step, hnext]
        exact .failed f
      | .ok none =>
        rw [e.step_of_end _ rest hnext, (e.on larger).step_of_end _ rest hnext,
          Stack.depth_without]
        split
        · exact .next none ⟨stack, rest⟩
        · exact .failed _
      | .ok (some s) =>
        rw [e.step_of_statement _ rest hnext, (e.on larger).step_of_statement _ rest hnext]
        rcases handle_on h hnames source hspares s with ⟨f, name, hf, hname⟩ | hsame
        · cases hhandle : e.handle source (stack.without index) s with
          | mk log result =>
            rw [hhandle] at hf
            obtain rfl : result = .error f := hf
            have hcause : (f.orAt s.location).cause = .unknownDirective name := hname
            exact .unknown hcause _
        · rw [hsame]
          cases (e.on larger).handle source stack s with
          | mk log result =>
            cases result with
            | error f => exact .failed _
            | ok handled => exact .next (some s) ⟨handled.1, _⟩

theorem drain_on (h : e.registry.Extends larger m index) (hnames : e.Unambiguous m)
    {stack : Stack ρ} (sources : List Source) (hspares : stack.Spares index) :
    Unknown (e.drain ⟨stack.without index, sources⟩).2 ∨
      (e.drain ⟨stack.without index, sources⟩).2 =
        ((e.on larger).drain ⟨stack, sources⟩).2.map (Stack.without index) := by
  generalize hstart : (⟨stack.without index, sources⟩ : State ρ) = start
  have hmirrors := step_on h hnames sources hspares
  obtain ⟨other, result, hother⟩ : ∃ other result,
      (e.on larger).step ⟨stack, sources⟩ = (other, result) := ⟨_, _, rfl⟩
  rw [hstart, hother] at hmirrors
  fun_induction drain e start generalizing stack sources other result with
  | case1 start log hdone =>
    subst hstart
    rw [hdone] at hmirrors
    cases hmirrors with
    | done =>
      rw [drain_of_done hother]
      exact .inr rfl
  | case2 start log f hfailed =>
    rw [hfailed] at hmirrors
    cases hmirrors with
    | unknown hname => exact .inl ⟨f, _, rfl, hname⟩
    | failed =>
      rw [drain_of_failed hother]
      exact .inr rfl
  | case3 start log s? next hstep later result hdrain ih =>
    subst hstart
    have hnext := spares_of_step h.earlier hstep (Stack.spares_without.mpr hspares)
    rw [hstep] at hmirrors
    cases hmirrors with
    | next s? state =>
      have hstate := Stack.spares_without.mp hnext
      rw [drain_of_next hother]
      rw [hdrain] at ih
      exact ih state.sources hstate rfl _ _ (step_on h hnames state.sources hstate) rfl

def Preserved (index : Nat) : Except Failure (Context ρ) → Except Failure (Context ρ) → Prop
  | .ok root, other => ∃ larger, other = .ok larger ∧ larger.without index = root
  | .error f, other => (∀ name, f.cause ≠ .unknownDirective name) → other = .error f

theorem preserved_parseSource [Record ρ] (h : e.registry.Extends larger m index)
    (hnames : e.Unambiguous m) (source : Source) :
    Preserved index (e.parseSource source).2 ((e.on larger).parseSource source).2 := by
  have hroot : (Frame.root larger).Spares index := by
    intro handle owner hdispatch
    simp [Frame.root] at hdispatch
  have hspares : (⟨Frame.root larger, []⟩ : Stack ρ).Spares index := ⟨hroot, by simp⟩
  have hbegin : (⟨Frame.root e.registry, []⟩ : Stack ρ) =
      (⟨Frame.root larger, []⟩ : Stack ρ).without index := by
    rw [root_on h]
    rfl
  rw [snd_parseSource, snd_parseSource, hbegin]
  rcases drain_on h hnames [source] hspares with ⟨f, name, hf, hname⟩ | hsame
  · rw [hf]
    intro hknown
    exact absurd hname (hknown name)
  · rw [hsame]
    change Preserved index _ (((e.on larger).drain ⟨⟨Frame.root larger, []⟩, [source]⟩).2.map _)
    cases ((e.on larger).drain ⟨⟨Frame.root larger, []⟩, [source]⟩).2 with
    | error f => exact fun _ => rfl
    | ok stack =>
      refine ⟨stack.bottom.close.complete, rfl, ?_⟩
      rw [Context.without_complete, ← Frame.close_without, ← Stack.bottom_without]

/-- A parse under a finalized registry is not disturbed by a module that is registered behind all
others, unless that makes the name of a directive ambiguous. It ends the same, once the records of
this module are erased, if it does not meet an unknown directive. -/
theorem modules_independent [Record ρ] (e : Engine ρ) {d next : Draft ρ} {m : Module ρ}
    {events later : List Event} {larger : Registry ρ} (hregister : d.register m = .ok next)
    (hfinish : d.finish = (events, .ok e.registry)) (hlarger : next.finish = (later, .ok larger))
    (hnames : e.Unambiguous m) :
    (∃ id : ModuleId, id.index = e.registry.entries.length ∧
      larger.entries = e.registry.entries ++ [⟨id, m⟩]) ∧
    (∀ name text, Preserved e.registry.entries.length (e.parseText name text).2
      ((e.on larger).parseText name text).2) ∧
    ∀ p, Preserved e.registry.entries.length (e.parseFile p).2
      ((e.on larger).parseFile p).2 := by
  have hextends := Draft.extends_of_finish hregister hfinish hlarger
  refine ⟨hextends.entries, fun name text => preserved_parseSource hextends hnames _, fun p => ?_⟩
  have hfiles : (e.on larger).files = e.files := rfl
  unfold parseFile
  rw [hfiles]
  cases e.files.read p with
  | error f => exact fun _ => rfl
  | ok bytes => exact preserved_parseSource hextends hnames _

theorem modules_independent_cache :
    let cache : Module Server.Settings :=
      { Server.Http.module Server.Settings.httpKind with
        name := "cache"
        directives := [.plain "cache" .flag Server.Level.all] }
    let next : Draft Server.Settings := ⟨Server.draft.modules ++ [cache]⟩
    let larger : Registry Server.Settings := ⟨Draft.place [] next.modules⟩
    let e := Server.engineOver []
    let text := "http \x7b root /srv; server \x7b listen 80; \x7d \x7d"
    Server.draft.register cache = .ok next ∧ Server.draft.finish.2 = .ok e.registry ∧
      next.finish.2 = .ok larger ∧ e.Unambiguous cache ∧
      ∃ root wider, (e.parseText "server.conf" text).2 = .ok root ∧
        ((e.on larger).parseText "server.conf" text).2 = .ok wider ∧ wider.without 4 = root := by
  intro cache next larger e text
  have hregister : Server.draft.register cache = .ok next := rfl
  have hfinish : Server.draft.finish = (Server.draft.finish.1, .ok e.registry) := rfl
  have hlarger : next.finish = (next.finish.1, .ok larger) := rfl
  have hnames : e.Unambiguous cache := .inr (by decide +kernel)
  have hsucceeds : e.succeedsWithin 20
      (e.opening (.ofText "server.conf" (Utf8.encode text.toList))) = true := by decide +kernel
  obtain ⟨log, root, hrun⟩ := exists_run_of_succeedsWithin hsucceeds
  have hroot : (e.parseText "server.conf" text).2 = .ok root := by
    rw [parseText, parseSource, snd_concluded]
    exact congrArg Prod.snd hrun
  obtain ⟨-, htext, -⟩ := modules_independent e hregister hfinish hlarger hnames
  have hpreserved := htext "server.conf" text
  rw [hroot] at hpreserved
  obtain ⟨wider, hwider, hwithout⟩ := hpreserved
  exact ⟨hregister, rfl, rfl, hnames, root, wider, hroot, hwider, hwithout⟩

end Engine

end ScopedConf
