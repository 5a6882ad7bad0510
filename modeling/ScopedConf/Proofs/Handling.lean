import ScopedConf.Proofs.Registration

/-! Everything that a handled statement can do. `Engine.Handles` has one constructor for each way in
which a statement changes the open contexts; later invariants are proved by its cases. -/

namespace ScopedConf

variable {ρ : Type}

theorem Reported.map_map {α β γ : Type} (f : α → β) (g : β → γ) (r : Reported α) :
    (r.map f).map g = r.map fun a => g (f a) := by
  obtain ⟨log, result⟩ := r
  cases result <;> rfl

def Frame.obey (f : Frame ρ) (index : Nat) (d : Directive ρ) (s : Statement) :
    Except Cause (Frame ρ) :=
  match d.handler with
  | .slot set => f.store index d set s
  | _ => .ok f

/-- The frame after a strategy handled `s` on the record that the module `owner` keeps for it. -/
def Frame.lend (f : Frame ρ) (handle : Strategy ρ) (owner : Nat) (s : Statement) :
    Except Cause (Frame ρ) :=
  match f.change owner fun r => (handle s r).map fun r => ((), r) with
  | .error refusal => .error (refusal.cause s.name)
  | .ok ((), f) => .ok f

theorem Frame.has_block_of_admitUse {f g : Frame ρ} {d : Directive ρ} {s : Statement}
    (h : f.admitUse d s = .ok g) : d.shape.has .block = (s.terminator == .openBrace) := by
  simp only [admitUse] at h
  split at h
  · simp at h
  · split at h
    · simp at h
    · next hunexpected =>
      split at h
      · simp at h
      · next hmissing =>
        cases ho : s.terminator == .openBrace <;> cases hb : d.shape.has .block <;> simp_all

theorem Frame.eq_of_admitUse {f g : Frame ρ} {d : Directive ρ} {s : Statement}
    (h : f.admitUse d s = .ok g) :
    g = if d.shape.has .once then { f with used := d.name :: f.used } else f := by
  simp only [admitUse] at h
  repeat' split at h
  all_goals simp_all

theorem Frame.accepts_of_admitUse {f g : Frame ρ} {d : Directive ρ} {s : Statement}
    (h : f.admitUse d s = .ok g) : d.shape.accepts s.values.length = true := by
  simp only [admitUse] at h
  split at h
  · simp at h
  · simp_all

theorem Frame.notMem_used_of_admitUse {f g : Frame ρ} {d : Directive ρ} {s : Statement}
    (h : f.admitUse d s = .ok g) (honce : d.shape.has .once = true) : d.name ∉ f.used := by
  intro hused
  simp only [admitUse, honce, hused, if_true] at h
  repeat' split at h
  all_goals simp at h

def Frame.header (f : Frame ρ) :
    ContextSet × ModuleTag × Dispatch ρ × List String × Option Location × List ModuleId :=
  (f.kind, f.moduleTag, f.dispatch, f.label, f.location, f.records.map Held.module)

theorem Frame.header_of_admitUse {f g : Frame ρ} {d : Directive ρ} {s : Statement}
    (h : f.admitUse d s = .ok g) : g.header = f.header := by
  rw [eq_of_admitUse h]
  split <;> rfl

theorem Held.modules_of_change {α : Type} {index : Nat} {change : ρ → Except Refusal (α × ρ)}
    {held changed : List (Held ρ)} {a : α} (h : Held.change index change held = .ok (a, changed)) :
    changed.map Held.module = held.map Held.module := by
  induction held generalizing changed with
  | nil => simp [Held.change] at h
  | cons first held ih =>
    unfold Held.change at h
    split at h
    · obtain ⟨result, -, heq⟩ := map_eq_ok.mp h
      obtain ⟨-, rfl⟩ := Prod.mk.inj heq
      rfl
    · obtain ⟨⟨b, later⟩, hlater, heq⟩ := map_eq_ok.mp h
      obtain ⟨rfl, rfl⟩ := Prod.mk.inj heq
      simp [ih hlater]

structure Frame.Updated (f g : Frame ρ) : Prop where
  rest : g = { f with records := g.records }
  modules : g.records.map Held.module = f.records.map Held.module

theorem Frame.Updated.header {f g : Frame ρ} (h : f.Updated g) : g.header = f.header := by
  rw [Frame.header, h.modules, h.rest]
  rfl

theorem Frame.Updated.children {f g : Frame ρ} (h : f.Updated g) : g.children = f.children := by
  rw [h.rest]

theorem Frame.Updated.used {f g : Frame ρ} (h : f.Updated g) : g.used = f.used := by
  rw [h.rest]

theorem Frame.updated_of_change {α : Type} {f g : Frame ρ} {index : Nat}
    {change : ρ → Except Refusal (α × ρ)} {a : α} (h : f.change index change = .ok (a, g)) :
    f.Updated g := by
  obtain ⟨changed, hchange, heq⟩ := map_eq_ok.mp h
  obtain ⟨-, rfl⟩ := Prod.mk.inj heq
  exact ⟨rfl, Held.modules_of_change hchange⟩

theorem Frame.updated_of_obey {f g : Frame ρ} {index : Nat} {d : Directive ρ} {s : Statement}
    (h : f.obey index d s = .ok g) : f.Updated g := by
  unfold Frame.obey at h
  split at h
  · unfold Frame.store at h
    split at h
    · simp at h
    · next value f' hchange =>
      have hupdated := updated_of_change hchange
      split at h
      · rwa [← Except.ok.inj h]
      · split at h
        · simp at h
        · rwa [← Except.ok.inj h]
  · rw [Except.ok.inj h]
    exact ⟨rfl, rfl⟩

theorem Frame.updated_of_lend {f g : Frame ρ} {handle : Strategy ρ} {owner : Nat} {s : Statement}
    (h : f.lend handle owner s = .ok g) : f.Updated g := by
  unfold Frame.lend at h
  split at h
  · simp at h
  · next changed hchange =>
    have hupdated := updated_of_change hchange
    rwa [← Except.ok.inj h]

theorem Frame.dispatch_of_header {f g : Frame ρ} (h : g.header = f.header) :
    g.dispatch = f.dispatch := by
  simp only [header, Prod.mk.injEq] at h
  exact h.2.2.1

namespace Engine

/-- The directive that `s` uses in the context, and the context that remembers the use. -/
def accept (e : Engine ρ) (f : Frame ρ) (s : Statement) :
    Except Cause (Registry.Entry ρ × Directive ρ × Frame ρ) :=
  match e.lookUp f s.name with
  | .error cause => .error cause
  | .ok (m, d) => (f.admitUse d s).map fun f => (m, d, f)

def includesIn (e : Engine ρ) (f : Frame ρ) (s : Statement) : Bool :=
  match e.accept f s with
  | .ok (_, ⟨_, _, _, _, .includeFiles, _, _⟩, _) => true
  | _ => false

/-- Whether `s` is executed as an include when it is handled with these contexts open. -/
def includesAt (e : Engine ρ) (stack : Stack ρ) (s : Statement) : Bool :=
  match s.terminator, stack.top.dispatch with
  | .closeBrace, _ => false
  | _, .strategy .. => false
  | _, .directives => e.includesIn stack.top s

def openIn (e : Engine ρ) (depth : Nat) (f : Frame ρ) (owner : Nat) (block : Option (BlockSpec ρ))
    (s : Statement) : Reported (Frame ρ × Option (Frame ρ)) :=
  match block with
  | none => ([], .ok (f, none))
  | some spec =>
    if e.options.maxBlockDepth ≤ depth then
      ([], .error (.of (.blockDepth e.options.maxBlockDepth)))
    else
      let inner := Frame.ofBlock e.registry owner spec s
      ([Event.opened inner.title s.location.line (depth + 1)], .ok (f, some inner))

/-- What a statement does in a context of directives, includes apart: the context after it, and the
context of the block that it opens. -/
def enter (e : Engine ρ) (depth : Nat) (f : Frame ρ) (s : Statement) :
    Reported (Frame ρ × Option (Frame ρ)) :=
  match e.accept f s with
  | .error cause => ([], .error (.of cause))
  | .ok (m, d, f) =>
    let (log, result) :=
      match f.obey m.id.index d s with
      | .error cause => ([], .error (.of cause))
      | .ok f => e.openIn depth f m.id.index d.block s
    (Event.dispatching s.name m.module.name s.location.line :: log, result)

def settle (below : List (Frame ρ)) : Frame ρ × Option (Frame ρ) → Stack ρ
  | (f, none) => ⟨f, below⟩
  | (f, some inner) => ⟨inner, f :: below⟩

theorem includesIn_iff {e : Engine ρ} {f : Frame ρ} {s : Statement} :
    e.includesIn f s = true ↔
      ∃ m d g, e.accept f s = .ok (m, d, g) ∧ d.handler = .includeFiles := by
  unfold includesIn
  constructor
  · intro h
    split at h
    · next m name shape contexts tag check block g haccept => exact ⟨m, _, g, haccept, rfl⟩
    · simp at h
  · rintro ⟨m, ⟨name, shape, contexts, tag, handler, check, block⟩, g, haccept, hh⟩
    simp only at hh
    subst hh
    simp [haccept]

theorem includesAt_iff {e : Engine ρ} {stack : Stack ρ} {s : Statement} :
    e.includesAt stack s = true ↔ s.terminator ≠ .closeBrace ∧
      stack.top.dispatch = .directives ∧ e.includesIn stack.top s = true := by
  unfold includesAt
  split <;> simp_all

theorem accept_eq_ok {e : Engine ρ} {f g : Frame ρ} {s : Statement} {m : Registry.Entry ρ}
    {d : Directive ρ} :
    e.accept f s = .ok (m, d, g) ↔ e.lookUp f s.name = .ok (m, d) ∧ f.admitUse d s = .ok g := by
  unfold accept
  cases hl : e.lookUp f s.name with
  | error cause => simp
  | ok found =>
    obtain ⟨m', d'⟩ := found
    simp only [Except.ok.injEq, Prod.mk.injEq]
    cases ha : f.admitUse d' s with
    | error cause =>
      simp only [Except.map, reduceCtorEq, false_iff]
      rintro ⟨⟨rfl, rfl⟩, h⟩
      simp [ha] at h
    | ok g' =>
      simp only [Except.map, Except.ok.injEq, Prod.mk.injEq]
      constructor
      · rintro ⟨rfl, rfl, rfl⟩
        exact ⟨⟨rfl, rfl⟩, ha⟩
      · rintro ⟨⟨rfl, rfl⟩, h⟩
        rw [ha, Except.ok.injEq] at h
        exact ⟨rfl, rfl, h⟩

theorem dispatch_of_accept_error {e : Engine ρ} {source : Source} {top : Frame ρ}
    {below : List (Frame ρ)} {s : Statement} {cause : Cause}
    (h : e.accept top s = .error cause) :
    e.dispatch source ⟨top, below⟩ s = ([], .error (.of cause)) := by
  unfold accept at h
  unfold dispatch
  split at h
  · simp_all
  · next m d hl =>
    cases ha : top.admitUse d s with
    | error c =>
      simp only [ha, Except.map, Except.error.injEq] at h
      simp [hl, ha, h]
    | ok f => simp [ha, Except.map] at h

theorem dispatch_of_accept_ok {e : Engine ρ} {source : Source} {top f : Frame ρ}
    {below : List (Frame ρ)} {s : Statement} {m : Registry.Entry ρ} {d : Directive ρ}
    (h : e.accept top s = .ok (m, d, f)) :
    e.dispatch source ⟨top, below⟩ s =
      (Event.dispatching s.name m.module.name s.location.line ::
        (e.execute source ⟨f, below⟩ m d s).1, (e.execute source ⟨f, below⟩ m d s).2) := by
  obtain ⟨hl, ha⟩ := accept_eq_ok.mp h
  simp [dispatch, hl, ha]

theorem openBlock_eq_openIn (e : Engine ρ) (f : Frame ρ) (below : List (Frame ρ)) (owner : Nat)
    (block : Option (BlockSpec ρ)) (s : Statement) :
    e.openBlock ⟨f, below⟩ owner block s =
      (e.openIn below.length f owner block s).map (settle below) := by
  unfold openBlock openIn
  cases block with
  | none => rfl
  | some spec =>
    by_cases hl : e.options.maxBlockDepth ≤ below.length
    · simp [hl, Stack.depth, Reported.map, Except.map]
    · simp [hl, Stack.depth, Stack.push, Reported.map, Except.map, settle]

theorem execute_eq_obey {e : Engine ρ} {source : Source} {f : Frame ρ} {below : List (Frame ρ)}
    {m : Registry.Entry ρ} {d : Directive ρ} {s : Statement} (h : d.handler ≠ .includeFiles) :
    e.execute source ⟨f, below⟩ m d s =
      match f.obey m.id.index d s with
      | .error cause => ([], .error (.of cause))
      | .ok f =>
        (e.openIn below.length f m.id.index d.block s).map fun r => (settle below r, []) := by
  unfold execute Frame.obey
  cases hd : d.handler with
  | includeFiles => exact absurd hd h
  | none => simp [openBlock_eq_openIn, Reported.map_map]
  | slot set =>
    cases hs : f.store m.id.index d set s with
    | error cause => simp [hs]
    | ok g => simp [hs, openBlock_eq_openIn, Reported.map_map]

theorem dispatch_eq_enter {e : Engine ρ} (source : Source) {f : Frame ρ}
    (below : List (Frame ρ)) {s : Statement} (h : e.includesIn f s = false) :
    e.dispatch source ⟨f, below⟩ s =
      (e.enter below.length f s).map fun entered => (settle below entered, []) := by
  cases ha : e.accept f s with
  | error cause =>
    rw [dispatch_of_accept_error ha]
    simp [enter, ha, Reported.map, Except.map]
  | ok accepted =>
    obtain ⟨m, d, g⟩ := accepted
    have hh : d.handler ≠ .includeFiles := by
      intro hh
      have hi := includesIn_iff.mpr ⟨m, d, g, ha, hh⟩
      simp [h] at hi
    rw [dispatch_of_accept_ok ha, execute_eq_obey hh]
    cases ho : g.obey m.id.index d s <;> simp [enter, ha, ho, Reported.map, Except.map]

theorem includeFiles_eq_ok {e : Engine ρ} {source : Source} {depth : Nat} {s : Statement}
    {log : Log} {opened : List Source}
    (h : e.includeFiles source depth s = (log, .ok opened)) :
    ∃ paths later, e.files.expand (source.resolve s.argument) = .ok paths ∧
      e.openFiles s.location.line depth (source.includeDepth + 1) paths =
        (later, .ok opened) := by
  unfold includeFiles at h
  split at h
  · simp at h
  · split at h
    · simp at h
    · next hpaths =>
      simp only [Prod.mk.injEq, Except.ok.injEq] at h
      exact ⟨[], [], hpaths, by rw [openFiles, h.2]⟩
    · next paths _ hpaths => exact ⟨paths, log, hpaths, h⟩

/-- The ways in which a statement read from `source` changes the open contexts. -/
inductive Handles (e : Engine ρ) (source : Source) :
    Stack ρ → Statement → Log → Stack ρ → List Source → Prop
  | closed {top outer : Frame ρ} {below : List (Frame ρ)} {s : Statement}
    (hs : s.terminator = .closeBrace) (hdepth : source.baseDepth ≤ below.length) :
    Handles e source ⟨top, outer :: below⟩ s [Event.closed top.title s.location.line]
      ⟨outer.absorb top, below⟩ []
  | handedOver {top outer changed : Frame ρ} {below : List (Frame ρ)} {s : Statement}
    {handle : Strategy ρ} {owner : Nat} (hs : s.terminator = .semicolon)
    (hd : top.dispatch = .strategy handle owner)
    (hchange : outer.change owner (fun r => (handle s r).map fun r => ((), r)) =
      .ok ((), changed)) :
    Handles e source ⟨top, outer :: below⟩ s [] ⟨top, changed :: below⟩ []
  | included {top f : Frame ρ} {below : List (Frame ρ)} {s : Statement} {log : Log}
    {opened : List Source} {m : Registry.Entry ρ} {d : Directive ρ}
    (hs : s.terminator ≠ .closeBrace) (hd : top.dispatch = .directives)
    (haccept : e.accept top s = .ok (m, d, f)) (hh : d.handler = .includeFiles)
    (hfiles : e.includeFiles source below.length s = (log, .ok opened)) :
    Handles e source ⟨top, below⟩ s
      (Event.dispatching s.name m.module.name s.location.line :: log) ⟨f, below⟩ opened
  | obeyed {top f g : Frame ρ} {below : List (Frame ρ)} {s : Statement}
    {m : Registry.Entry ρ} {d : Directive ρ}
    (hs : s.terminator ≠ .closeBrace) (hd : top.dispatch = .directives)
    (haccept : e.accept top s = .ok (m, d, f)) (hh : d.handler ≠ .includeFiles)
    (hobey : f.obey m.id.index d s = .ok g) (hblock : d.block = none) :
    Handles e source ⟨top, below⟩ s [Event.dispatching s.name m.module.name s.location.line]
      ⟨g, below⟩ []
  | opened {top f g : Frame ρ} {below : List (Frame ρ)} {s : Statement}
    {m : Registry.Entry ρ} {d : Directive ρ} {spec : BlockSpec ρ}
    (hs : s.terminator ≠ .closeBrace) (hd : top.dispatch = .directives)
    (haccept : e.accept top s = .ok (m, d, f)) (hh : d.handler ≠ .includeFiles)
    (hobey : f.obey m.id.index d s = .ok g) (hblock : d.block = some spec)
    (hlimit : below.length < e.options.maxBlockDepth) :
    Handles e source ⟨top, below⟩ s
      [Event.dispatching s.name m.module.name s.location.line,
        Event.opened (Frame.ofBlock e.registry m.id.index spec s).title s.location.line
          (below.length + 1)]
      ⟨Frame.ofBlock e.registry m.id.index spec s, g :: below⟩ []

theorem handles_of_execute {e : Engine ρ} {source : Source} {top f : Frame ρ}
    {below : List (Frame ρ)} {next : Stack ρ} {s : Statement} {m : Registry.Entry ρ}
    {d : Directive ρ} {log : Log} {opened : List Source} (hs : s.terminator ≠ .closeBrace)
    (hd : top.dispatch = .directives) (haccept : e.accept top s = .ok (m, d, f))
    (h : e.execute source ⟨f, below⟩ m d s = (log, .ok (next, opened))) :
    Handles e source ⟨top, below⟩ s
      (Event.dispatching s.name m.module.name s.location.line :: log) next opened := by
  by_cases hh : d.handler = .includeFiles
  · simp only [execute, hh] at h
    obtain ⟨files, hfiles, heq⟩ := Reported.map_eq_ok.mp h
    obtain ⟨rfl, rfl⟩ := Prod.mk.inj heq
    exact .included hs hd haccept hh hfiles
  · rw [execute_eq_obey hh] at h
    cases hobey : f.obey m.id.index d s with
    | error cause => simp [hobey] at h
    | ok g =>
      simp only [hobey] at h
      obtain ⟨r, hopen, heq⟩ := Reported.map_eq_ok.mp h
      obtain ⟨rfl, rfl⟩ := Prod.mk.inj heq
      cases hblock : d.block with
      | none =>
        simp only [openIn, hblock, Prod.mk.injEq, Except.ok.injEq] at hopen
        obtain ⟨rfl, rfl⟩ := hopen
        exact .obeyed hs hd haccept hh hobey hblock
      | some spec =>
        simp only [openIn, hblock] at hopen
        split at hopen
        · simp at hopen
        · next hlimit =>
          simp only [Prod.mk.injEq, Except.ok.injEq] at hopen
          obtain ⟨rfl, rfl⟩ := hopen
          exact .opened hs hd haccept hh hobey hblock (Nat.lt_of_not_le hlimit)

theorem handles_of_closeBlock {e : Engine ρ} {source : Source} {stack next : Stack ρ}
    {s : Statement} {log : Log} (hs : s.terminator = .closeBrace)
    (h : closeBlock source stack s = (log, .ok next)) : Handles e source stack s log next [] := by
  obtain ⟨top, below⟩ := stack
  unfold closeBlock at h
  cases below with
  | nil => split at h <;> simp at h
  | cons outer below =>
    split at h
    · simp at h
    · next hdepth =>
      simp only [Prod.mk.injEq, Except.ok.injEq] at h
      obtain ⟨rfl, rfl⟩ := h
      simp only [Stack.depth, List.length_cons] at hdepth
      exact .closed hs (by omega)

theorem handles_of_handOver {e : Engine ρ} {source : Source} {stack next : Stack ρ}
    {s : Statement} {handle : Strategy ρ} {owner : Nat} (hs : s.terminator ≠ .closeBrace)
    (hd : stack.top.dispatch = .strategy handle owner)
    (h : handOver handle owner stack s = .ok next) : Handles e source stack s [] next [] := by
  obtain ⟨top, below⟩ := stack
  unfold handOver at h
  split at h
  · simp at h
  · next hopen =>
    have hsemi : s.terminator = .semicolon := by
      cases ht : s.terminator <;> simp_all
    cases below with
    | nil => simp at h
    | cons outer below =>
      simp only at h
      split at h
      · simp at h
      · next changed hchange =>
        rw [← Except.ok.inj h]
        exact .handedOver hsemi hd hchange

theorem handles_of_dispatch {e : Engine ρ} {source : Source} {stack next : Stack ρ}
    {s : Statement} {log : Log} {opened : List Source} (hs : s.terminator ≠ .closeBrace)
    (hd : stack.top.dispatch = .directives)
    (h : e.dispatch source stack s = (log, .ok (next, opened))) :
    Handles e source stack s log next opened := by
  obtain ⟨top, below⟩ := stack
  cases haccept : e.accept top s with
  | error cause => simp [dispatch_of_accept_error haccept] at h
  | ok accepted =>
    obtain ⟨m, d, f⟩ := accepted
    rw [dispatch_of_accept_ok haccept] at h
    obtain ⟨rfl, hexecute⟩ := Prod.mk.inj h
    exact handles_of_execute hs hd haccept (Prod.ext rfl hexecute)

theorem handles_of_handle {e : Engine ρ} {source : Source} {stack next : Stack ρ} {s : Statement}
    {log : Log} {opened : List Source}
    (h : e.handle source stack s = (log, .ok (next, opened))) :
    Handles e source stack s log next opened := by
  unfold handle at h
  split at h
  · next hs =>
    obtain ⟨closed, hclose, heq⟩ := Reported.map_eq_ok.mp h
    obtain ⟨rfl, rfl⟩ := Prod.mk.inj heq
    exact handles_of_closeBlock hs hclose
  · next hs =>
    split at h
    · next handle owner hd =>
      obtain ⟨handed, hquiet, heq⟩ := Reported.map_eq_ok.mp h
      obtain ⟨rfl, hover⟩ := Reported.quiet_eq_ok.mp hquiet
      obtain ⟨rfl, rfl⟩ := Prod.mk.inj heq
      exact handles_of_handOver hs hd hover
    · next hd => exact handles_of_dispatch hs hd h

theorem header_of_accept {e : Engine ρ} {f g : Frame ρ} {s : Statement} {m : Registry.Entry ρ}
    {d : Directive ρ} (h : e.accept f s = .ok (m, d, g)) : g.header = f.header :=
  Frame.header_of_admitUse (accept_eq_ok.mp h).2

theorem allowedIn_of_accept {e : Engine ρ} {f g : Frame ρ} {s : Statement}
    {m : Registry.Entry ρ} {d : Directive ρ} (h : e.accept f s = .ok (m, d, g)) :
    d.allowedIn f.kind = true :=
  (Registry.mem_directivesIn.mp (mem_of_lookUp (accept_eq_ok.mp h).1).1).2.2

theorem records_of_accept {e : Engine ρ} {f g : Frame ρ} {s : Statement} {m : Registry.Entry ρ}
    {d : Directive ρ} (h : e.accept f s = .ok (m, d, g)) :
    g.records = f.records ∧ g.children = f.children := by
  rw [Frame.eq_of_admitUse (accept_eq_ok.mp h).2]
  split <;> exact ⟨rfl, rfl⟩

theorem header_of_obey {e : Engine ρ} {f g k : Frame ρ} {s : Statement} {m : Registry.Entry ρ}
    {d : Directive ρ} {index : Nat} (haccept : e.accept f s = .ok (m, d, g))
    (hobey : g.obey index d s = .ok k) : k.header = f.header :=
  (Frame.updated_of_obey hobey).header.trans (header_of_accept haccept)

theorem children_of_obey {e : Engine ρ} {f g k : Frame ρ} {s : Statement} {m : Registry.Entry ρ}
    {d : Directive ρ} {index : Nat} (haccept : e.accept f s = .ok (m, d, g))
    (hobey : g.obey index d s = .ok k) : k.children = f.children :=
  (Frame.updated_of_obey hobey).children.trans (records_of_accept haccept).2

theorem mem_of_accept {e : Engine ρ} {f g : Frame ρ} {s : Statement} {m : Registry.Entry ρ}
    {d : Directive ρ} (h : e.accept f s = .ok (m, d, g)) :
    m ∈ e.registry.entries ∧ d ∈ m.module.directives :=
  Registry.mem_entries_of_directivesIn (mem_of_lookUp (accept_eq_ok.mp h).1).1

theorem openBrace_iff_of_accept {e : Engine ρ} (hr : e.registry.Finalized) {f g : Frame ρ}
    {s : Statement} {m : Registry.Entry ρ} {d : Directive ρ} (h : e.accept f s = .ok (m, d, g)) :
    s.terminator = .openBrace ↔ d.block.isSome = true := by
  obtain ⟨hm, hd⟩ := mem_of_accept h
  have hblock := Directive.has_block_of_validate (hr.validate hm hd)
  have hopen := Frame.has_block_of_admitUse (accept_eq_ok.mp h).2
  rw [hblock] at hopen
  rw [hopen, beq_iff_eq]

theorem include_of_accept {e : Engine ρ} (hr : e.registry.Finalized) {f g : Frame ρ}
    {s : Statement} {m : Registry.Entry ρ} {d : Directive ρ} (h : e.accept f s = .ok (m, d, g))
    (hh : d.handler = .includeFiles) : s.terminator ≠ .openBrace ∧ g = f := by
  obtain ⟨hm, hd⟩ := mem_of_accept h
  have heq := hr.eq_includeFiles hm hd hh
  have hopen := openBrace_iff_of_accept hr h
  have hg := Frame.eq_of_admitUse (accept_eq_ok.mp h).2
  rw [heq] at hopen hg
  have honce : (Directive.includeFiles : Directive ρ).shape.has .once = false := by
    change (Shape.exactly 1).has .once = false
    decide
  refine ⟨by simp [hopen, Directive.includeFiles, Directive.plain], ?_⟩
  rwa [honce, if_neg Bool.false_ne_true] at hg

theorem enter_eq_ok {e : Engine ρ} {depth : Nat} {f g : Frame ρ} {s : Statement} {log : Log}
    {inner : Option (Frame ρ)} (h : e.enter depth f s = (log, .ok (g, inner))) :
    ∃ m d f', e.accept f s = .ok (m, d, f') ∧ f'.obey m.id.index d s = .ok g ∧
      inner = d.block.map fun spec => Frame.ofBlock e.registry m.id.index spec s := by
  unfold enter at h
  split at h
  · simp at h
  · next m d f' haccept =>
    refine ⟨m, d, f', haccept, ?_⟩
    cases hobey : f'.obey m.id.index d s with
    | error cause => simp [hobey] at h
    | ok g' =>
      simp only [hobey, openIn] at h
      cases hblock : d.block with
      | none =>
        simp only [hblock, Prod.mk.injEq, Except.ok.injEq] at h
        exact ⟨by rw [h.2.1], by rw [← h.2.2]; rfl⟩
      | some spec =>
        simp only [hblock] at h
        split at h
        · simp at h
        · simp only [Prod.mk.injEq, Except.ok.injEq] at h
          exact ⟨by rw [h.2.1], by rw [← h.2.2]; rfl⟩

theorem header_of_enter {e : Engine ρ} {depth : Nat} {f g : Frame ρ} {s : Statement} {log : Log}
    {inner : Option (Frame ρ)} (h : e.enter depth f s = (log, .ok (g, inner))) :
    g.header = f.header := by
  obtain ⟨m, d, f', haccept, hobey, -⟩ := enter_eq_ok h
  exact header_of_obey haccept hobey

theorem isSome_of_enter {e : Engine ρ} (hr : e.registry.Finalized) {depth : Nat} {f g : Frame ρ}
    {s : Statement} {log : Log} {inner : Option (Frame ρ)}
    (h : e.enter depth f s = (log, .ok (g, inner))) :
    inner.isSome = true ↔ s.terminator = .openBrace := by
  obtain ⟨m, d, f', haccept, -, rfl⟩ := enter_eq_ok h
  rw [openBrace_iff_of_accept hr haccept, Option.isSome_map]

end Engine

end ScopedConf
