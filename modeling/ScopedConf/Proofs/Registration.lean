import Mathlib.Data.List.Forall2
import ScopedConf.Engine.Step

/-! What registration guarantees of every directive that a parse may meet: it was validated, and
further files are read by the built-in directive alone. -/

namespace ScopedConf

variable {ρ : Type}

theorem bind_eq_ok {α β ε : Type} {x : Except ε α} {f : α → Except ε β} {b : β} :
    x >>= f = .ok b ↔ ∃ a, x = .ok a ∧ f a = .ok b := by
  cases x <;> simp [bind, Except.bind]

theorem bind_eq_error {α β ε : Type} {x : Except ε α} {f : α → Except ε β} {e : ε} :
    x >>= f = .error e ↔ x = .error e ∨ ∃ a, x = .ok a ∧ f a = .error e := by
  cases x <;> simp [bind, Except.bind]

theorem mapM_eq_ok {α β ε : Type} {f : α → Except ε β} {as : List α} {bs : List β} :
    as.mapM f = .ok bs ↔ List.Forall₂ (fun a b => f a = .ok b) as bs := by
  induction as generalizing bs with
  | nil => cases bs <;> simp [pure, Except.pure]
  | cons a as ih =>
    rw [List.mapM_cons, bind_eq_ok]
    constructor
    · rintro ⟨b, hb, h⟩
      obtain ⟨later, hlater, h⟩ := bind_eq_ok.mp h
      obtain rfl := Except.ok.inj h
      exact .cons hb (ih.mp hlater)
    · rintro (_ | ⟨hb, hlater⟩)
      exact ⟨_, hb, bind_eq_ok.mpr ⟨_, ih.mpr hlater, rfl⟩⟩

theorem map_eq_ok {α β ε : Type} {x : Except ε α} {f : α → β} {b : β} :
    x.map f = .ok b ↔ ∃ a, x = .ok a ∧ f a = b := by
  cases x <;> simp [Except.map]

theorem map_eq_error {α β ε : Type} {x : Except ε α} {f : α → β} {e : ε} :
    x.map f = .error e ↔ x = .error e := by
  cases x <;> simp [Except.map]

theorem mapError_eq_ok {α δ ε : Type} {x : Except ε α} {f : ε → δ} {a : α} :
    x.mapError f = .ok a ↔ x = .ok a := by
  cases x with
  | error e =>
    change Except.error (f e) = .ok a ↔ _
    simp
  | ok b =>
    change Except.ok b = .ok a ↔ _
    rw [Except.ok.injEq, Except.ok.injEq]

/-- Modules declared outside the library cannot read further files. -/
def Module.Declared (m : Module ρ) : Prop :=
  ∀ d ∈ m.directives, d.handler ≠ .includeFiles

/-- Drafts that arise by registering declared modules, one after the other. A refused module leaves
the draft as it was. -/
inductive Draft.Collected : Draft ρ → Prop
  | start : Collected Draft.start
  | register {d next : Draft ρ} {m : Module ρ} (before : Collected d) (declared : m.Declared)
    (accepted : d.register m = .ok next) : Collected next

def Registry.Finalized (r : Registry ρ) : Prop :=
  ∃ (d : Draft ρ) (events : List Event), d.Collected ∧ d.finish = (events, .ok r)

theorem Draft.modules_of_register {d next : Draft ρ} {m : Module ρ} (h : d.register m = .ok next) :
    next.modules = d.modules ++ [m] := by
  unfold register at h
  split at h
  · simp at h
  · rw [← Except.ok.inj h]

theorem Draft.eq_of_finish {d : Draft ρ} {events : List Event} {r : Registry ρ}
    (h : d.finish = (events, .ok r)) :
    d.modules.forM Module.validate = .ok () ∧ r.entries = place [] d.modules := by
  unfold finish at h
  split at h
  · simp at h
  · next hvalid =>
    split at h
    · simp at h
    · simp only [Prod.mk.injEq, Except.ok.injEq] at h
      exact ⟨hvalid, by rw [← h.2]⟩

theorem Draft.Collected.conf_or_declared {d : Draft ρ} (h : d.Collected) {m : Module ρ}
    (hm : m ∈ d.modules) : m = Module.conf ∨ m.Declared := by
  induction h with
  | start => exact .inl (List.mem_singleton.mp hm)
  | register _ declared accepted ih =>
    rw [modules_of_register accepted, List.mem_append, List.mem_singleton] at hm
    rcases hm with hm | rfl
    · exact ih hm
    · exact .inr declared

theorem Draft.Collected.registerAll {d next : Draft ρ} {ms : List (Module ρ)} (h : d.Collected)
    (hdeclared : ∀ m ∈ ms, m.Declared) (hall : d.registerAll ms = .ok next) : next.Collected := by
  induction ms generalizing d with
  | nil =>
    obtain rfl := Except.ok.inj hall
    exact h
  | cons m ms ih =>
    obtain ⟨hfirst, hlater⟩ := List.forall_mem_cons.mp hdeclared
    rw [Draft.registerAll, List.foldlM_cons] at hall
    obtain ⟨between, haccepted, hrest⟩ := bind_eq_ok.mp hall
    exact ih (h.register hfirst haccepted) hlater hrest

theorem Registry.finalized_of_registerAll {d : Draft ρ} {ms : List (Module ρ)}
    {events : List Event} {r : Registry ρ} (hdeclared : ∀ m ∈ ms, m.Declared)
    (hall : Draft.start.registerAll ms = .ok d) (hfinish : d.finish = (events, .ok r)) :
    r.Finalized :=
  ⟨d, events, Draft.Collected.start.registerAll hdeclared hall, hfinish⟩

theorem Draft.map_module_place (before : List (Registry.Entry ρ)) (ms : List (Module ρ)) :
    (Draft.place before ms).map Registry.Entry.module = before.map Registry.Entry.module ++ ms := by
  induction ms generalizing before with
  | nil => simp [Draft.place]
  | cons m ms ih =>
    have hh := ih (before ++ [⟨⟨before.length, (before.filter fun e => e.id.tag == m.tag).length,
      m.tag⟩, m⟩])
    simpa [Draft.place] using hh

theorem forM_eq_ok {α ε : Type} {f : α → Except ε Unit} {xs : List α}
    (h : xs.forM f = .ok ()) {a : α} (ha : a ∈ xs) : f a = .ok () := by
  induction xs with
  | nil => simp at ha
  | cons x xs ih =>
    obtain ⟨_, hx, hxs⟩ := bind_eq_ok.mp h
    rcases List.mem_cons.mp ha with rfl | ha
    · exact hx
    · exact ih hxs ha

namespace Registry.Finalized

variable {r : Registry ρ} {m : Registry.Entry ρ} {d : Directive ρ}

theorem exists_draft (h : r.Finalized) :
    ∃ draft : Draft ρ, draft.Collected ∧ draft.modules.forM Module.validate = .ok () ∧
      ∀ m ∈ r.entries, m.module ∈ draft.modules := by
  obtain ⟨draft, events, hcollected, hfinish⟩ := h
  obtain ⟨hvalid, hentries⟩ := Draft.eq_of_finish hfinish
  refine ⟨draft, hcollected, hvalid, fun m hm => ?_⟩
  have hh := List.mem_map_of_mem (f := Registry.Entry.module) hm
  rwa [hentries, Draft.map_module_place, List.map_nil, List.nil_append] at hh

theorem validate (h : r.Finalized) (hm : m ∈ r.entries) (hd : d ∈ m.module.directives) :
    d.validate = .ok () := by
  obtain ⟨draft, -, hvalid, hmodules⟩ := h.exists_draft
  have hdirective := forM_eq_ok (forM_eq_ok hvalid (hmodules m hm)) hd
  exact mapError_eq_ok.mp hdirective

theorem eq_includeFiles (h : r.Finalized) (hm : m ∈ r.entries) (hd : d ∈ m.module.directives)
    (hh : d.handler = .includeFiles) : d = Directive.includeFiles := by
  obtain ⟨draft, hcollected, -, hmodules⟩ := h.exists_draft
  rcases hcollected.conf_or_declared (hmodules m hm) with hconf | hdeclared
  · rw [hconf] at hd
    exact List.mem_singleton.mp hd
  · exact absurd hh (hdeclared d hd)

end Registry.Finalized

theorem Directive.has_block_of_validate {d : Directive ρ} (h : d.validate = .ok ()) :
    d.shape.has .block = d.block.isSome := by
  unfold Directive.validate at h
  repeat' split at h
  all_goals try simp at h
  unfold Directive.validateBlock at h
  split at h <;> simp_all

theorem Engine.mem_of_lookUp {e : Engine ρ} {f : Frame ρ} {name : String}
    {m : Registry.Entry ρ} {d : Directive ρ} (h : e.lookUp f name = .ok (m, d)) :
    (m, d) ∈ e.registry.directivesIn f.kind f.moduleTag ∧ d.name = name := by
  unfold Engine.lookUp at h
  simp only at h
  split at h
  · simp at h
  · next one hone =>
    obtain rfl := Except.ok.inj h
    have hmem := List.mem_filter.mp (hone ▸ List.mem_singleton_self (m, d))
    simpa using hmem
  · next first rest _ hfirst =>
    split at h
    · obtain rfl := Except.ok.inj h
      have hmem := List.mem_filter.mp (hfirst ▸ List.mem_cons_self : (m, d) ∈ List.filter _ _)
      simpa using hmem
    · simp at h

theorem Registry.mem_directivesIn {r : Registry ρ} {context : ContextSet} {tag : ModuleTag}
    {m : Registry.Entry ρ} {d : Directive ρ} :
    (m, d) ∈ r.directivesIn context tag ↔
      m ∈ r.entries.filter (Entry.serves tag) ∧ d ∈ m.module.directives ∧
        d.allowedIn context = true := by
  simp only [directivesIn, List.mem_flatMap, List.mem_map, Prod.mk.injEq]
  constructor
  · rintro ⟨entry, hentry, directive, hdirective, rfl, rfl⟩
    exact ⟨hentry, List.mem_filter.mp hdirective⟩
  · rintro ⟨hentry, hdirective⟩
    exact ⟨m, hentry, d, List.mem_filter.mpr hdirective, rfl, rfl⟩

theorem Registry.mem_entries_of_directivesIn {r : Registry ρ} {context : ContextSet}
    {tag : ModuleTag} {m : Registry.Entry ρ} {d : Directive ρ}
    (h : (m, d) ∈ r.directivesIn context tag) : m ∈ r.entries ∧ d ∈ m.module.directives := by
  obtain ⟨hentry, hdirective, -⟩ := mem_directivesIn.mp h
  exact ⟨(List.mem_filter.mp hentry).1, hdirective⟩

end ScopedConf
