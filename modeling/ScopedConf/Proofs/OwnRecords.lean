import ScopedConf.Files.Archive
import ScopedConf.Proofs.Ending
import ScopedConf.Proofs.Identity
import ScopedConf.Proofs.Refusals

/-! The records that an open context keeps. They are made when the context is opened, one for each
module of its type that keeps one there, so the directives of such a module find their own. Modules
of the type `CONF` are served everywhere, and get their records in blocks of that type only. -/

namespace ScopedConf

variable {ρ : Type}

namespace Registry

variable {r : Registry ρ} {m n : Entry ρ}

theorem mem_freshRecords {context : ContextSet} {tag : ModuleTag} {held : Held ρ} :
    held ∈ r.freshRecords context tag ↔ ∃ m ∈ r.entries, m.id.tag = tag ∧
      ∃ record, m.module.create context = some record ∧ held = ⟨m.id, m.module.name, record⟩ := by
  simp only [freshRecords, List.mem_filterMap, List.mem_filter, beq_iff_eq, Option.map_eq_some_iff,
    and_assoc, eq_comm (a := held)]

theorem Finalized.eq_of_index (h : r.Finalized) (hm : m ∈ r.entries) (hn : n ∈ r.entries)
    (hindex : m.id.index = n.id.index) : m = n := by
  obtain ⟨draft, events, -, hfinish⟩ := h
  obtain ⟨-, hentries⟩ := Draft.eq_of_finish hfinish
  have hnumbered : Numbered r.entries := hentries ▸ Numbered.nil.place draft.modules
  obtain ⟨i, hi⟩ := List.mem_iff_getElem?.mp hm
  obtain ⟨j, hj⟩ := List.mem_iff_getElem?.mp hn
  have hplace : i = j := by
    rw [hnumbered.id_eq hi, hnumbered.id_eq hj] at hindex
    exact hindex
  rw [hplace, hj] at hi
  exact (Option.some.inj hi).symm

theorem serves_of_directivesIn {context : ContextSet} {tag : ModuleTag} {d : Directive ρ}
    (h : (m, d) ∈ r.directivesIn context tag) : m.id.tag = tag ∨ m.id.tag = .conf := by
  have hserves := (List.mem_filter.mp (mem_directivesIn.mp h).1).2
  simpa [Entry.serves] using hserves

end Registry

namespace Held

variable {held : List (Held ρ)} {index : Nat} {α : Type}

theorem exists_change (h : ∃ kept ∈ held, kept.module.index = index) :
    ∃ before kept after, held = before ++ kept :: after ∧ kept.module.index = index ∧
      ∀ change : ρ → Except Refusal (α × ρ), Held.change index change held =
        (change kept.record).map fun (a, record) =>
          (a, before ++ { kept with record := record } :: after) := by
  induction held with
  | nil => simp at h
  | cons first held ih =>
    by_cases hfirst : first.module.index = index
    · refine ⟨[], first, held, rfl, hfirst, fun change => ?_⟩
      rw [Held.change, if_pos hfirst]
      rfl
    · have hlater : ∃ kept ∈ held, kept.module.index = index := by
        obtain ⟨kept, hkept, hindex⟩ := h
        rcases List.mem_cons.mp hkept with rfl | hkept
        · exact absurd hindex hfirst
        · exact ⟨kept, hkept, hindex⟩
      obtain ⟨before, kept, after, rfl, hindex, hchange⟩ := ih hlater
      refine ⟨first :: before, kept, after, rfl, hindex, fun change => ?_⟩
      rw [Held.change, if_neg hfirst, hchange]
      cases change kept.record <;> rfl

theorem change_of_forall_ne (h : ∀ kept ∈ held, kept.module.index ≠ index)
    (change : ρ → Except Refusal (α × ρ)) :
    Held.change index change held = .error .wrongRecord := by
  induction held with
  | nil => rfl
  | cons first held ih =>
    obtain ⟨hfirst, hlater⟩ := List.forall_mem_cons.mp h
    rw [Held.change, if_neg hfirst, ih hlater]
    rfl

end Held

namespace Frame

variable {r : Registry ρ} {f g : Frame ρ} {m : Registry.Entry ρ}

/-- A context of directives keeps records for the modules that had one made when it was opened, and
for no others. -/
def Stocked (r : Registry ρ) (f : Frame ρ) : Prop :=
  f.dispatch = .directives →
    f.records.map Held.module = (r.freshRecords f.kind f.moduleTag).map Held.module

theorem Stocked.of_header (h : f.Stocked r) (hheader : g.header = f.header) : g.Stocked r := by
  simp only [header, Prod.mk.injEq] at hheader
  obtain ⟨hkind, htag, hdispatch, -, -, hmodules⟩ := hheader
  intro hd
  rw [hdispatch] at hd
  rw [hmodules, hkind, htag]
  exact h hd

theorem stocked_root (r : Registry ρ) : (Frame.root r).Stocked r :=
  fun _ => rfl

theorem stocked_ofBlock (r : Registry ρ) (owner : Nat) (spec : BlockSpec ρ) (s : Statement) :
    (Frame.ofBlock r owner spec s).Stocked r := by
  intro hd
  cases hspec : spec.strategy with
  | none => simp [ofBlock, hspec]
  | some handle => simp [ofBlock, hspec] at hd

theorem header_absorb (f inner : Frame ρ) : (f.absorb inner).header = f.header := by
  unfold absorb
  split <;> rfl

namespace Stocked

theorem mem_modules (h : f.Stocked r) (hd : f.dispatch = .directives) {id : ModuleId} :
    (∃ kept ∈ f.records, kept.module = id) ↔ ∃ m ∈ r.entries, m.id.tag = f.moduleTag ∧
      (∃ record, m.module.create f.kind = some record) ∧ m.id = id := by
  rw [← List.mem_map, h hd, List.mem_map]
  constructor
  · rintro ⟨kept, hkept, rfl⟩
    obtain ⟨m, hm, htag, record, hcreate, rfl⟩ := Registry.mem_freshRecords.mp hkept
    exact ⟨m, hm, htag, ⟨record, hcreate⟩, rfl⟩
  · rintro ⟨m, hm, htag, ⟨record, hcreate⟩, rfl⟩
    exact ⟨_, Registry.mem_freshRecords.mpr ⟨m, hm, htag, record, hcreate, rfl⟩, rfl⟩

/-- Of the modules in the registry, those of the context's type that keep a record there have one,
and it is found in their place. -/
theorem exists_kept_iff (h : f.Stocked r) (hr : r.Finalized) (hd : f.dispatch = .directives)
    (hm : m ∈ r.entries) :
    (∃ kept ∈ f.records, kept.module.index = m.id.index) ↔
      m.id.tag = f.moduleTag ∧ ∃ record, m.module.create f.kind = some record := by
  constructor
  · rintro ⟨kept, hkept, hindex⟩
    obtain ⟨n, hn, htag, hcreate, hid⟩ := (h.mem_modules hd).mp ⟨kept, hkept, rfl⟩
    obtain rfl := hr.eq_of_index hn hm (hid ▸ hindex)
    exact ⟨htag, hcreate⟩
  · rintro ⟨htag, hcreate⟩
    obtain ⟨kept, hkept, hid⟩ := (h.mem_modules hd).mpr ⟨m, hm, htag, hcreate, rfl⟩
    exact ⟨kept, hkept, hid ▸ rfl⟩

theorem module_eq (h : f.Stocked r) (hr : r.Finalized) (hd : f.dispatch = .directives)
    (hm : m ∈ r.entries) {kept : Held ρ} (hkept : kept ∈ f.records)
    (hindex : kept.module.index = m.id.index) : kept.module = m.id := by
  obtain ⟨n, hn, -, -, hid⟩ := (h.mem_modules hd).mp ⟨kept, hkept, rfl⟩
  obtain rfl := hr.eq_of_index hn hm (hid ▸ hindex)
  exact hid.symm

end Stocked

theorem cause_of_obey {d : Directive ρ} {set : Setter ρ} {s : Statement} {index : Nat}
    {cause : Cause} (hslot : d.handler = .slot set) (h : f.obey index d s = .error cause) :
    (∃ refusal, Held.change index (set ⟨s.name, s.values, s.location, d.tag⟩) f.records =
      .error refusal ∧ refusal.cause s.name = cause) ∨
    ∃ reason, cause = .valueOutOfRange s.name reason := by
  simp only [obey, hslot, store, change] at h
  cases hchange : Held.change index (set ⟨s.name, s.values, s.location, d.tag⟩) f.records with
  | error refusal =>
    simp only [hchange, Except.map] at h
    exact .inl ⟨refusal, rfl, Except.error.inj h⟩
  | ok changed =>
    simp only [hchange, Except.map] at h
    split at h
    · simp at h
    · split at h
      · next refusal hcheck =>
        obtain rfl := Except.error.inj h
        cases refusal <;> exact .inr ⟨_, rfl⟩
      · simp at h

theorem admitUse_ne_wrongRecord (f : Frame ρ) (d : Directive ρ) (s : Statement) :
    f.admitUse d s ≠ .error (Refusal.wrongRecord.cause s.name) := by
  simp only [admitUse]
  repeat' split
  all_goals simp [Refusal.cause]

end Frame

namespace Engine

variable {e : Engine ρ} {source : Source} {stack next : Stack ρ} {s : Statement} {log : Log}
  {opened : List Source} {o o' : Observed ρ}

def Stocked (e : Engine ρ) (stack : Stack ρ) : Prop :=
  ∀ f ∈ stack.top :: stack.below, f.Stocked e.registry

theorem stocked_opening (e : Engine ρ) (first : Source) : e.Stocked (e.opening first).stack := by
  intro f hf
  rw [List.mem_singleton.mp hf]
  exact Frame.stocked_root e.registry

theorem Handles.stocked (h : Handles e source stack s log next opened)
    (hstack : e.Stocked stack) : e.Stocked next := by
  unfold Stocked at hstack ⊢
  cases h with
  | closed =>
    simp only [List.forall_mem_cons] at hstack ⊢
    exact ⟨hstack.2.1.of_header (Frame.header_absorb _ _), hstack.2.2⟩
  | handedOver _ _ hchange =>
    simp only [List.forall_mem_cons] at hstack ⊢
    exact ⟨hstack.1, hstack.2.1.of_header (Frame.updated_of_change hchange).header, hstack.2.2⟩
  | included _ _ haccept =>
    simp only [List.forall_mem_cons] at hstack ⊢
    exact ⟨hstack.1.of_header (header_of_accept haccept), hstack.2⟩
  | obeyed _ _ haccept _ hobey =>
    simp only [List.forall_mem_cons] at hstack ⊢
    exact ⟨hstack.1.of_header (header_of_obey haccept hobey), hstack.2⟩
  | opened _ _ haccept _ hobey =>
    simp only [List.forall_mem_cons] at hstack ⊢
    exact ⟨Frame.stocked_ofBlock e.registry _ _ s,
      hstack.1.of_header (header_of_obey haccept hobey), hstack.2⟩

theorem stocked_of_moves (hmove : e.Moves o o') (h : e.Stocked o.state.stack) :
    e.Stocked o'.state.stack := by
  cases hmove with
  | statement hstep =>
    obtain ⟨source, rest, cursor, opened, -, -, hhandle, -⟩ := eq_of_step_statement hstep
    exact (handles_of_handle hhandle).stocked h
  | ended hstep =>
    obtain ⟨source, rest, cursor, -, -, -, rfl⟩ := eq_of_step_ended hstep
    exact h

theorem stocked_of_reaches (hreaches : e.Reaches o o') (h : e.Stocked o.state.stack) :
    e.Stocked o'.state.stack := by
  induction hreaches with
  | refl => exact h
  | tail _ hmove ih => exact stocked_of_moves hmove ih

theorem refusal_of_handle {f : Frame ρ} {below : List (Frame ρ)} {m : Registry.Entry ρ}
    {d : Directive ρ} {set : Setter ρ} {failure : Failure} (hd : f.dispatch = .directives)
    (hlookUp : e.lookUp f s.name = .ok (m, d)) (hslot : d.handler = .slot set)
    (h : (e.handle source ⟨f, below⟩ s).2 = .error failure)
    (hcause : failure.cause = Refusal.wrongRecord.cause s.name) :
    ∃ refusal, Held.change m.id.index (set ⟨s.name, s.values, s.location, d.tag⟩) f.records =
      .error refusal ∧ refusal.cause s.name = failure.cause := by
  have hplain : e.includesAt ⟨f, below⟩ s = false := by
    rw [Bool.eq_false_iff]
    intro hincludes
    obtain ⟨-, -, hin⟩ := includesAt_iff.mp hincludes
    obtain ⟨m', d', g, haccept, hhandler⟩ := includesIn_iff.mp hin
    have hsame := (accept_eq_ok.mp haccept).1
    rw [hlookUp] at hsame
    obtain ⟨-, rfl⟩ := Prod.mk.inj (Except.ok.inj hsame)
    simp [hslot] at hhandler
  cases refuses_of_handle h with
  | unbalanced => simp [Failure.of, Refusal.cause] at hcause
  | handedOver _ hover => simp [hd] at hover
  | unresolved _ _ hmissing => simp [hlookUp] at hmissing
  | misused _ _ _ huse =>
    change _ = Refusal.wrongRecord.cause s.name at hcause
    simp only [Failure.of] at hcause
    rw [hcause] at huse
    exact absurd huse (Frame.admitUse_ne_wrongRecord f _ s)
  | nested hincludes => simp [hplain] at hincludes
  | unread hincludes => simp [hplain] at hincludes
  | @disobeyed m' d' g cause _ _ haccept hobey =>
    have hsame := (accept_eq_ok.mp haccept).1
    rw [hlookUp] at hsame
    obtain ⟨rfl, rfl⟩ := Prod.mk.inj (Except.ok.inj hsame)
    rw [← (records_of_accept haccept).1]
    rcases Frame.cause_of_obey hslot hobey with hrefused | ⟨reason, rfl⟩
    · exact hrefused
    · simp [Failure.of, Refusal.cause] at hcause
  | tooDeep => simp [Failure.of, Refusal.cause] at hcause

/-- Wherever a run stands, a legal directive with a setter is given the record of its module, if the
module keeps one in contexts of the kind. It is never refused for the lack of it; a refusal that
says so is the setter's own. Only the modules of the type `CONF` do not have this in blocks of other
types: they keep no records there. -/
theorem legal_directive_finds_record (hr : e.registry.Finalized) (first : Source)
    (hreaches : e.Reaches (.start (e.opening first)) o) {f : Frame ρ}
    (hf : f ∈ o.state.stack.top :: o.state.stack.below) (hd : f.dispatch = .directives)
    {m : Registry.Entry ρ} {d : Directive ρ} {set : Setter ρ} {record : ρ}
    (hlookUp : e.lookUp f s.name = .ok (m, d)) (hslot : d.handler = .slot set)
    (hcreate : m.module.create f.kind = some record) :
    let args : Args := ⟨s.name, s.values, s.location, d.tag⟩
    ((m.id.tag = .conf → f.moduleTag = .conf) →
      ∃ before kept after, f.records = before ++ kept :: after ∧ kept.module = m.id ∧
        f.change m.id.index (set args) = (set args kept.record).map (fun (value, record) =>
          (value, { f with records := before ++ { kept with record := record } :: after })) ∧
        ∀ source below failure, (e.handle source ⟨f, below⟩ s).2 = .error failure →
          failure.cause = Refusal.wrongRecord.cause s.name →
            ∃ refusal, set args kept.record = .error refusal ∧
              refusal.cause s.name = failure.cause) ∧
    (m.id.tag = .conf → f.moduleTag ≠ .conf →
      (∀ kept ∈ f.records, kept.module ≠ m.id) ∧
        f.change m.id.index (set args) = .error .wrongRecord) := by
  intro args
  have hstocked : f.Stocked e.registry :=
    stocked_of_reaches hreaches (stocked_opening e first) f hf
  have hin := (mem_of_lookUp hlookUp).1
  have hm : m ∈ e.registry.entries := (Registry.mem_entries_of_directivesIn hin).1
  have hkept := hstocked.exists_kept_iff hr hd hm
  refine ⟨fun hconf => ?_, fun hconf hother => ?_⟩
  · have htag : m.id.tag = f.moduleTag := by
      rcases Registry.serves_of_directivesIn hin with htag | htag
      · exact htag
      · rw [htag, hconf htag]
    obtain ⟨before, kept, after, hrecords, hindex, hchange⟩ :=
      Held.exists_change (hkept.mpr ⟨htag, record, hcreate⟩)
    have hmem : kept ∈ f.records := hrecords ▸ List.mem_append_right before List.mem_cons_self
    refine ⟨before, kept, after, hrecords, hstocked.module_eq hr hd hm hmem hindex, ?_, ?_⟩
    · rw [Frame.change, hchange]
      cases set args kept.record <;> rfl
    · intro source below failure hhandle hcause
      obtain ⟨refusal, hrefused, hsame⟩ := refusal_of_handle hd hlookUp hslot hhandle hcause
      refine ⟨refusal, ?_, hsame⟩
      rw [hchange] at hrefused
      change (set args kept.record).map _ = .error refusal at hrefused
      cases hset : set args kept.record with
      | ok stored =>
        rw [hset] at hrefused
        simp [Except.map] at hrefused
      | error own =>
        rw [hset] at hrefused
        exact congrArg Except.error (Except.error.inj hrefused)
  · have hnone : ∀ kept ∈ f.records, kept.module.index ≠ m.id.index := by
      intro kept hmem hindex
      obtain ⟨htag, -⟩ := hkept.mp ⟨kept, hmem, hindex⟩
      exact hother (htag ▸ hconf)
    refine ⟨fun kept hmem hid => hnone kept hmem (congrArg ModuleId.index hid), ?_⟩
    rw [Frame.change, Held.change_of_forall_ne hnone]
    rfl

def limit : Directive Nat :=
  .setting "limit" (Shape.exactly 1) ContextSet.any fun _ record => .ok (.unit, record + 1)

/-- A module whose directive is legal in every context, and that would keep a record in each. -/
def limits (tag : ModuleTag) : Module Nat :=
  { Module.ofDirectives "limits" tag [limit] with create := fun _ => some 0 }

def limitsEngine (tag : ModuleTag) : Engine Nat where
  registry := ⟨Draft.place [] [Module.conf, limits tag]⟩
  files := (Server.engineOver []).files
  options := {}

theorem finalized_limits {tag : ModuleTag} (htag : tag = .core ∨ tag = .conf) :
    (limitsEngine tag).registry.Finalized := by
  have hdeclared : (limits tag).Declared := by
    simp [Module.Declared, limits, limit, Module.ofDirectives, Directive.setting]
  have hall : ∀ m ∈ [limits tag], m.Declared := List.forall_mem_singleton.mpr hdeclared
  rcases htag with rfl | rfl <;> exact Registry.finalized_of_registerAll hall rfl rfl

theorem lookUp_limit {tag : ModuleTag} {m : Registry.Entry Nat}
    (hlegal : (limitsEngine tag).registry.directivesIn .main .core =
      [(⟨⟨0, 0, .conf⟩, Module.conf⟩, Directive.includeFiles), (m, limit)]) :
    (limitsEngine tag).lookUp (Frame.root (limitsEngine tag).registry) "limit" =
      .ok (m, limit) := by
  simp [lookUp, Frame.root, hlegal, limit, Directive.includeFiles, Directive.plain,
    Directive.setting]

/-- As a module of the type `CORE`, it has its record at the top level. -/
theorem legal_directive_finds_record_core :
    let e := limitsEngine .core
    let first : Source := .outermost (Server.cursorOf "limit 5;") none
    let f := (e.opening first).stack.top
    e.lookUp f "limit" = .ok (⟨⟨1, 0, .core⟩, limits .core⟩, limit) ∧
      ∃ before kept after, f.records = before ++ kept :: after ∧ kept.module = ⟨1, 0, .core⟩ := by
  intro e first f
  let m : Registry.Entry Nat := ⟨⟨1, 0, .core⟩, limits .core⟩
  let s : Statement :=
    ⟨[⟨"limit", 1, false⟩, ⟨"5", 1, false⟩], .semicolon, ⟨"server.conf", 1⟩⟩
  have hlookUp : e.lookUp f s.name = .ok (m, limit) := lookUp_limit rfl
  have hcreate : m.module.create f.kind = some 0 := rfl
  obtain ⟨hfinds, -⟩ := legal_directive_finds_record (finalized_limits (.inl rfl)) first .refl
    List.mem_cons_self rfl hlookUp rfl hcreate
  have hcore : ModuleTag.core ≠ .conf := by decide
  obtain ⟨before, kept, after, hrecords, hkept, -⟩ := hfinds fun hconf => absurd hconf hcore
  exact ⟨hlookUp, before, kept, after, hrecords, hkept⟩

/-- As a module of the type `CONF` it has none, and its directive is refused for that. -/
theorem legal_directive_without_record :
    let e := limitsEngine .conf
    let first : Source := .outermost (Server.cursorOf "limit 5;") none
    let f := (e.opening first).stack.top
    e.registry.Finalized ∧ f.dispatch = .directives ∧
      (∃ m set, e.lookUp f "limit" = .ok (m, limit) ∧ limit.handler = .slot set ∧
        m.module.create f.kind = some 0) ∧
      f.records.length = 0 ∧
      (e.drain (e.opening first)).2 =
        .error (.located (Refusal.wrongRecord.cause "limit") ⟨"server.conf", 1⟩) := by
  intro e first f
  have hlookUp : e.lookUp f "limit" = .ok (⟨⟨1, 1, .conf⟩, limits .conf⟩, limit) := lookUp_limit rfl
  have hfails : e.failsWithin 5 (e.opening first)
      (.located (Refusal.wrongRecord.cause "limit") ⟨"server.conf", 1⟩) = true := by
    decide +kernel
  exact ⟨finalized_limits (.inr rfl), rfl, ⟨_, _, hlookUp, rfl, rfl⟩, rfl,
    drain_of_failsWithin hfails⟩

end Engine

end ScopedConf
