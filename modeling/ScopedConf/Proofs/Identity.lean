import ScopedConf.Proofs.Server.Reference

/-! The identity of modules. A draft takes every type and name once; the finished registry numbers
the modules in the order in which they were accepted, and every directive in it is well-formed. -/

namespace ScopedConf

variable {ρ : Type}

namespace Shape

theorem exists_accepts_of_validate {s : Shape} (h : s.validate = .ok ()) :
    ∃ n ≤ maxCount, s.accepts n = true := by
  by_cases hany : s.has anyNumber = true
  · exact ⟨0, by decide, by simp [accepts, hany]⟩
  by_cases hflag : s.has flag = true
  · exact ⟨1, by decide, by simp [accepts, hany, hflag]⟩
  by_cases hone : s.has oneOrMore = true
  · exact ⟨1, by decide, by simp [accepts, hany, hflag, hone]⟩
  by_cases htwo : s.has twoOrMore = true
  · exact ⟨2, by decide, by simp [accepts, hany, hflag, hone, htwo]⟩
  have hopen : s.openCounts = [] := by simp [openCounts, hany, hflag, hone, htwo]
  simp only [validate, hopen] at h
  have hne : s.fixedBits ≠ 0 := by
    intro hzero
    simp [hzero] at h
  have hlt : s.fixedBits < 2 ^ (maxCount + 1) := by
    refine Nat.lt_of_not_le fun hle => ?_
    rw [← Nat.one_shiftLeft] at hle
    simp [hne, hle] at h
  obtain ⟨n, hn⟩ := Nat.exists_testBit_of_ne_zero hne
  have hmax : n < maxCount + 1 := by
    refine Nat.lt_of_not_le fun hle => ?_
    have hbound : s.fixedBits < 2 ^ n :=
      Nat.lt_of_lt_of_le hlt (Nat.pow_le_pow_right (by decide) hle)
    rw [Nat.testBit_lt_two_pow hbound] at hn
    simp at hn
  have hcounts : s.counts n = true := by
    have hbits : s.fixedBits = s.bits.toNat % 2 ^ 16 := rfl
    rw [hbits, Nat.testBit_mod_two_pow, Bool.and_eq_true] at hn
    exact hn.2
  have hle : n ≤ maxCount := Nat.le_of_lt_succ hmax
  exact ⟨n, hle, by simp [accepts, hany, hflag, hone, htwo, hcounts, hle]⟩

end Shape

theorem ContextSet.exists_single_of_size {s : ContextSet} (h : s.size = 1) :
    ∃ n < 32, s = .single n := by
  obtain ⟨n, hn⟩ := List.length_eq_one_iff.mp h
  have hmem : ∀ m, m < 32 ∧ s.bits.toNat.testBit m = true ↔ m = n := by
    intro m
    rw [← List.mem_range, ← List.mem_filter, hn, List.mem_singleton]
  have hlt : n < 32 := ((hmem n).mpr rfl).1
  have hbits : s.bits.toNat = 2 ^ n := by
    refine Nat.eq_of_testBit_eq fun m => ?_
    rw [Nat.testBit_two_pow]
    by_cases hm : m < 32
    · have hiff := hmem m
      simp only [hm, true_and] at hiff
      rw [Bool.eq_iff_iff, hiff, decide_eq_true_eq, eq_comm]
    · have hhigh : s.bits.toNat < 2 ^ m :=
        Nat.lt_of_lt_of_le s.bits.toNat_lt (Nat.pow_le_pow_right (by decide) (Nat.le_of_not_lt hm))
      have hne : n ≠ m := by omega
      rw [Nat.testBit_lt_two_pow hhigh, decide_eq_false hne]
  refine ⟨n, hlt, ?_⟩
  obtain ⟨bits⟩ := s
  congr 1
  refine UInt32.toNat_inj.mp ?_
  have hpow : 2 ^ n < 2 ^ 32 := Nat.pow_lt_pow_right (by decide) hlt
  rw [hbits, Nat.one_shiftLeft, UInt32.toNat_ofNat', Nat.mod_eq_of_lt hpow]

structure Directive.WellFormed (d : Directive ρ) : Prop where
  valid : d.validate = .ok ()
  named : d.name ≠ ""
  unbroken : ∀ c ∈ d.name.toList, Text.isBlank c = false
  somewhere : d.contexts.bits ≠ 0
  block : d.shape.has .block = true ↔ ∃ spec, d.block = some spec
  inside : ∀ spec, d.block = some spec → ∃ n < 32, spec.context = .single n
  count : ∃ n ≤ 9, d.shape.accepts n = true

theorem Directive.wellFormed_of_validate {d : Directive ρ} (h : d.validate = .ok ()) :
    d.WellFormed := by
  have hblock := has_block_of_validate h
  have hvalid := h
  unfold validate at h
  split at h
  · simp at h
  · next hname =>
    split at h
    · simp at h
    · next hcontexts =>
      split at h
      · simp at h
      · next hshape =>
        rw [not_or] at hname
        refine ⟨hvalid, hname.1, ?_, ?_, ?_, ?_, Shape.exists_accepts_of_validate hshape⟩
        · intro c hc
          rw [Bool.eq_false_iff]
          exact fun hblank => hname.2 (List.any_eq_true.mpr ⟨c, hc, hblank⟩)
        · intro hzero
          exact hcontexts (by simp [ContextSet.isEmpty, hzero])
        · rw [hblock, Option.isSome_iff_exists]
        · intro spec hspec
          unfold validateBlock at h
          rw [hblock, hspec] at h
          simp only [Option.isSome_some] at h
          split at h
          · next hsize => exact ContextSet.exists_single_of_size hsize
          · simp at h

namespace Draft

/-- A call to register a module: the draft afterwards, and the refusal if there was one. -/
def offer (d : Draft ρ) (m : Module ρ) : Draft ρ × Option Failure :=
  match d.register m with
  | .ok next => (next, none)
  | .error f => (d, some f)

def offerAll (d : Draft ρ) (calls : List (Module ρ)) : Draft ρ :=
  calls.foldl (fun d m => (d.offer m).1) d

def accepted (d : Draft ρ) : List (Module ρ) → List (Module ρ)
  | [] => []
  | m :: calls =>
    match d.offer m with
    | (next, none) => m :: next.accepted calls
    | (next, some _) => next.accepted calls

def withHooks (d : Draft ρ) (hook : Module ρ → Hook) : Draft ρ :=
  ⟨d.modules.map fun m => { m with init := hook m }⟩

/-- A module is refused if there is one of its type and name, and then the draft stays as it was. -/
theorem offer_eq (d : Draft ρ) (m : Module ρ) :
    d.offer m =
      if ∃ n ∈ d.modules, n.tag = m.tag ∧ n.name = m.name then
        (d, some (.of (.duplicateModule m.name)))
      else (⟨d.modules ++ [m]⟩, none) := by
  have hany : d.modules.any m.sameAs = true ↔
      ∃ n ∈ d.modules, n.tag = m.tag ∧ n.name = m.name := by
    simp only [List.any_eq_true, Module.sameAs, Bool.and_eq_true, beq_iff_eq]
    exact exists_congr fun n => and_congr_right fun _ => and_congr eq_comm eq_comm
  by_cases h : ∃ n ∈ d.modules, n.tag = m.tag ∧ n.name = m.name
  · simp [offer, register, hany.mpr h, if_pos h]
  · rw [← hany] at h
    simp only [offer, register, if_neg h]
    rw [hany] at h
    rw [if_neg h]

theorem offerAll_cons (d : Draft ρ) (m : Module ρ) (calls : List (Module ρ)) :
    d.offerAll (m :: calls) = (d.offer m).1.offerAll calls := rfl

theorem registerAll_accepted (d : Draft ρ) (calls : List (Module ρ)) :
    d.registerAll (d.accepted calls) = .ok (d.offerAll calls) := by
  induction calls generalizing d with
  | nil => rfl
  | cons m calls ih =>
    rw [offerAll_cons, accepted]
    cases hregister : d.register m with
    | ok next =>
      have hoffer : d.offer m = (next, none) := by simp [offer, hregister]
      rw [hoffer, ← ih next]
      simp only [registerAll, List.foldlM_cons, hregister]
      rfl
    | error f =>
      have hoffer : d.offer m = (d, some f) := by simp [offer, hregister]
      rw [hoffer]
      exact ih d

theorem modules_offerAll (d : Draft ρ) (calls : List (Module ρ)) :
    (d.offerAll calls).modules = d.modules ++ d.accepted calls := by
  induction calls generalizing d with
  | nil => exact (List.append_nil d.modules).symm
  | cons m calls ih =>
    rw [offerAll_cons, ih, accepted]
    cases hregister : d.register m with
    | ok next => simp [offer, hregister, modules_of_register hregister]
    | error f => simp [offer, hregister]

def Distinct (ms : List (Module ρ)) : Prop :=
  ms.Pairwise fun m n => (m.tag, m.name) ≠ (n.tag, n.name)

theorem distinct_offer {d : Draft ρ} (h : Distinct d.modules) (m : Module ρ) :
    Distinct (d.offer m).1.modules := by
  rw [offer_eq]
  split
  · exact h
  · next hnew =>
    refine List.pairwise_append.mpr ⟨h, List.pairwise_singleton _ _, fun n hn other hother => ?_⟩
    rw [List.mem_singleton.mp hother]
    exact fun heq => hnew ⟨n, hn, Prod.mk.inj heq⟩

theorem distinct_offerAll {d : Draft ρ} (h : Distinct d.modules) (calls : List (Module ρ)) :
    Distinct (d.offerAll calls).modules := by
  induction calls generalizing d with
  | nil => exact h
  | cons m calls ih => exact ih (distinct_offer h m)

end Draft

namespace Registry

def countOf (tag : ModuleTag) (entries : List (Entry ρ)) : Nat :=
  entries.countP fun e => e.module.tag == tag

/-- Every entry is numbered by those in front of it: by all of them, and by those of its type. -/
inductive Numbered : List (Entry ρ) → Prop
  | nil : Numbered []
  | concat {entries : List (Entry ρ)} (before : Numbered entries) (m : Module ρ) :
    Numbered (entries ++ [⟨⟨entries.length, countOf m.tag entries, m.tag⟩, m⟩])

namespace Numbered

variable {entries : List (Entry ρ)}

theorem tag_eq (h : Numbered entries) : ∀ e ∈ entries, e.id.tag = e.module.tag := by
  induction h with
  | nil => simp
  | concat _ m ih =>
    intro e he
    rcases List.mem_append.mp he with he | he
    · exact ih e he
    · rw [List.mem_singleton.mp he]

theorem id_eq (h : Numbered entries) {i : Nat} {e : Entry ρ} (he : entries[i]? = some e) :
    e.id = ⟨i, countOf e.module.tag (entries.take i), e.module.tag⟩ := by
  induction h with
  | nil => simp at he
  | @concat entries _ m ih =>
    have hlt := (List.getElem?_eq_some_iff.mp he).1
    rw [List.length_append, List.length_singleton] at hlt
    by_cases hi : i < entries.length
    · rw [List.getElem?_append_left hi] at he
      rw [ih he, List.take_append_of_le_length (Nat.le_of_lt hi)]
    · obtain rfl : i = entries.length := by omega
      rw [List.getElem?_concat_length, Option.some.injEq] at he
      rw [← he, List.take_left]

theorem indexInType_lt (h : Numbered entries) :
    ∀ e ∈ entries, e.id.indexInType < countOf e.module.tag entries := by
  induction h with
  | nil => simp
  | @concat entries _ m ih =>
    intro e he
    rcases List.mem_append.mp he with he | he
    · refine Nat.lt_of_lt_of_le (ih e he) ?_
      rw [countOf, countOf, List.countP_append]
      exact Nat.le_add_right _ _
    · rw [List.mem_singleton.mp he]
      simp [countOf, List.countP_append]

theorem pairwise (h : Numbered entries) :
    entries.Pairwise fun (e f : Entry ρ) =>
      (e.id.tag, e.id.indexInType) ≠ (f.id.tag, f.id.indexInType) := by
  induction h with
  | nil => exact .nil
  | @concat entries before m ih =>
    refine List.pairwise_append.mpr ⟨ih, List.pairwise_singleton _ _, fun e he f hf => ?_⟩
    rw [List.mem_singleton.mp hf]
    intro heq
    obtain ⟨htag, hnumber⟩ := Prod.mk.inj heq
    have hlt := before.indexInType_lt e he
    rw [← before.tag_eq e he, htag, hnumber] at hlt
    exact Nat.lt_irrefl _ hlt

theorem place (h : Numbered entries) (ms : List (Module ρ)) :
    Numbered (Draft.place entries ms) := by
  induction ms generalizing entries with
  | nil => exact h
  | cons m ms ih =>
    have hcount : (entries.filter fun e => e.id.tag == m.tag).length = countOf m.tag entries := by
      rw [← List.countP_eq_length_filter]
      exact List.countP_congr fun e he => by rw [h.tag_eq e he]
    rw [Draft.place, hcount]
    exact ih (h.concat m)

end Numbered

/-- The registry that holds the modules `ms`, each in its place, with well-formed directives. -/
structure Holds (r : Registry ρ) (ms : List (Module ρ)) : Prop where
  modules : r.entries.map Entry.module = ms
  places : ∀ i (e : Entry ρ), r.entries[i]? = some e →
    e.id = ⟨i, countOf e.module.tag (r.entries.take i), e.module.tag⟩
  identities : r.entries.Pairwise fun (e f : Entry ρ) =>
    (e.module.tag, e.module.name) ≠ (f.module.tag, f.module.name)
  numbers : r.entries.Pairwise fun (e f : Entry ρ) =>
    (e.id.tag, e.id.indexInType) ≠ (f.id.tag, f.id.indexInType)
  directives : ∀ e ∈ r.entries, ∀ d ∈ e.module.directives, d.WellFormed

end Registry

namespace Draft

theorem holds_of_finish {d : Draft ρ} {events : List Event} {r : Registry ρ}
    (hdistinct : Distinct d.modules) (h : d.finish = (events, .ok r)) : r.Holds d.modules := by
  obtain ⟨hvalid, hentries⟩ := eq_of_finish h
  have hnumbered : Registry.Numbered r.entries := hentries ▸ Registry.Numbered.nil.place d.modules
  have hmodules : r.entries.map Registry.Entry.module = d.modules := by
    rw [hentries, map_module_place, List.map_nil, List.nil_append]
  refine ⟨hmodules, fun i e => hnumbered.id_eq, ?_, hnumbered.pairwise, fun e he x hx => ?_⟩
  · rw [Distinct, ← hmodules, List.pairwise_map] at hdistinct
    exact hdistinct
  · have hmem : e.module ∈ d.modules := hmodules ▸ List.mem_map_of_mem he
    exact Directive.wellFormed_of_validate
      (mapError_eq_ok.mp (forM_eq_ok (forM_eq_ok hvalid hmem) hx))

theorem forM_validate_withHooks (d : Draft ρ) (hook : Module ρ → Hook) :
    (d.withHooks hook).modules.forM Module.validate = d.modules.forM Module.validate := by
  obtain ⟨ms⟩ := d
  induction ms with
  | nil => rfl
  | cons m ms ih =>
    change (Module.validate m >>= fun _ => (withHooks ⟨ms⟩ hook).modules.forM Module.validate) = _
    rw [ih]
    rfl

theorem cause_of_runHooks {hook : Module ρ → Hook} {ms : List (Module ρ)} {events : List Event}
    {f : Failure} (h : runHooks hook ms = (events, .error f)) :
    ∃ module reason, f.cause = .hookFailed module reason := by
  induction ms generalizing events with
  | nil => simp [runHooks, Hook.sequence] at h
  | cons m ms ih =>
    simp only [runHooks, List.map_cons] at h ih
    cases hm : m.outcome (hook m) with
    | mk reported result =>
      rw [hm] at h
      cases result with
      | error g =>
        simp only [Hook.sequence, Prod.mk.injEq, Except.error.injEq] at h
        obtain ⟨-, rfl⟩ := h
        obtain ⟨-, hresult⟩ := Prod.mk.inj hm
        cases hhook : (hook m).2 with
        | ok done =>
          rw [hhook] at hresult
          change Except.ok done = .error g at hresult
          simp at hresult
        | error reason =>
          rw [hhook] at hresult
          obtain rfl := Except.error.inj hresult
          exact ⟨m.name, reason, rfl⟩
      | ok done =>
        simp only [Hook.sequence, Prod.mk.injEq] at h
        exact ih (Prod.ext rfl h.2)

theorem finish_of_invalid {d : Draft ρ} {events : List Event} {f : Failure}
    (h : d.finish = (events, .error f)) {module name : String} {defect : Directive.Defect}
    (hcause : f.cause = .invalidDirective module name defect) :
    events = [] ∧ ∀ hook, (d.withHooks hook).finish = ([], .error f) := by
  unfold finish at h
  split at h
  · next g htables =>
    simp only [Prod.mk.injEq, Except.error.injEq] at h
    obtain ⟨rfl, rfl⟩ := h
    refine ⟨rfl, fun hook => ?_⟩
    rw [finish, forM_validate_withHooks, htables]
  · split at h
    · next g hhooks =>
      simp only [Prod.mk.injEq, Except.error.injEq] at h
      obtain ⟨rfl, rfl⟩ := h
      obtain ⟨_, _, hfailed⟩ := cause_of_runHooks hhooks
      simp [hfailed] at hcause
    · simp at h

/-- Registration settles the identity of every module. After any calls, a further call is refused
exactly if a module of its type and name is there already, and then the draft stays as it was. When
the draft is finished, the registry holds the built-in module and behind it those that were
accepted, in the order of the calls. A table that does not pass ends registration before any hook is
run. -/
theorem registration_identity (calls : List (Module ρ)) :
    let draft := Draft.start.offerAll calls
    let accepted := Draft.start.accepted calls
    draft.modules = Module.conf :: accepted ∧
    Draft.start.registerAll accepted = .ok draft ∧
    (∀ m, draft.offer m =
      if ∃ n ∈ Module.conf :: accepted, n.tag = m.tag ∧ n.name = m.name then
        (draft, some (.of (.duplicateModule m.name)))
      else (⟨draft.modules ++ [m]⟩, none)) ∧
    (∀ events r, draft.finish = (events, .ok r) → r.Holds (Module.conf :: accepted)) ∧
    ∀ events f module name defect, draft.finish = (events, .error f) →
      f.cause = .invalidDirective module name defect →
        events = [] ∧ ∀ hook, (draft.withHooks hook).finish = ([], .error f) := by
  intro draft accepted
  have hmodules : draft.modules = Module.conf :: accepted := modules_offerAll Draft.start calls
  have hdistinct : Distinct draft.modules :=
    distinct_offerAll (List.pairwise_singleton _ _) calls
  rw [← hmodules]
  exact ⟨rfl, registerAll_accepted _ calls, offer_eq draft, fun _ _ => holds_of_finish hdistinct,
    fun _ _ _ _ _ h hcause => finish_of_invalid h hcause⟩

/-- The second call is refused, and the module it is made for is found in the registry once. -/
theorem registration_identity_repeated :
    let calls := [Server.Global.module Server.Settings.globalKind, Server.Global.module
      Server.Settings.globalKind, Server.Http.blockModule, Server.Http.module
      Server.Settings.httpKind]
    ((Draft.start.offerAll (calls.take 1)).offer (Server.Global.module
      Server.Settings.globalKind)).2 = some (.of (.duplicateModule "core")) ∧
    ∃ r, (Draft.start.offerAll calls).finish.2 = .ok r ∧ r.Holds Server.draft.modules := by
  intro calls
  have hfinish : (Draft.start.offerAll calls).finish.2 = .ok Server.reference := rfl
  obtain ⟨-, -, hoffer, -⟩ := registration_identity (calls.take 1)
  obtain ⟨-, -, -, hholds, -⟩ := registration_identity calls
  have haccepted : Draft.start.accepted (calls.take 1) =
      [Server.Global.module Server.Settings.globalKind] := rfl
  refine ⟨?_, Server.reference, hfinish, hholds _ _ (Prod.ext rfl hfinish)⟩
  rw [hoffer, haccepted, if_pos ⟨_, List.mem_cons_of_mem _ List.mem_cons_self, rfl, rfl⟩]
  rfl

end Draft

end ScopedConf
