import ScopedConf.Context.Json
import ScopedConf.Proofs.Isolation
import ScopedConf.Proofs.Items
import ScopedConf.Proofs.Mirroring
import ScopedConf.Proofs.NamedEntries
import ScopedConf.Proofs.OwnRecords
import ScopedConf.Proofs.Server.Reference

/-! The tree of a run as JSON. The records of a context stand under the names of their modules, and
modules of different types may share a name. No record is lost for all that: the records of one
context are those of modules of one type, of which each has at most one, and no two modules of a
type share a name. -/

namespace ScopedConf

variable {ρ : Type}

theorem exists_mapM_eq_ok {α β ε : Type} {f : α → Except ε β} {as : List α} :
    (∃ bs, as.mapM f = .ok bs) ↔ ∀ a ∈ as, ∃ b, f a = .ok b := by
  simp only [mapM_eq_ok]
  induction as with
  | nil => simp
  | cons a as ih => simp [List.forall₂_cons_left_iff, ← ih]

def Held.owner (h : Held ρ) : ModuleId × String :=
  (h.module, h.name)

theorem Held.ChangedAt.map_owner {index : Nat} {held changed : List (Held ρ)}
    (h : ChangedAt index held changed) : changed.map owner = held.map owner := by
  induction h with
  | nil => rfl
  | cons hfirst _ ih =>
    obtain ⟨hmodule, hname, -⟩ := hfirst
    rw [List.map_cons, List.map_cons, ih, owner, owner, hmodule, hname]

theorem Draft.Collected.distinct {d : Draft ρ} (h : d.Collected) : Distinct d.modules := by
  induction h with
  | start => exact List.pairwise_singleton _ _
  | @register d next m _ _ accepted ih =>
    have hnext := distinct_offer ih m
    simpa [offer, accepted] using hnext

namespace Registry

variable {r : Registry ρ} {held : List (Held ρ)}

/-- The records are kept by the modules that get one in some context, whatever is in them by now. -/
def Issued (r : Registry ρ) (held : List (Held ρ)) : Prop :=
  ∃ context tag, held.map Held.owner = (r.freshRecords context tag).map Held.owner

theorem issued_freshRecords (r : Registry ρ) (context : ContextSet) (tag : ModuleTag) :
    r.Issued (r.freshRecords context tag) :=
  ⟨context, tag, rfl⟩

theorem Issued.of_owners {later : List (Held ρ)} (h : r.Issued held)
    (howners : later.map Held.owner = held.map Held.owner) : r.Issued later := by
  obtain ⟨context, tag, hheld⟩ := h
  exact ⟨context, tag, howners.trans hheld⟩

/-- No two modules of one type share a name. -/
theorem Finalized.pairwise_names (h : r.Finalized) (tag : ModuleTag) :
    (r.entries.filter fun m => m.id.tag == tag).Pairwise fun m n =>
      m.module.name ≠ n.module.name := by
  obtain ⟨draft, events, hcollected, hfinish⟩ := h
  have hholds := Draft.holds_of_finish hcollected.distinct hfinish
  have htag : ∀ m ∈ r.entries.filter fun m => m.id.tag == tag, m.module.tag = tag := by
    intro m hm
    obtain ⟨hentry, hsame⟩ := List.mem_filter.mp hm
    obtain ⟨i, hi⟩ := List.mem_iff_getElem?.mp hentry
    rw [hholds.places i m hi] at hsame
    exact beq_iff_eq.mp hsame
  refine (hholds.identities.filter _).imp_of_mem fun {m n} hm hn hne hname => hne ?_
  rw [htag m hm, htag n hn, hname]

theorem Issued.nodup_names (h : r.Issued held) (hr : r.Finalized) :
    (held.map Held.name).Nodup := by
  obtain ⟨context, tag, hheld⟩ := h
  have hnames : held.map Held.name = (r.freshRecords context tag).map Held.name := by
    have hsecond := congrArg (List.map Prod.snd) hheld
    rwa [List.map_map, List.map_map] at hsecond
  rw [hnames, List.Nodup, List.pairwise_map, freshRecords, List.pairwise_filterMap]
  refine (hr.pairwise_names tag).imp fun {m n} hne h hm k hn => ?_
  obtain ⟨_, -, rfl⟩ := Option.map_eq_some_iff.mp hm
  obtain ⟨_, -, rfl⟩ := Option.map_eq_some_iff.mp hn
  exact hne

theorem Issued.exists_entry (h : r.Issued held) {kept : Held ρ} (hkept : kept ∈ held) :
    ∃ m ∈ r.entries, m.id = kept.module ∧ m.module.name = kept.name := by
  obtain ⟨context, tag, hheld⟩ := h
  have howner := List.mem_map_of_mem (f := Held.owner) hkept
  rw [hheld, List.mem_map] at howner
  obtain ⟨fresh, hfresh, howner⟩ := howner
  obtain ⟨m, hm, -, record, -, rfl⟩ := mem_freshRecords.mp hfresh
  obtain ⟨hmodule, hname⟩ := Prod.mk.inj howner
  exact ⟨m, hm, hmodule, hname⟩

end Registry

namespace Frame

variable {r : Registry ρ} {f g : Frame ρ}

structure Issued (r : Registry ρ) (f : Frame ρ) : Prop where
  own : r.Issued f.records
  inside : ∀ c ∈ Context.preorderAll f.children, r.Issued c.records

namespace Issued

theorem of_changedAt {index : Nat} (h : f.Issued r) (hchanged : f.ChangedAt index g) :
    g.Issued r where
  own := h.own.of_owners hchanged.records.map_owner
  inside := by
    rw [hchanged.children]
    exact h.inside

theorem of_lends {handle : Strategy ρ} {owner : Nat} {items : List Item} (h : f.Issued r)
    (hlends : Engine.Lends handle owner f items g) : g.Issued r := by
  induction hlends with
  | nil => exact h
  | cons lend _ ih => exact ih (h.of_changedAt (changedAt_of_lend lend))

theorem add {inner : Frame ρ} (h : f.Issued r) (hinner : inner.Issued r) :
    Issued r { f with children := f.children ++ [inner.close] } where
  own := h.own
  inside := by
    have hclosed : ∀ c ∈ inner.close.preorder, r.Issued c.records :=
      List.forall_mem_cons.mpr ⟨hinner.own, hinner.inside⟩
    rw [Context.preorderAll_append, Context.preorderAll, Context.preorderAll, List.append_nil]
    exact List.forall_mem_append.mpr ⟨h.inside, hclosed⟩

end Issued

theorem issued_root (r : Registry ρ) : (Frame.root r).Issued r where
  own := r.issued_freshRecords .main .core
  inside := by simp [root, Context.preorderAll]

theorem issued_ofBlock {owner : Nat} {spec : BlockSpec ρ} {s : Statement}
    (h : spec.strategy = none) : (Frame.ofBlock r owner spec s).Issued r where
  own := by
    simp only [ofBlock, h]
    exact r.issued_freshRecords spec.context spec.moduleTag
  inside := by simp [ofBlock, Context.preorderAll]

end Frame

theorem Engine.Executes.issued {e : Engine ρ} {f g : Frame ρ} {items : List Item}
    (h : e.Executes f items g) (hf : f.Issued e.registry) : g.Issued e.registry := by
  induction h with
  | nil => exact hf
  | directive accept handler obey plain rest ih =>
    obtain ⟨hchanged, -⟩ := Frame.changedAt_of_obey (accept_eq_ok.mp accept).2 obey
    exact ih (hf.of_changedAt hchanged)
  | block accept handler obey opens directives inside rest ihinside ih =>
    obtain ⟨hchanged, -⟩ := Frame.changedAt_of_obey (accept_eq_ok.mp accept).2 obey
    exact ih ((hf.of_changedAt hchanged).add (ihinside (Frame.issued_ofBlock directives)))
  | lending accept handler obey opens strategy inside rest ih =>
    obtain ⟨hchanged, -⟩ := Frame.changedAt_of_obey (accept_eq_ok.mp accept).2 obey
    exact ih ((hf.of_changedAt hchanged).of_lends inside)

namespace Context

variable [Record ρ]

def owners (c : Context ρ) : List (ModuleId × String) :=
  c.records.map Held.owner

mutual

theorem map_owners_completeIn (scope : Scope ρ) (c : Context ρ) :
    (completeIn scope c).preorder.map owners = c.preorder.map owners := by
  cases c with
  | node kind label location records children =>
    have hown : (records.map (Held.complete scope)).map Held.owner = records.map Held.owner := by
      rw [List.map_map]
      rfl
    simp only [completeIn, preorder, List.map_cons]
    rw [map_owners_completeAll _ children, owners, owners, Context.records, hown, Context.records]

theorem map_owners_completeAll (scope : Scope ρ) (cs : List (Context ρ)) :
    (preorderAll (completeAll scope cs)).map owners = (preorderAll cs).map owners := by
  cases cs with
  | nil => rfl
  | cons c cs =>
    rw [completeAll, preorderAll, preorderAll, List.map_append, List.map_append,
      map_owners_completeIn scope c, map_owners_completeAll scope cs]

end

theorem toJsonAll_eq_mapM (cs : List (Context ρ)) : toJsonAll cs = cs.mapM toJson := by
  induction cs with
  | nil => rfl
  | cons c cs ih => rw [toJsonAll, ih, List.mapM_cons]

theorem toJson_eq_ok {c : Context ρ} {j : Json} :
    c.toJson = .ok j ↔ ∃ shown below, c.records.mapM Held.toMember = .ok shown ∧
      c.children.mapM toJson = .ok below ∧
      j = .obj [("children", .arr below), ("label", Json.strings c.label),
        ("records", Json.object shown)] := by
  have hmembers (label below records : Json) :
      Json.object [("label", label), ("records", records), ("children", below)] =
        .obj [("children", below), ("label", label), ("records", records)] := by
    have hrecords : ¬("records" < "label") := by decide
    have hchildren : "children" < "label" := by decide
    simp only [Json.object, Named.ofList, List.foldl_cons, List.foldl_nil, Named.insert, hrecords,
      hchildren, String.reduceEq, if_false, if_true]
  cases c with
  | node kind label location records children =>
    rw [toJson, toJsonAll_eq_mapM, bind_eq_ok]
    constructor
    · rintro ⟨shown, hshown, h⟩
      obtain ⟨below, hbelow, h⟩ := bind_eq_ok.mp h
      rw [hmembers] at h
      exact ⟨shown, below, hshown, hbelow, (Except.ok.inj h).symm⟩
    · rintro ⟨shown, below, hshown, hbelow, rfl⟩
      refine ⟨shown, hshown, bind_eq_ok.mpr ⟨below, hbelow, ?_⟩⟩
      rw [hmembers]
      rfl

theorem exists_toJson {c : Context ρ} :
    (∃ j, c.toJson = .ok j) ↔ (∀ h ∈ c.records, ∃ j, Record.toJson h.record = .ok j) ∧
      ∀ d ∈ c.children, ∃ j, d.toJson = .ok j := by
  have hmembers : (∃ shown, c.records.mapM Held.toMember = .ok shown) ↔
      ∀ h ∈ c.records, ∃ j, Record.toJson h.record = .ok j := by
    rw [exists_mapM_eq_ok]
    simp [Held.toMember, map_eq_ok]
  rw [← hmembers, ← exists_mapM_eq_ok]
  simp only [toJson_eq_ok]
  constructor
  · rintro ⟨_, shown, below, hshown, hbelow, -⟩
    exact ⟨⟨shown, hshown⟩, below, hbelow⟩
  · rintro ⟨⟨shown, hshown⟩, below, hbelow⟩
    exact ⟨_, shown, below, hshown, hbelow, rfl⟩

mutual

theorem exists_toJson_iff (c : Context ρ) : (∃ j, c.toJson = .ok j) ↔
    ∀ d ∈ c.preorder, ∀ h ∈ d.records, ∃ j, Record.toJson h.record = .ok j := by
  cases c with
  | node kind label location records children =>
    rw [exists_toJson, preorder, List.forall_mem_cons]
    exact and_congr_right' (exists_toJsonAll_iff children)

theorem exists_toJsonAll_iff (cs : List (Context ρ)) : (∀ c ∈ cs, ∃ j, c.toJson = .ok j) ↔
    ∀ d ∈ preorderAll cs, ∀ h ∈ d.records, ∃ j, Record.toJson h.record = .ok j := by
  cases cs with
  | nil => simp [preorderAll]
  | cons c cs =>
    rw [List.forall_mem_cons, preorderAll, List.forall_mem_append]
    exact and_congr (exists_toJson_iff c) (exists_toJsonAll_iff cs)

end

/-- As the JSON of the context, `j` lists the JSON of its children, and under `records` the members
`shown`: one for each record, with the record's own JSON under the name of the module that keeps
it. -/
structure ShowsRecords (r : Registry ρ) (c : Context ρ) (j : Json) (shown : Named Json) : Prop where
  object : ∃ below, List.Forall₂ (fun child json => child.toJson = .ok json) c.children below ∧
    j = .obj [("children", .arr below), ("label", Json.strings c.label), ("records", .obj shown)]
  records : ∃ own, List.Forall₂ (fun h member => Record.toJson h.record = .ok member.2 ∧
    member.1 = h.name) c.records own ∧ shown.Perm own
  names : (shown.map Prod.fst).Nodup
  found : ∀ h ∈ c.records, ∃ j, Record.toJson h.record = .ok j ∧ shown.get? h.name = some j
  modules : ∀ h ∈ c.records, ∃ m ∈ r.entries, m.id = h.module ∧ m.module.name = h.name

theorem showsRecords_of_issued {r : Registry ρ} {c : Context ρ} {j : Json} (hr : r.Finalized)
    (h : r.Issued c.records) (hj : c.toJson = .ok j) : ∃ shown, c.ShowsRecords r j shown := by
  obtain ⟨own, below, hown, hbelow, rfl⟩ := toJson_eq_ok.mp hj
  have howns : List.Forall₂ (fun h member => Record.toJson h.record = .ok member.2 ∧
      member.1 = h.name) c.records own := by
    refine (mapM_eq_ok.mp hown).imp fun kept member hmember => ?_
    obtain ⟨shown, hshown, rfl⟩ := map_eq_ok.mp hmember
    exact ⟨hshown, rfl⟩
  have hnames : (own.map Prod.fst).Nodup := by
    have hsame : c.records.map Held.name = own.map Prod.fst := by
      rw [← List.forall₂_eq_eq_eq, List.forall₂_map_left_iff, List.forall₂_map_right_iff]
      exact howns.imp fun _ _ hmember => hmember.2.symm
    exact hsame ▸ h.nodup_names hr
  have hperm := Named.perm_ofList hnames
  have hordered := Named.ordered_ofList own
  refine ⟨_, ⟨below, mapM_eq_ok.mp hbelow, rfl⟩, ⟨own, howns, hperm⟩, hordered.nodup_names,
    fun kept hkept => ?_, fun kept => h.exists_entry⟩
  obtain ⟨i, hi, rfl⟩ := List.mem_iff_getElem.mp hkept
  obtain ⟨hshown, hname⟩ := howns.get hi (howns.length_eq ▸ hi)
  have hmember := List.getElem_mem (l := own) (howns.length_eq ▸ hi)
  exact ⟨_, hshown, (Named.mem_iff_get? hordered).mp (hperm.mem_iff.mpr (hname ▸ hmember))⟩

end Context

namespace Engine

variable [Record ρ] {e : Engine ρ}

theorem issued_of_run (hr : e.registry.Finalized) {cursor : Cursor} {directory : Option Path}
    {log : Log} {root : Context ρ}
    (hrun : e.run (e.opening (.outermost cursor directory)) = (log, .ok root)) :
    ∀ c ∈ root.walk, e.registry.Issued c.records := by
  obtain ⟨-, items, g, -, -, -, -, hexecutes, rfl⟩ := exists_executed hr hrun
  have hissued := hexecutes.issued (Frame.issued_root e.registry)
  have hclosed : ∀ c ∈ g.close.preorder, e.registry.Issued c.records := by
    rw [Frame.close, Context.preorder]
    exact List.forall_mem_cons.mpr ⟨hissued.own, hissued.inside⟩
  intro c hc
  rw [Context.walk_eq_preorder] at hc
  have howners := List.mem_map_of_mem (f := Context.owners) hc
  rw [Context.complete, Context.map_owners_completeIn, List.mem_map] at howners
  obtain ⟨d, hd, howners⟩ := howners
  exact (hclosed d hd).of_owners howners.symm

/-- The JSON of a tree loses no record. In every context of a run that ends well, there is JSON
exactly if every record inside has its own. The object with the records has then one member for each
of them, under the name of the module that keeps it, and the JSON of the children is listed in
order. Modules of different types may well share a name: those that keep a record in one context are
of one type. -/
theorem json_loses_no_record (e : Engine ρ) (hr : e.registry.Finalized) (cursor : Cursor)
    (directory : Option Path) (log : Log) (root : Context ρ)
    (hrun : e.run (e.opening (.outermost cursor directory)) = (log, .ok root)) :
    ∀ c ∈ root.walk,
      ((∃ j, c.toJson = .ok j) ↔
        ∀ d ∈ c.walk, ∀ h ∈ d.records, ∃ j, Record.toJson h.record = .ok j) ∧
      ∀ j, c.toJson = .ok j → ∃ shown, c.ShowsRecords e.registry j shown := by
  intro c hc
  rw [Context.walk_eq_preorder c]
  exact ⟨c.exists_toJson_iff, fun _ =>
    Context.showsRecords_of_issued hr (issued_of_run hr hrun c hc)⟩

end Engine

namespace Server

def namesakes : List (Module Settings) :=
  [Global.module Settings.globalKind, Http.blockModule,
    { Http.module Settings.httpKind with name := "core" }]

def namesakeRegistry : Registry Settings :=
  ⟨Draft.place [] (Module.conf :: namesakes)⟩

theorem finalized_namesakes : namesakeRegistry.Finalized := by
  have hhttp : Module.Declared { Http.module Settings.httpKind with name := "core" } :=
    declared_http
  have hdeclared : ∀ m ∈ namesakes, m.Declared := by
    simp [namesakes, declared_global, declared_block, hhttp]
  exact Registry.finalized_of_registerAll hdeclared rfl rfl

theorem Settings.exists_toJson (r : Settings) : ∃ j, Record.toJson r = .ok j := by
  cases r <;> exact ⟨_, rfl⟩

end Server

theorem Engine.json_loses_no_record_namesakes :
    let e : Engine Server.Settings := { Server.engineOver [] with
      registry := Server.namesakeRegistry }
    let start := e.opening (.outermost (Server.cursorOf
      "http \x7b server \x7b listen 9000; \x7d \x7d") none)
    e.registry.Finalized ∧ ∃ log root, e.run start = (log, .ok root) ∧
      root.walk.map Context.owners = [[(⟨1, 0, .core⟩, "core")],
        [(⟨3, 0, Server.httpTag⟩, "core")], [(⟨3, 0, Server.httpTag⟩, "core")]] ∧
      ∀ c ∈ root.walk, ∃ j shown, c.toJson = .ok j ∧ c.ShowsRecords e.registry j shown := by
  intro e start
  have hyields : e.yieldsWithin 20 start (fun root =>
      root.preorder.map Context.owners = [[(⟨1, 0, .core⟩, "core")],
        [(⟨3, 0, Server.httpTag⟩, "core")], [(⟨3, 0, Server.httpTag⟩, "core")]]) = true := by
    decide +kernel
  obtain ⟨log, root, hrun, howners⟩ := exists_run_of_yieldsWithin hyields
  refine ⟨Server.finalized_namesakes, log, root, hrun, ?_, fun c hc => ?_⟩
  · rw [Context.walk_eq_preorder, of_decide_eq_true howners]
  · obtain ⟨hiff, hshows⟩ := json_loses_no_record e Server.finalized_namesakes _ none log root hrun
      c hc
    obtain ⟨j, hj⟩ := hiff.mpr fun _ _ h _ => h.record.exists_toJson
    obtain ⟨shown, hshown⟩ := hshows j hj
    exact ⟨j, shown, hj, hshown⟩

end ScopedConf
