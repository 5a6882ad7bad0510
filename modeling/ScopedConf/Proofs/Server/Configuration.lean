import ScopedConf.Proofs.Server.Storing

/-! From the items of a configuration to the tree of its contexts. The engine leaves in every record
what the directives of its context say, and the completion of the tree adds what is inherited. -/

namespace ScopedConf

theorem Context.completeAll_append {ρ : Type} [Record ρ] (scope : Scope ρ)
    (cs ds : List (Context ρ)) :
    completeAll scope (cs ++ ds) = completeAll scope cs ++ completeAll scope ds := by
  induction cs with
  | nil => rfl
  | cons c cs ih => simp only [List.cons_append, completeAll, ih]

namespace Server

def uncompleted (bodies : List (List Item)) : Http :=
  ownSettings (bodies.headD [])

section completion

variable {outer : List (List Item)} {scope : Scope Settings}

/-- The nearest record is that of the contexts with the bodies `outer`, which are complete. -/
def Encloses (scope : Scope Settings) (outer : List (List Item)) : Prop :=
  scope.nearest? 3 = some (.http (settingsIn outer)) ∨ scope.nearest? 3 = none ∧ outer = []

theorem merge_field {α : Type} {default : α} {parent : Option Http} (field : Http → Setting α)
    (body : List Item) (hfield : field (settingsIn outer) = inForce field default outer)
    (hparent : parent = some (settingsIn outer) ∨ parent = none ∧ outer = []) :
    (field (ownSettings body)).merge (parent.map field) default =
      inForce field default (body :: outer) := by
  unfold inForce at hfield ⊢
  rw [List.findSome?_cons]
  rcases hparent with rfl | ⟨rfl, rfl⟩
  · cases h : (field (ownSettings body)).value? <;>
      simp [Setting.merge, Setting.inherit, Setting.valueOr, Setting.of, h, hfield]
  · cases h : (field (ownSettings body)).value? <;>
      simp [Setting.merge, Setting.inherit, Setting.valueOr, Setting.of, h]

theorem merge_ownSettings {parent : Option Http} (body : List Item)
    (hparent : parent = some (settingsIn outer) ∨ parent = none ∧ outer = []) :
    Record.merge (ownSettings body) parent = settingsIn (body :: outer) := by
  simp only [Record.merge, settingsIn, Http.mk.injEq]
  exact ⟨merge_field Http.listen body rfl hparent, merge_field Http.serverName body rfl hparent,
    merge_field Http.root body rfl hparent, merge_field Http.sendfile body rfl hparent,
    merge_field Http.keepaliveTimeout body rfl hparent,
    merge_field Http.clientBodyTimeout body rfl hparent,
    merge_field Http.clientMaxBodySize body rfl hparent,
    merge_field Http.clientBodyBuffers body rfl hparent,
    merge_field Http.gzipTypes body rfl hparent, merge_field Http.sslProtocols body rfl hparent,
    merge_field Http.serverTokens body rfl hparent, merge_field Http.defaultType body rfl hparent,
    merge_field Http.types body rfl hparent⟩

theorem map_complete_records (body : List Item) (hscope : Encloses scope outer) :
    (records (ownSettings body)).map (Held.complete scope) =
      records (settingsIn (body :: outer)) := by
  have hparent : (scope.nearest? 3).bind Settings.httpKind.view? = some (settingsIn outer) ∨
      (scope.nearest? 3).bind Settings.httpKind.view? = none ∧ outer = [] := by
    rcases hscope with h | ⟨h, houter⟩
    · exact .inl (by rw [h]; rfl)
    · exact .inr ⟨by rw [h]; rfl, houter⟩
  simp only [records, List.map_cons, List.map_nil, Held.complete]
  rw [← merge_ownSettings body hparent]
  rfl

mutual

theorem completeAll_contextOf {outer : List (List Item)} {scope : Scope Settings}
    (hscope : Encloses scope outer) (i : Item) :
    Context.completeAll scope (contextOf uncompleted outer i) = contextOf settingsIn outer i := by
  cases i with
  | directive s hs => rfl
  | block opening hopening body closing hclosing =>
    rw [contextOf, contextOf]
    split
    · rfl
    · have hinner : Encloses ((records (settingsIn (body :: outer))).reverse ++ scope)
          (body :: outer) := .inl rfl
      have hrecords := map_complete_records body hscope
      simp only [Context.completeAll, Context.completeIn, uncompleted, List.headD_cons, hrecords]
      rw [completeAll_contextsOf hinner body]

theorem completeAll_contextsOf {outer : List (List Item)} {scope : Scope Settings}
    (hscope : Encloses scope outer) (items : List Item) :
    Context.completeAll scope (contextsOf uncompleted outer items) =
      contextsOf settingsIn outer items := by
  cases items with
  | nil => rfl
  | cons i items =>
    rw [contextsOf, contextsOf, Context.completeAll_append, completeAll_contextOf hscope i,
      completeAll_contextsOf hscope items]

end

end completion

section execution

variable {e : Engine Settings} {f g : Frame Settings} {items body : List Item} {s : Statement}
  {m : Registry.Entry Settings} {d : Directive Settings} {spec : BlockSpec Settings}

def HasSettings (f : Frame Settings) : Prop :=
  f.moduleTag = httpTag ∧ (f.kind = Level.http ∨ f.kind = Level.server ∨ f.kind = Level.location)

theorem HasSettings.of_header (hf : HasSettings f) (h : g.header = f.header) : HasSettings g := by
  simp only [Frame.header, Prod.mk.injEq] at h
  rw [HasSettings, h.1, h.2.1]
  exact hf

theorem served_in_http : reference.entries.filter (Registry.Entry.serves httpTag) =
    [⟨⟨0, 0, .conf⟩, Module.conf⟩, ⟨⟨3, 0, httpTag⟩, Http.module Settings.httpKind⟩] := rfl

theorem served_at_top : reference.entries.filter (Registry.Entry.serves .core) =
    [⟨⟨0, 0, .conf⟩, Module.conf⟩, ⟨⟨1, 0, .core⟩, Global.module Settings.globalKind⟩,
      ⟨⟨2, 1, .core⟩, Http.blockModule⟩] := rfl

theorem mem_of_accept (he : e.registry = reference) (hf : HasSettings f)
    (h : e.accept f s = .ok (m, d, g)) (hh : d.handler ≠ .includeFiles) :
    m.id = ⟨3, 0, httpTag⟩ ∧ d ∈ Http.directives Settings.httpKind ∧ d.name = s.name := by
  obtain ⟨hlegal, hname⟩ := Engine.mem_of_lookUp (Engine.accept_eq_ok.mp h).1
  obtain ⟨hm, hd, -⟩ := Registry.mem_directivesIn.mp hlegal
  rw [he, hf.1, served_in_http] at hm
  simp only [List.mem_cons, List.not_mem_nil, or_false] at hm
  rcases hm with rfl | rfl
  · exact absurd (List.mem_singleton.mp hd ▸ rfl) hh
  · exact ⟨rfl, hd, hname⟩

theorem mem_of_accept_top (he : e.registry = reference) (htag : f.moduleTag = .core)
    (h : e.accept f s = .ok (m, d, g)) (hh : d.handler ≠ .includeFiles) :
    (m.id = ⟨1, 0, .core⟩ ∧ d ∈ Global.directives Settings.globalKind ∨
      d ∈ Http.blockModule.directives) ∧ d.name = s.name := by
  obtain ⟨hlegal, hname⟩ := Engine.mem_of_lookUp (Engine.accept_eq_ok.mp h).1
  obtain ⟨hm, hd, -⟩ := Registry.mem_directivesIn.mp hlegal
  rw [he, htag, served_at_top] at hm
  simp only [List.mem_cons, List.not_mem_nil, or_false] at hm
  rcases hm with rfl | rfl | rfl
  · exact absurd (List.mem_singleton.mp hd ▸ rfl) hh
  · exact ⟨.inl ⟨rfl, hd⟩, hname⟩
  · exact ⟨.inr hd, hname⟩

theorem slot_of_mem_global (hd : d ∈ Global.directives Settings.globalKind) :
    d.block = none ∧ ∃ set, d.handler = .slot set := by
  simp only [Global.directives, List.mem_cons, List.not_mem_nil, or_false] at hd
  rcases hd with rfl | rfl | rfl | rfl | rfl <;> exact ⟨rfl, _, rfl⟩

theorem block_of_accept (he : e.registry = reference) (htag : f.moduleTag = .core)
    (h : e.accept f s = .ok (m, d, g)) (hh : d.handler ≠ .includeFiles)
    (hblock : d.block = some spec) :
    d.handler = .none ∧ s.name = "http" ∧ spec = ⟨Level.http, httpTag, none⟩ := by
  obtain ⟨⟨-, hd⟩ | hd, hname⟩ := mem_of_accept_top he htag h hh
  · obtain ⟨hnone, -⟩ := slot_of_mem_global hd
    simp [hblock] at hnone
  · obtain rfl := List.mem_singleton.mp hd
    obtain rfl := Option.some.inj hblock
    exact ⟨rfl, hname.symm, rfl⟩

theorem block_of_mem (hd : d ∈ Http.directives Settings.httpKind) (hblock : d.block = some spec) :
    d.handler = .none ∧
      (d.name ≠ "types" ∧ spec = ⟨levelOf d.name, httpTag, none⟩ ∨
        d.name = "types" ∧ spec.strategy = some (Http.readTypes Settings.httpKind)) := by
  rcases slot_or_block hd with ⟨hnone, -⟩ | ⟨hhandler, spec', hspec, hcases⟩
  · simp [hblock] at hnone
  · obtain rfl := Option.some.inj (hblock.symm.trans hspec)
    exact ⟨hhandler, hcases⟩

theorem levelOf_cases (name : String) :
    levelOf name = Level.http ∨ levelOf name = Level.server ∨ levelOf name = Level.location := by
  unfold levelOf
  split
  · exact .inl rfl
  · split
    · exact .inr (.inl rfl)
    · exact .inr (.inr rfl)

theorem records_ofBlock (owner : Nat) (name : String) (opening : Statement) :
    (Frame.ofBlock reference owner ⟨levelOf name, httpTag, none⟩ opening).records =
      records (ownSettings []) := by
  rcases levelOf_cases name with h | h | h <;> rw [h] <;> rfl

theorem ownSettings_types {opening closing : Statement} {lines : List Item}
    (hopening : opening.terminator = .openBrace) (hclosing : closing.terminator = .closeBrace)
    (hname : opening.name = "types") :
    ownSettings (body ++ [.block opening hopening lines closing hclosing]) =
      { ownSettings body with
        types := ⟨together typeTable (typeLines body ++ Item.flattenAll lines)⟩ } := by
  simp [ownSettings, directivesNamed_block, typeLines_block, hname]

theorem ownSettings_block {opening closing : Statement} {inside : List Item}
    (hopening : opening.terminator = .openBrace) (hclosing : closing.terminator = .closeBrace)
    (hname : opening.name ≠ "types") :
    ownSettings (body ++ [.block opening hopening inside closing hclosing]) = ownSettings body := by
  simp [ownSettings, directivesNamed_block, typeLines_block, hname]

structure Reflects (f : Frame Settings) (outer : List (List Item)) (body : List Item) : Prop where
  level : HasSettings f
  records : f.records = records (ownSettings body)
  children : f.children = contextsOf uncompleted outer body

namespace Reflects

variable {f' : Frame Settings} {outer : List (List Item)} {opening closing : Statement}
  {inside : List Item}

theorem accepted (h : Reflects f outer body) (haccept : e.accept f s = .ok (m, d, f')) :
    Reflects f' outer body := by
  obtain ⟨hrecords, hchildren⟩ := Engine.records_of_accept haccept
  exact ⟨h.level.of_header (Engine.header_of_accept haccept), hrecords.trans h.records,
    hchildren.trans h.children⟩

theorem ofBlock (owner : Nat) (name : String) (opening : Statement) (outer : List (List Item)) :
    Reflects (Frame.ofBlock reference owner ⟨levelOf name, httpTag, none⟩ opening) outer [] :=
  ⟨⟨rfl, levelOf_cases name⟩, records_ofBlock owner name opening, rfl⟩

theorem directive (hs : s.terminator = .semicolon) (h : Reflects f outer body)
    (hd : d ∈ Http.directives Settings.httpKind) (hname : s.name = d.name) (hblock : d.block = none)
    (hobey : f.obey 3 d s = .ok g) : Reflects g outer (body ++ [.directive s hs]) := by
  have hlevel := h.level.of_header (Frame.updated_of_obey hobey).header
  obtain ⟨-, set, hset⟩ | ⟨-, spec, hspec, -⟩ := slot_or_block hd
  rotate_left
  · simp [hblock] at hspec
  obtain ⟨v, r, hr, -, rfl⟩ := Frame.eq_of_obey hset h.records hobey
  obtain rfl := eq_of_setter hs hd hname hset hr
  refine ⟨hlevel, rfl, ?_⟩
  rw [contextsOf_append, ← h.children]
  exact (List.append_nil _).symm

theorem close {owner : Nat} (hopening : opening.terminator = .openBrace)
    (hclosing : closing.terminator = .closeBrace) (h : Reflects f (inside :: outer) inside)
    (hheader : f.header = (Frame.ofBlock reference owner
      ⟨levelOf opening.name, httpTag, none⟩ opening).header) (hname : opening.name ≠ "types") :
    [f.close] =
      contextsOf uncompleted outer [.block opening hopening inside closing hclosing] := by
  simp only [Frame.header, Prod.mk.injEq] at hheader
  obtain ⟨hkind, -, -, hlabel, hlocation, -⟩ := hheader
  rw [contextsOf, contextOf, if_neg hname, Frame.close, hkind, hlabel, hlocation, h.records,
    h.children]
  rfl

theorem block {inner : Frame Settings} (hopening : opening.terminator = .openBrace)
    (hclosing : closing.terminator = .closeBrace) (h : Reflects f outer body)
    (hinner : [inner.close] =
      contextsOf uncompleted outer [.block opening hopening inside closing hclosing])
    (hname : opening.name ≠ "types") :
    Reflects { f with children := f.children ++ [inner.close] } outer
      (body ++ [.block opening hopening inside closing hclosing]) := by
  refine ⟨h.level.of_header rfl, ?_, ?_⟩
  · rw [ownSettings_block hopening hclosing hname]
    exact h.records
  · rw [contextsOf_append, h.children, hinner]

theorem lent (hopening : opening.terminator = .openBrace)
    (hclosing : closing.terminator = .closeBrace) (h : Reflects f outer body)
    (hlends : Engine.Lends (Http.readTypes Settings.httpKind) 3 f inside g)
    (hname : opening.name = "types") :
    Reflects g outer (body ++ [.block opening hopening inside closing hclosing]) := by
  have hlevel := h.level.of_header hlends.header
  have hrecords : f.records = Server.records
      { ownSettings body with types := ⟨together typeTable (typeLines body)⟩ } := h.records
  obtain rfl := eq_of_lends hlends hrecords
  refine ⟨hlevel, ?_, ?_⟩
  · rw [ownSettings_types hopening hclosing hname]
  · rw [contextsOf_append, ← h.children]
    simp [contextsOf, contextOf, hname]

/-- Inside `http`, items leave in a record what its directives say, and the contexts of their
blocks. -/
theorem of_executes (he : e.registry = reference) (h : e.Executes f items g)
    (hf : Reflects f outer body) : Reflects g outer (body ++ items) := by
  induction h generalizing body outer with
  | nil => rwa [List.append_nil]
  | @directive _ _ _ _ s hs items m d accept handler obey plain rest ih =>
    obtain ⟨hm, hd, hname⟩ := mem_of_accept he hf.level accept handler
    rw [hm] at obey
    have hnext := ih ((hf.accepted accept).directive hs hd hname.symm plain obey)
    rwa [List.append_assoc] at hnext
  | @block _ _ _ _ _ opening closing hopening hclosing inside items m d spec accept handler obey
      opens directives hinside rest ihinside ih =>
    obtain ⟨hm, hd, hname⟩ := mem_of_accept he hf.level accept handler
    obtain ⟨hnone, ⟨hother, rfl⟩ | ⟨-, htypes⟩⟩ := block_of_mem hd opens
    · simp only [Frame.obey, hnone, Except.ok.injEq] at obey
      subst obey
      rw [he, hm, hname] at ihinside hinside
      have hother : opening.name ≠ "types" := hname ▸ hother
      have hinner := ihinside (ofBlock 3 opening.name opening (inside :: outer))
      have hclose := hinner.close hopening hclosing hinside.header hother
      have hnext := ih ((hf.accepted accept).block hopening hclosing hclose hother)
      rwa [List.append_assoc] at hnext
    · simp [directives] at htypes
  | @lending _ _ _ _ _ opening closing hopening hclosing lines items m d spec handle accept handler
      obey opens strategy inside rest ih =>
    obtain ⟨hm, hd, hname⟩ := mem_of_accept he hf.level accept handler
    obtain ⟨hnone, ⟨-, rfl⟩ | ⟨htypes, hstrategy⟩⟩ := block_of_mem hd opens
    · simp at strategy
    · simp only [Frame.obey, hnone, Except.ok.injEq] at obey
      subst obey
      obtain rfl := Option.some.inj (strategy.symm.trans hstrategy)
      rw [hm] at inside
      have hnext := ih ((hf.accepted accept).lent hopening hclosing inside (hname ▸ htypes))
      rwa [List.append_assoc] at hnext

end Reflects

theorem moduleTag_of_header (h : g.header = f.header) : g.moduleTag = f.moduleTag := by
  simp only [Frame.header, Prod.mk.injEq] at h
  exact h.2.1

/-- At the top level, items leave the contexts of their `http` blocks. -/
theorem children_of_executes (he : e.registry = reference) (h : e.Executes f items g)
    (htag : f.moduleTag = .core) (hf : f.children = contextsOf uncompleted [] body) :
    g.children = contextsOf uncompleted [] (body ++ items) := by
  induction h generalizing body with
  | nil => rwa [List.append_nil]
  | @directive f f' k last s hs items m d accept handler obey plain rest ih =>
    have hheader := Engine.header_of_obey accept obey
    have hk : k.children = contextsOf uncompleted [] (body ++ [.directive s hs]) := by
      rw [Engine.children_of_obey accept obey, contextsOf_append, ← hf]
      exact (List.append_nil _).symm
    have hnext := ih ((moduleTag_of_header hheader).trans htag) hk
    rwa [List.append_assoc] at hnext
  | @block f f' k inner last opening closing hopening hclosing inside items m d spec accept handler
      obey opens directives hinside rest ihinside ih =>
    have hheader := Engine.header_of_obey accept obey
    have hkept := Engine.children_of_obey accept obey
    obtain ⟨hnone, hname, rfl⟩ := block_of_accept he htag accept handler opens
    have hlevel : Level.http = levelOf opening.name := by rw [hname]; rfl
    rw [he, hlevel] at hinside
    have hfresh := Reflects.ofBlock m.id.index opening.name opening [inside]
    have hinner := hfresh.of_executes he hinside
    have hclose := hinner.close hopening hclosing hinside.header (by rw [hname]; decide)
    have hk : k.children ++ [inner.close] =
        contextsOf uncompleted [] (body ++ [.block opening hopening inside closing hclosing]) := by
      rw [contextsOf_append, ← hf, ← hclose, hkept]
    have hnext := ih ((moduleTag_of_header hheader).trans htag) hk
    rwa [List.append_assoc] at hnext
  | lending accept handler obey opens strategy inside rest ih =>
    obtain ⟨-, -, rfl⟩ := block_of_accept he htag accept handler opens
    simp at strategy

theorem encloses_top (he : e.registry = reference)
    (hg : g.header = (Frame.root e.registry).header) :
    Encloses ((g.records.map (Held.complete [])).reverse ++ []) [] := by
  have hmodules : g.records.map Held.module = [⟨1, 0, .core⟩] := by
    simp only [Frame.header, Prod.mk.injEq] at hg
    rw [hg.2.2.2.2.2, he]
    rfl
  refine .inr ⟨?_, rfl⟩
  rw [Scope.nearest?, Option.map_eq_none_iff, List.find?_eq_none]
  intro h hh
  simp only [List.append_nil, List.mem_reverse, List.mem_map] at hh
  obtain ⟨held, hheld, rfl⟩ := hh
  have hmodule : held.module ∈ [⟨1, 0, .core⟩] := hmodules ▸ List.mem_map_of_mem hheld
  simp [Held.complete, List.mem_singleton.mp hmodule]

theorem children_complete_of_executes (he : e.registry = reference)
    (h : e.Executes (Frame.root e.registry) items g) :
    g.close.complete.children = contextsOf settingsIn [] items := by
  have hroot : (Frame.root e.registry).children = contextsOf uncompleted [] [] := rfl
  have hchildren := children_of_executes he h rfl hroot
  rw [List.nil_append] at hchildren
  have hcomplete : g.close.complete.children =
      Context.completeAll ((g.records.map (Held.complete [])).reverse ++ []) g.children := rfl
  rw [hcomplete, hchildren, completeAll_contextsOf (encloses_top he h.header)]

end execution

/-- A configuration that is read to its end means what the directives say that were executed: in
every context, a field has the value that they give it directly there, or else in the nearest
context around it, or else the default. -/
theorem contexts_of_run (e : Engine Settings)
    (he : (registry Settings.globalKind Settings.httpKind).2 = .ok e.registry) (cursor : Cursor)
    (directory : Option Path) (log : Log) (root : Context Settings)
    (hrun : e.run (e.opening (.outermost cursor directory)) = (log, .ok root)) :
    ∃ final items, e.Reaches (.start (e.opening (.outermost cursor directory))) final ∧
      final.state.sources = [] ∧
      Splices e directory cursor.stream.statements final.handled final.spliced ∧
      (∀ others, Item.flattenAll others = final.spliced ↔ others = items) ∧
      root.children = contextsOf settingsIn [] items := by
  rw [registry_eq_reference, Except.ok.injEq] at he
  have hr : e.registry.Finalized := he ▸ finalized_reference
  obtain ⟨final, items, g, hreaches, hsources, hsplices, hreading, hexecutes, rfl⟩ :=
    Engine.exists_executed hr hrun
  exact ⟨final, items, hreaches, hsources, hsplices, hreading,
    children_complete_of_executes he.symm hexecutes⟩

theorem contexts_of_run_inherited :
    let e := engineOver [("a.conf", "server \x7b root /a; types \x7b text/css CSS; \x7d \x7d")]
    let start := e.opening (.outermost (cursorOf "http \x7b include a.conf; root /b; \x7d") none)
    (registry Settings.globalKind Settings.httpKind).2 = .ok e.registry ∧
      ∃ log root, e.run start = (log, .ok root) ∧
        ∃ final items, e.Reaches (.start start) final ∧ Item.flattenAll items = final.spliced ∧
          root.children = contextsOf settingsIn [] items := by
  intro e start
  have hsucceeds : e.succeedsWithin 20 start = true := by decide +kernel
  obtain ⟨log, root, hrun⟩ := Engine.exists_run_of_succeedsWithin hsucceeds
  obtain ⟨final, items, hreaches, -, -, hreading, hchildren⟩ :=
    contexts_of_run e registry_eq_reference _ none log root hrun
  exact ⟨registry_eq_reference, log, root, hrun, final, items, hreaches,
    (hreading items).mpr rfl, hchildren⟩

end Server

end ScopedConf
