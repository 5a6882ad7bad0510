import ScopedConf.Proofs.Isolation
import ScopedConf.Proofs.Server.Endpoints
import ScopedConf.Proofs.Server.WellFormed
import Mathlib.Data.List.Forall2
import Mathlib.Data.List.Nodup

/-! Default servers. The hook that runs on a complete tree refuses two default servers on one
address and port. It reads the merged records, and finds there what the lines of the servers say and
nothing else: no server takes over the lines of another context, and the default is not marked. -/

namespace ScopedConf

namespace Hook

variable {ε : Type} {hook : List Event × Except ε Unit} {hooks : List (List Event × Except ε Unit)}

theorem snd_sequence_cons (h : hook.2 = .ok ()) :
    (sequence (hook :: hooks)).2 = (sequence hooks).2 := by
  obtain ⟨events, result⟩ := hook
  obtain rfl : result = .ok () := h
  rfl

theorem snd_sequence_singleton (hook : List Event × Except ε Unit) :
    (sequence [hook]).2 = hook.2 := by
  obtain ⟨events, result⟩ := hook
  cases result <;> rfl

end Hook

namespace Server

def bodiesNamed (name : String) (items : List Item) : List (List Item) :=
  items.filterMap fun
    | .directive .. => none
    | .block opening _ body _ _ => if opening.name = name then some body else none

def marksDefault (s : Statement) : Bool :=
  second? s = some "default_server"

/-- The lines that mark a default server, server by server, in the order in which they stand. -/
def markedLines (items : List Item) : List Statement :=
  (bodiesNamed "http" items).flatMap fun http =>
    (bodiesNamed "server" http).flatMap fun server =>
      (directivesNamed "listen" server).filter marksDefault

/-- The line makes its server listen there. -/
def ListensAt (s : Statement) (endpoint : String × Nat) : Prop :=
  SaysEndpoint s.argument.toList endpoint

/-- The first element that stands in front of itself already. -/
def FirstRepeated {α : Type} (a : α) (xs : List α) : Prop :=
  ∃ before after, xs = before ++ a :: after ∧ before.Nodup ∧ a ∈ before

section repetition

variable {α : Type} [DecidableEq α] {seen xs : List α} {a : α}

theorem firstRepeated?_eq_none_iff :
    Http.firstRepeated? seen xs = none ↔ xs.Nodup ∧ ∀ b ∈ xs, b ∉ seen := by
  induction xs generalizing seen with
  | nil => simp [Http.firstRepeated?]
  | cons x xs ih =>
    rw [Http.firstRepeated?]
    split
    · next hx => simp [hx]
    · next hx =>
      rw [ih, List.nodup_cons, List.forall_mem_cons]
      simp only [List.mem_cons, not_or]
      constructor
      · rintro ⟨hnodup, hapart⟩
        exact ⟨⟨fun hmem => (hapart x hmem).1 rfl, hnodup⟩, hx, fun b hb => (hapart b hb).2⟩
      · rintro ⟨⟨hfresh, hnodup⟩, -, hapart⟩
        exact ⟨hnodup, fun b hb => ⟨fun heq => hfresh (heq ▸ hb), hapart b hb⟩⟩

theorem exists_of_firstRepeated? (h : Http.firstRepeated? seen xs = some a) :
    ∃ before after, xs = before ++ a :: after ∧ before.Nodup ∧ (∀ b ∈ before, b ∉ seen) ∧
      (a ∈ before ∨ a ∈ seen) := by
  induction xs generalizing seen with
  | nil => simp [Http.firstRepeated?] at h
  | cons x xs ih =>
    rw [Http.firstRepeated?] at h
    split at h
    · next hx =>
      obtain rfl := Option.some.inj h
      exact ⟨[], xs, rfl, .nil, by simp, .inr hx⟩
    · next hx =>
      obtain ⟨before, after, rfl, hnodup, hapart, hrepeated⟩ := ih h
      simp only [List.mem_cons, not_or] at hapart hrepeated
      refine ⟨x :: before, after, rfl, ?_, ?_, ?_⟩
      · exact List.nodup_cons.mpr ⟨fun hmem => (hapart x hmem).1 rfl, hnodup⟩
      · exact List.forall_mem_cons.mpr ⟨hx, fun b hb => (hapart b hb).2⟩
      · rcases hrepeated with hbefore | rfl | hseen
        · exact .inl (List.mem_cons_of_mem _ hbefore)
        · exact .inl List.mem_cons_self
        · exact .inr hseen

theorem firstRepeated?_cases (xs : List α) :
    Http.firstRepeated? [] xs = none ∧ xs.Nodup ∨
      ∃ a, Http.firstRepeated? [] xs = some a ∧ FirstRepeated a xs ∧ ¬xs.Nodup := by
  cases h : Http.firstRepeated? [] xs with
  | none => exact .inl ⟨rfl, (firstRepeated?_eq_none_iff.mp h).1⟩
  | some a =>
    obtain ⟨before, after, hxs, hnodup, -, hrepeated⟩ := exists_of_firstRepeated? h
    have hbefore : a ∈ before := by simpa using hrepeated
    refine .inr ⟨a, rfl, ⟨before, after, hxs, hnodup, hbefore⟩, fun hall => ?_⟩
    rw [firstRepeated?_eq_none_iff.mpr ⟨hall, by simp⟩] at h
    simp at h

end repetition

section lines

variable {s : Statement} {l : Listener}

theorem word_eq_some_iff {α ε : Type} {read : String → Except ε α} {a : α} :
    word read s = some a ↔ read s.argument = .ok a := by
  unfold word
  cases read s.argument <;> simp [Except.toOption]

theorem listensAt_of_listener (h : listener s = some l) :
    ListensAt s (l.address, l.port) ∧ l.isDefault = marksDefault s := by
  simp only [listener, Option.bind_eq_bind, Option.bind_eq_some_iff] at h
  obtain ⟨⟨address, port⟩, hword, isDefault, hmark, hl⟩ := h
  obtain rfl := Option.some.inj hl
  refine ⟨(Listener.readEndpoint_eq_ok_iff.mp (word_eq_some_iff.mp hword)).1, ?_⟩
  cases hsecond : second? s with
  | none =>
    rw [hsecond] at hmark
    obtain rfl := Option.some.inj hmark
    simp [marksDefault, hsecond]
  | some second =>
    rw [hsecond, Listener.readMark] at hmark
    split at hmark
    · next hdefault =>
      obtain rfl := Option.some.inj hmark
      simp [marksDefault, hsecond, hdefault]
    · simp [Except.toOption] at hmark

theorem forall₂_listensAt {ss : List Statement} (h : ∀ s ∈ ss, ∃ l, listener s = some l) :
    List.Forall₂ ListensAt (ss.filter marksDefault)
      (((ss.filterMap listener).filter Listener.isDefault).map fun l => (l.address, l.port)) := by
  induction ss with
  | nil => exact .nil
  | cons s ss ih =>
    obtain ⟨⟨l, hl⟩, hlater⟩ := List.forall_mem_cons.mp h
    obtain ⟨hlistens, hmark⟩ := listensAt_of_listener hl
    rw [List.filterMap_cons_some hl, List.filter_cons, List.filter_cons, hmark]
    cases marksDefault s with
    | false => exact ih hlater
    | true => exact .cons hlistens (ih hlater)

theorem forall₂_listensAt_unique {ss : List Statement} {endpoints others : List (String × Nat)}
    (h : List.Forall₂ ListensAt ss endpoints) (hothers : List.Forall₂ ListensAt ss others) :
    others = endpoints := by
  induction h generalizing others with
  | nil => exact List.forall₂_nil_left_iff.mp hothers
  | cons hfirst _ ih =>
    cases hothers with
    | cons hother hrest => rw [ih hrest, SaysEndpoint.unique hother hfirst]

end lines

section execution

variable {e : Engine Settings} {f g : Frame Settings} {items body : List Item} {s : Statement}
  {name : String}

theorem exists_of_mem_directivesNamed (h : s ∈ directivesNamed name items) :
    s.name = name ∧ ∃ hs, .directive s hs ∈ items := by
  obtain ⟨item, hitem, hs⟩ := List.mem_filterMap.mp h
  cases item with
  | directive t ht =>
    simp only [Option.ite_none_right_eq_some, Option.some.injEq] at hs
    obtain ⟨hname, rfl⟩ := hs
    exact ⟨hname, ht, hitem⟩
  | block => simp at hs

theorem exists_of_mem_bodiesNamed (h : body ∈ bodiesNamed name items) :
    ∃ opening hopening closing hclosing, opening.name = name ∧
      .block opening hopening body closing hclosing ∈ items := by
  obtain ⟨item, hitem, hbody⟩ := List.mem_filterMap.mp h
  cases item with
  | directive => simp at hbody
  | block opening hopening inside closing hclosing =>
    simp only [Option.ite_none_right_eq_some, Option.some.injEq] at hbody
    obtain ⟨hname, rfl⟩ := hbody
    exact ⟨opening, hopening, closing, hclosing, hname, hitem⟩

theorem executes_http (he : e.registry = reference) (h : e.Executes f items g)
    (htag : f.moduleTag = .core) (hbody : body ∈ bodiesNamed "http" items) :
    ∃ k inner, HasSettings k ∧ k.kind = Level.http ∧ e.Executes k body inner := by
  obtain ⟨opening, hopening, closing, hclosing, -, hmem⟩ := exists_of_mem_bodiesNamed hbody
  obtain ⟨k, used, m, d, spec, hheader, haccept, hhandler, hblock, hinside⟩ :=
    h.exists_of_block hmem
  obtain ⟨-, -, rfl⟩ :=
    block_of_accept he ((moduleTag_of_header hheader).trans htag) haccept hhandler hblock
  obtain ⟨inner, hexecutes⟩ := hinside rfl
  exact ⟨_, inner, ⟨rfl, .inl rfl⟩, rfl, hexecutes⟩

theorem executes_server (he : e.registry = reference) (h : e.Executes f items g)
    (hf : HasSettings f) (hbody : body ∈ bodiesNamed "server" items) :
    ∃ k inner, HasSettings k ∧ e.Executes k body inner := by
  obtain ⟨opening, hopening, closing, hclosing, hname, hmem⟩ := exists_of_mem_bodiesNamed hbody
  obtain ⟨k, used, m, d, spec, hheader, haccept, hhandler, hblock, hinside⟩ :=
    h.exists_of_block hmem
  obtain ⟨-, hd, hdname⟩ := mem_of_accept he (hf.of_header hheader) haccept hhandler
  obtain ⟨-, ⟨-, rfl⟩ | ⟨htypes, -⟩⟩ := block_of_mem hd hblock
  · obtain ⟨inner, hexecutes⟩ := hinside rfl
    exact ⟨_, inner, ⟨rfl, levelOf_cases d.name⟩, hexecutes⟩
  · rw [hdname, hname] at htypes
    exact absurd htypes (by decide)

theorem eq_of_name_listen {d : Directive Settings} (hd : d ∈ Http.directives Settings.httpKind)
    (hname : d.name = "listen") :
    d = .setting "listen" (.exactly 1 ||| .exactly 2) Level.server
      (Http.setListen Settings.httpKind) := by
  simp only [Http.directives, List.mem_cons, List.not_mem_nil, or_false] at hd
  rcases hd with rfl | rfl | rfl | rfl | rfl | rfl | rfl | rfl | rfl | rfl | rfl | rfl | rfl | rfl |
    rfl
  case inr.inr.inr.inl => rfl
  all_goals simp [Directive.blockOnly, Directive.opening, Directive.setting, Directive.checked,
    Directive.plain] at hname

theorem kind_of_allowedIn_listen (hf : HasSettings f)
    (h : (Directive.setting "listen" (.exactly 1 ||| .exactly 2) Level.server
      (Http.setListen Settings.httpKind)).allowedIn f.kind = true) : f.kind = Level.server := by
  rcases hf.2 with hhttp | hserver | hlocation
  · rw [hhttp] at h
    exact absurd h (by decide)
  · exact hserver
  · rw [hlocation] at h
    exact absurd h (by decide)

theorem listener_of_obey {index : Nat} (h : f.obey index (Directive.setting "listen"
    (.exactly 1 ||| .exactly 2) Level.server (Http.setListen Settings.httpKind)) s = .ok g) :
    ∃ l, listener s = some l := by
  rcases Frame.change_of_obey h with ⟨-, hnone⟩ | ⟨set, value, hset, hchange⟩
  · exact absurd rfl (hnone _)
  · obtain rfl := Handler.slot.inj hset
    obtain ⟨⟨v, records⟩, hheld, -⟩ := map_eq_ok.mp hchange
    obtain ⟨r, r', hr⟩ := Held.exists_of_change hheld
    cases r with
    | global p => simp [Http.setListen, Settings.httpKind] at hr
    | http p =>
      obtain ⟨l, hl, -⟩ := listener_of_setListen hr
      exact ⟨l, hl⟩

theorem listener_of_executes (he : e.registry = reference) (h : e.Executes f items g)
    (hf : HasSettings f) (hs : s ∈ directivesNamed "listen" items) :
    f.kind = Level.server ∧ ∃ l, listener s = some l := by
  obtain ⟨hname, hsemi, hmem⟩ := exists_of_mem_directivesNamed hs
  obtain ⟨k, used, last, m, d, hheader, haccept, hhandler, hobey⟩ := h.exists_of_directive hmem
  have hk := hf.of_header hheader
  obtain ⟨-, hd, hdname⟩ := mem_of_accept he hk haccept hhandler
  obtain rfl := eq_of_name_listen hd (hdname.trans hname)
  have hserver := kind_of_allowedIn_listen hk (Engine.allowedIn_of_accept haccept)
  simp only [Frame.header, Prod.mk.injEq] at hheader
  exact ⟨hheader.1 ▸ hserver, listener_of_obey hobey⟩

end execution

section trees

variable {items server http : List Item} {c : Context Settings}

structure Realizes (outer : List (List Item)) (body : List Item) (c : Context Settings) : Prop where
  record : c.record? Settings.httpKind = some (settingsIn (body :: outer))
  children : c.children = contextsOf settingsIn (body :: outer) body

def defaultEndpoints (root : Context Settings) : List (String × Nat) :=
  (root.childrenNamed "http").flatMap fun http =>
    (Http.defaultListeners Settings.httpKind http).map fun l => (l.address, l.port)

theorem forall₂_realizes (outer : List (List Item)) (items : List Item) {name : String}
    (htypes : name ≠ "types") (hname : name ≠ "") :
    List.Forall₂ (Realizes outer) (bodiesNamed name items)
      ((contextsOf settingsIn outer items).filter fun c => c.label.head? == some name) := by
  induction items with
  | nil => exact .nil
  | cons i items ih =>
    rw [contextsOf, List.filter_append]
    cases i with
    | directive s hs => exact ih
    | block opening hopening body closing hclosing =>
      by_cases hopens : opening.name = name
      · have hhead : opening.words.head? = some name := (head?_words_iff hname).mpr hopens
        have hother : opening.name ≠ "types" := hopens ▸ htypes
        have hbodies : bodiesNamed name (.block opening hopening body closing hclosing :: items) =
            body :: bodiesNamed name items := by simp [bodiesNamed, hopens]
        rw [hbodies, contextOf, if_neg hother]
        simp only [List.filter_singleton, Context.label, hhead, beq_self_eq_true]
        exact .cons ⟨rfl, rfl⟩ ih
      · have hhead : opening.words.head? ≠ some name := mt (head?_words_iff hname).mp hopens
        have hbodies : bodiesNamed name (.block opening hopening body closing hclosing :: items) =
            bodiesNamed name items := by simp [bodiesNamed, hopens]
        rw [hbodies, contextOf]
        split
        · exact ih
        · simpa [Context.label, hhead] using ih

theorem forall₂_flatMap {α β γ δ : Type} {R : α → β → Prop} {P : γ → δ → Prop} {as : List α}
    {bs : List β} {f : α → List γ} {g : β → List δ} (h : List.Forall₂ R as bs)
    (hfg : ∀ a ∈ as, ∀ b, R a b → List.Forall₂ P (f a) (g b)) :
    List.Forall₂ P (as.flatMap f) (bs.flatMap g) := by
  induction h with
  | nil => exact .nil
  | cons hfirst _ ih =>
    obtain ⟨hhead, hlater⟩ := List.forall_mem_cons.mp hfg
    rw [List.flatMap_cons, List.flatMap_cons]
    exact List.rel_append (hhead _ hfirst) (ih hlater)

theorem filter_listen_settingsIn (h : directivesNamed "listen" http = []) :
    ((settingsIn [server, http]).listen.valueOr []).filter Listener.isDefault =
      ((directivesNamed "listen" server).filterMap listener).filter Listener.isDefault := by
  by_cases hown : directivesNamed "listen" server = []
  · simp [settingsIn, inForce, ownSettings, together, h, hown, Setting.valueOr, Setting.of,
      Listener.usual]
  · simp [settingsIn, inForce, ownSettings, together, hown, Setting.valueOr, Setting.of]

/-- Where no line for all servers stands in `http`, its default servers are those of the lines. -/
theorem forall₂_defaultListeners (hc : Realizes [] http c)
    (hnone : directivesNamed "listen" http = [])
    (hread : ∀ server ∈ bodiesNamed "server" http, ∀ s ∈ directivesNamed "listen" server,
      ∃ l, listener s = some l) :
    List.Forall₂ ListensAt
      ((bodiesNamed "server" http).flatMap fun server =>
        (directivesNamed "listen" server).filter marksDefault)
      ((Http.defaultListeners Settings.httpKind c).map fun l => (l.address, l.port)) := by
  have htypes : "server" ≠ "types" := by decide
  have hservers := forall₂_realizes [http] http htypes (by decide)
  rw [Http.defaultListeners, Context.childrenNamed, hc.children, List.map_flatMap]
  refine forall₂_flatMap hservers fun server hserver d hd => ?_
  simp only [hd.record, filter_listen_settingsIn hnone]
  exact forall₂_listensAt (hread server hserver)

theorem forall₂_defaultEndpoints {e : Engine Settings} {g : Frame Settings}
    (he : e.registry = reference) (h : e.Executes (Frame.root e.registry) items g) :
    List.Forall₂ ListensAt (markedLines items) (defaultEndpoints g.close.complete) := by
  have htypes : "http" ≠ "types" := by decide
  have hblocks := forall₂_realizes [] items htypes (by decide)
  rw [← children_complete_of_executes he h] at hblocks
  refine forall₂_flatMap hblocks fun http hhttp c hc => ?_
  obtain ⟨k, inner, hk, hkind, hinside⟩ := executes_http he h rfl hhttp
  refine forall₂_defaultListeners hc ?_ fun server hserver s hs => ?_
  · refine List.eq_nil_iff_forall_not_mem.mpr fun s hs => ?_
    have hlevel := (listener_of_executes he hinside hk hs).1
    rw [hkind] at hlevel
    exact absurd hlevel (by decide)
  · obtain ⟨k', inner', hk', hinside'⟩ := executes_server he hinside hk hserver
    exact (listener_of_executes he hinside' hk' hs).2

end trees

section hooks

variable {root : Context Settings}

theorem WellFormed.initContext_core (h : WellFormed root) :
    ((Global.module Settings.globalKind).initContext root).2 = .ok () := by
  obtain ⟨g, hrecords, -⟩ := h.record
  have hrecord : root.record? Settings.globalKind = some g := by
    rw [Context.record?, hrecords]
    rfl
  simp only [Global.module, Global.initContext, hrecord]

theorem WellFormed.initContext_http (h : WellFormed root) :
    ((Http.module Settings.httpKind).initContext root).2 =
      match Http.firstRepeated? [] (defaultEndpoints root) with
      | some (address, port) => .error s!"a duplicate default server for {address}:{port}"
      | none => .ok () := by
  have hsingle : (root.childrenNamed "http").length ≤ 1 :=
    Nat.le_trans (List.length_filter_le _ _) h.single
  unfold defaultEndpoints Http.module
  simp only
  generalize root.childrenNamed "http" = blocks at hsingle ⊢
  match blocks with
  | [] => rfl
  | [c] =>
    rw [List.flatMap_singleton, List.map_singleton, Hook.snd_sequence_singleton, Http.checkDefaults]
    generalize Http.firstRepeated? [] ((Http.defaultListeners Settings.httpKind c).map fun l =>
      (l.address, l.port)) = first
    cases first with
    | none => rfl
    | some endpoint => rfl
  | _ :: _ :: _ => simp at hsingle

theorem WellFormed.initContext_reference (h : WellFormed root) :
    (reference.initContext root).2 =
      ((Http.module Settings.httpKind).initContext root).2.mapError fun reason =>
        .of (.hookFailed "http_core" reason) := by
  have hcore : ((Global.module Settings.globalKind).outcome
      ((Global.module Settings.globalKind).initContext root)).2 = .ok () :=
    mapError_eq_ok.mpr h.initContext_core
  have hmodules : reference.entries.map Registry.Entry.module = draft.modules := rfl
  rw [Registry.initContext, hmodules]
  simp only [draft, modules, Draft.runHooks, List.map_cons, List.map_nil]
  rw [Hook.snd_sequence_cons rfl, Hook.snd_sequence_cons hcore, Hook.snd_sequence_cons rfl,
    Hook.snd_sequence_singleton]
  rfl

end hooks

/-- On a complete tree, the hooks refuse repeated default servers and nothing else. The endpoints of
the lines that mark a default server, over all servers of the `http` block, are to differ; else the
hook of the module that serves the web fails, with the first of them that occurs in front of itself.
The hook for the settings of the process never fails. -/
theorem duplicate_defaults_rejected (e : Engine Settings)
    (he : (registry Settings.globalKind Settings.httpKind).2 = .ok e.registry) (cursor : Cursor)
    (directory : Option Path) (log : Log) (root : Context Settings)
    (hrun : e.run (e.opening (.outermost cursor directory)) = (log, .ok root)) :
    ∃ final items endpoints, e.Reaches (.start (e.opening (.outermost cursor directory))) final ∧
      final.state.sources = [] ∧
      Splices e directory cursor.stream.statements final.handled final.spliced ∧
      (∀ others, Item.flattenAll others = final.spliced ↔ others = items) ∧
      (∀ others, List.Forall₂ ListensAt (markedLines items) others ↔ others = endpoints) ∧
      ((e.registry.initContext root).2 = .ok () ↔ endpoints.Nodup) ∧
      (¬endpoints.Nodup → ∃ address port, FirstRepeated (address, port) endpoints ∧
        (e.registry.initContext root).2 = .error (.of (.hookFailed "http_core"
          s!"a duplicate default server for {address}:{port}"))) ∧
      ((Global.module Settings.globalKind).initContext root).2 = .ok () := by
  rw [registry_eq_reference, Except.ok.injEq] at he
  have hr : e.registry.Finalized := he ▸ finalized_reference
  have hroot := wellFormed_of_run he.symm hrun
  obtain ⟨final, items, g, hreaches, hsources, hsplices, hreading, hexecutes, rfl⟩ :=
    Engine.exists_executed hr hrun
  have hendpoints := forall₂_defaultEndpoints he.symm hexecutes
  refine ⟨final, items, defaultEndpoints g.close.complete, hreaches, hsources, hsplices, hreading,
    fun others => ⟨forall₂_listensAt_unique hendpoints, fun h => h ▸ hendpoints⟩, ?_⟩
  rw [← he, hroot.initContext_reference, hroot.initContext_http]
  rcases firstRepeated?_cases (defaultEndpoints g.close.complete) with
    ⟨hnone, hnodup⟩ | ⟨⟨address, port⟩, hfirst, hrepeated, hnodup⟩
  · rw [hnone]
    exact ⟨iff_of_true rfl hnodup, fun h => absurd hnodup h, hroot.initContext_core⟩
  · rw [hfirst]
    refine ⟨iff_of_false (mt mapError_eq_ok.mp ?_) hnodup,
      fun _ => ⟨address, port, hrepeated, rfl⟩, hroot.initContext_core⟩
    simp

/-- A port alone stands for the address `*`; other addresses and ports do not get in the way. -/
theorem duplicate_defaults_rejected_included :
    let e := engineOver [("a.conf", "server \x7b listen 8080 default_server; \x7d server \x7b " ++
      "listen [::1]:80 default_server; listen *:80 default_server; \x7d")]
    let start := e.opening (.outermost (cursorOf
      "http \x7b server \x7b listen 80 default_server; \x7d include a.conf; \x7d") none)
    (registry Settings.globalKind Settings.httpKind).2 = .ok e.registry ∧
      ∃ log root, e.run start = (log, .ok root) ∧
        (e.registry.initContext root).2 = .error (.of (.hookFailed "http_core"
          "a duplicate default server for *:80")) ∧
        ∃ final items endpoints, e.Reaches (.start start) final ∧
          Item.flattenAll items = final.spliced ∧
          List.Forall₂ ListensAt (markedLines items) endpoints ∧ ¬endpoints.Nodup := by
  intro e start
  have hyields : e.yieldsWithin 40 start (fun root =>
      match (e.registry.initContext root).2 with
      | .error f => f = .of (.hookFailed "http_core" "a duplicate default server for *:80")
      | .ok () => false) = true := by decide +kernel
  obtain ⟨log, root, hrun, hrefused⟩ := Engine.exists_run_of_yieldsWithin hyields
  obtain ⟨final, items, endpoints, hreaches, -, -, hreading, hlines, haccepted, -, -⟩ :=
    duplicate_defaults_rejected e registry_eq_reference _ none log root hrun
  have hresult : (e.registry.initContext root).2 = .error (.of (.hookFailed "http_core"
      "a duplicate default server for *:80")) := by
    split at hrefused
    · next f hf => rw [hf, of_decide_eq_true hrefused]
    · simp at hrefused
  refine ⟨registry_eq_reference, log, root, hrun, hresult, final, items, endpoints, hreaches,
    (hreading items).mpr rfl, (hlines endpoints).mpr rfl, ?_⟩
  rw [← haccepted, hresult]
  simp

end Server

end ScopedConf
