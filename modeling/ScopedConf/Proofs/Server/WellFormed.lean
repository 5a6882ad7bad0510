import ScopedConf.Engine.Parse
import ScopedConf.Proofs.Server.Soundness

/-! The shape of the trees that a parse leaves, and what their records hold. What the directives
leave behind is sound while the tree is built, and the completion of the tree makes it complete. -/

namespace ScopedConf

theorem Context.mem_completeAll {ρ : Type} [Record ρ] {scope : Scope ρ} {cs : List (Context ρ)}
    {d : Context ρ} (hd : d ∈ completeAll scope cs) : ∃ c ∈ cs, d = completeIn scope c := by
  induction cs with
  | nil => simp [completeAll] at hd
  | cons c cs ih =>
    rw [completeAll] at hd
    rcases List.mem_cons.mp hd with rfl | hlater
    · exact ⟨c, List.mem_cons_self, rfl⟩
    · obtain ⟨c', hc', rfl⟩ := ih hlater
      exact ⟨c', List.mem_cons_of_mem _ hc', rfl⟩

theorem Context.length_completeAll {ρ : Type} [Record ρ] (scope : Scope ρ)
    (cs : List (Context ρ)) : (completeAll scope cs).length = cs.length := by
  induction cs with
  | nil => rfl
  | cons c cs ih => rw [completeAll, List.length_cons, List.length_cons, ih]

namespace Server

/-- The name of the blocks inside one of this name: servers in `http`, locations in servers and in
locations. -/
def inside (name : String) : String :=
  if name = "http" then "server" else "location"

/-- A block of this name with one record, of the module that serves the web, and with blocks of the
right names inside. Every record has the property. -/
inductive Nested (P : Http → Prop) : String → Context Settings → Prop
  | node {name : String} {label : List String} {location : Option Location} {h : Http}
    {children : List (Context Settings)} (label_eq : label.head? = some name) (record : P h)
    (children_nested : ∀ c ∈ children, Nested P (inside name) c) :
    Nested P name (.node (levelOf name) label location (records h) children)

def globalRecords (g : Global) : List (Held Settings) :=
  [⟨⟨1, 0, .core⟩, "core", .global g⟩]

/-- The top level has the record of the process settings and one `http` block at most, and every
record of the tree is complete. -/
structure WellFormed (root : Context Settings) : Prop where
  record : ∃ g : Global, root.records = globalRecords g ∧ g.Complete
  single : root.children.length ≤ 1
  children : ∀ c ∈ root.children, Nested Http.Complete "http" c

section completion

def Surrounded (scope : Scope Settings) : Prop :=
  ∀ h ∈ (scope.nearest? 3).bind Settings.httpKind.view?, h.Sound

theorem Nested.complete {name : String} {c : Context Settings} (hc : Nested Http.Sound name c)
    {scope : Scope Settings} (hscope : Surrounded scope) :
    Nested Http.Complete name (c.completeIn scope) := by
  induction hc generalizing scope with
  | @node name label location h children hlabel hrecord hchildren ih =>
    have hcomplete := Http.complete_merge hrecord hscope
    have hinner : Surrounded ((records (Record.merge h ((scope.nearest? 3).bind
        Settings.httpKind.view?))).reverse ++ scope) := by
      intro p hp
      obtain rfl := Option.some.inj hp
      exact hcomplete.sound
    refine .node hlabel hcomplete ?_
    intro d hd
    obtain ⟨c, hc, rfl⟩ := Context.mem_completeAll hd
    exact ih c hc hinner

end completion

section execution

variable {e : Engine Settings} {f g : Frame Settings} {items : List Item} {s : Statement}
  {m : Registry.Entry Settings} {d : Directive Settings} {spec : BlockSpec Settings}
  {name : String}

def HasLevel (name : String) : Prop :=
  name = "http" ∨ name = "server" ∨ name = "location"

theorem hasLevel_inside (name : String) : HasLevel (inside name) := by
  unfold inside HasLevel
  split <;> simp

theorem name_eq_inside (hd : d ∈ Http.directives Settings.httpKind) (hblock : d.block = some spec)
    (htypes : d.name ≠ "types") (hlevel : HasLevel name) (hallowed : d.allowedIn (levelOf name)) :
    d.name = inside name := by
  simp only [Http.directives, List.mem_cons, List.not_mem_nil, or_false] at hd
  rcases hd with rfl | rfl | rfl | hd
  · rcases hlevel with rfl | rfl | rfl
    · rfl
    · revert hallowed
      decide
    · revert hallowed
      decide
  · rcases hlevel with rfl | rfl | rfl
    · revert hallowed
      decide
    · rfl
    · rfl
  · exact absurd rfl htypes
  · rcases hd with rfl | rfl | rfl | rfl | rfl | rfl | rfl | rfl | rfl | rfl | rfl | rfl <;>
      simp [Directive.setting, Directive.checked, Directive.plain] at hblock

theorem head?_words (hname : s.name = name) (hlevel : HasLevel name) :
    s.words.head? = some name :=
  (head?_words_iff (by rcases hlevel with rfl | rfl | rfl <;> decide)).mpr hname

structure OpenBlock (name : String) (f : Frame Settings) : Prop where
  hasLevel : HasLevel name
  moduleTag : f.moduleTag = httpTag
  kind : f.kind = levelOf name
  label : f.label.head? = some name
  record : ∃ h, f.records = records h ∧ h.Sound
  children : ∀ c ∈ f.children, Nested Http.Sound (inside name) c

namespace OpenBlock

theorem hasSettings (h : OpenBlock name f) : HasSettings f := by
  refine ⟨h.moduleTag, ?_⟩
  rw [h.kind]
  exact levelOf_cases name

theorem accepted (h : OpenBlock name f) (haccept : e.accept f s = .ok (m, d, g)) :
    OpenBlock name g := by
  obtain ⟨hrecords, hchildren⟩ := Engine.records_of_accept haccept
  have hheader := Engine.header_of_accept haccept
  simp only [Frame.header, Prod.mk.injEq] at hheader
  obtain ⟨hkind, htag, -, hlabel, -⟩ := hheader
  exact ⟨h.hasLevel, htag ▸ h.moduleTag, hkind ▸ h.kind, hlabel ▸ h.label, hrecords ▸ h.record,
    hchildren ▸ h.children⟩

theorem ofBlock (owner : Nat) (hname : s.name = name) (hlevel : HasLevel name) :
    OpenBlock name (Frame.ofBlock reference owner ⟨levelOf name, httpTag, none⟩ s) where
  hasLevel := hlevel
  moduleTag := rfl
  kind := rfl
  label := head?_words hname hlevel
  record := ⟨{}, records_ofBlock owner name s, Http.sound_unset⟩
  children := by
    intro c hc
    simp [Frame.ofBlock] at hc

theorem withRecord {r : Http} (h : OpenBlock name f) (hr : r.Sound) :
    OpenBlock name { f with records := records r } :=
  ⟨h.hasLevel, h.moduleTag, h.kind, h.label, ⟨r, rfl, hr⟩, h.children⟩

theorem obeyed (h : OpenBlock name f) (hd : d ∈ Http.directives Settings.httpKind)
    (hblock : d.block = none) (haccepts : d.shape.accepts s.values.length = true)
    (hobey : f.obey 3 d s = .ok g) : OpenBlock name g := by
  obtain ⟨-, set, hset⟩ | ⟨-, spec, hspec, -⟩ := slot_or_block hd
  rotate_left
  · simp [hblock] at hspec
  obtain ⟨r, hrecords, hsound⟩ := h.record
  obtain ⟨v, stored, hstored, hcheck, rfl⟩ := Frame.eq_of_obey hset hrecords hobey
  obtain ⟨r', rfl, hsound'⟩ := Http.sound_of_setter hd hset haccepts hstored hcheck hsound
  exact h.withRecord hsound'

theorem lent (h : OpenBlock name f)
    (hlends : Engine.Lends (Http.readTypes Settings.httpKind) 3 f items g) : OpenBlock name g := by
  induction hlends with
  | nil => exact h
  | cons lend _ ih =>
    obtain ⟨r, hrecords, hsound⟩ := h.record
    obtain ⟨stored, hread, rfl⟩ := Frame.eq_of_lend hrecords lend
    obtain ⟨r', rfl, hsound'⟩ := Http.sound_of_types hsound hread
    exact ih (h.withRecord hsound')

theorem close (h : OpenBlock name f) : Nested Http.Sound name f.close := by
  obtain ⟨r, hrecords, hsound⟩ := h.record
  rw [Frame.close, h.kind, hrecords]
  exact .node h.label hsound h.children

theorem block {inner : Frame Settings} (h : OpenBlock name f)
    (hinner : OpenBlock (inside name) inner) :
    OpenBlock name { f with children := f.children ++ [inner.close] } := by
  refine ⟨h.hasLevel, h.moduleTag, h.kind, h.label, h.record, ?_⟩
  intro c hc
  rcases List.mem_append.mp hc with hearlier | hlast
  · exact h.children c hearlier
  · rw [List.mem_singleton.mp hlast]
    exact hinner.close

theorem of_executes (he : e.registry = reference) (h : e.Executes f items g)
    (hf : OpenBlock name f) : OpenBlock name g := by
  induction h generalizing name with
  | nil => exact hf
  | directive accept handler obey plain rest ih =>
    obtain ⟨hm, hd, -⟩ := mem_of_accept he hf.hasSettings accept handler
    rw [hm] at obey
    have haccepts := Frame.accepts_of_admitUse (Engine.accept_eq_ok.mp accept).2
    exact ih ((hf.accepted accept).obeyed hd plain haccepts obey)
  | @block f f' k inner last opening closing hopening hclosing body items m d spec accept handler
      obey opens directives inside rest ihinside ih =>
    obtain ⟨hm, hd, hname⟩ := mem_of_accept he hf.hasSettings accept handler
    obtain ⟨hnone, ⟨hother, rfl⟩ | ⟨-, htypes⟩⟩ := block_of_mem hd opens
    · simp only [Frame.obey, hnone, Except.ok.injEq] at obey
      subst obey
      have hallowed := Engine.allowedIn_of_accept accept
      rw [hf.kind] at hallowed
      have hinside := name_eq_inside hd opens hother hf.hasLevel hallowed
      rw [he, hinside] at ihinside
      have hnew := ofBlock m.id.index (hname.symm.trans hinside) (hasLevel_inside name)
      exact ih ((hf.accepted accept).block (ihinside hnew))
    · simp [directives] at htypes
  | lending accept handler obey opens strategy inside rest ih =>
    obtain ⟨hm, hd, -⟩ := mem_of_accept he hf.hasSettings accept handler
    obtain ⟨hnone, ⟨-, rfl⟩ | ⟨-, htypes⟩⟩ := block_of_mem hd opens
    · simp at strategy
    · simp only [Frame.obey, hnone, Except.ok.injEq] at obey
      subst obey
      obtain rfl := Option.some.inj (strategy.symm.trans htypes)
      rw [hm] at inside
      exact ih ((hf.accepted accept).lent inside)

end OpenBlock

structure OpenRoot (f : Frame Settings) : Prop where
  moduleTag : f.moduleTag = .core
  record : ∃ g, f.records = globalRecords g ∧ g.Sound
  single : f.children.length ≤ if "http" ∈ f.used then 1 else 0
  children : ∀ c ∈ f.children, Nested Http.Sound "http" c

namespace OpenRoot

theorem root : OpenRoot (Frame.root reference) where
  moduleTag := rfl
  record := ⟨{}, rfl, .unset⟩
  single := Nat.zero_le _
  children := by
    intro c hc
    simp [Frame.root] at hc

theorem accepted (h : OpenRoot f) (haccept : e.accept f s = .ok (m, d, g)) : OpenRoot g := by
  rw [Frame.eq_of_admitUse (Engine.accept_eq_ok.mp haccept).2]
  split
  · refine ⟨h.moduleTag, h.record, ?_, h.children⟩
    have hsingle := h.single
    simp only [List.mem_cons]
    by_cases hused : "http" ∈ f.used
    · rw [if_pos hused] at hsingle
      rwa [if_pos (.inr hused)]
    · rw [if_neg hused] at hsingle
      exact Nat.le_trans hsingle (Nat.zero_le _)
  · exact h

theorem obeyed (h : OpenRoot f) (hd : d ∈ Global.directives Settings.globalKind)
    (hobey : f.obey 1 d s = .ok g) : OpenRoot g := by
  obtain ⟨-, set, hset⟩ := slot_of_mem_global hd
  obtain ⟨r, hrecords, hsound⟩ := h.record
  obtain ⟨v, stored, hstored, hcheck, rfl⟩ := Frame.eq_of_obey hset hrecords hobey
  obtain ⟨r', rfl, hsound'⟩ := Global.sound_of_setter hd hset hstored hcheck hsound
  exact ⟨h.moduleTag, ⟨r', rfl, hsound'⟩, h.single, h.children⟩

theorem block {inner : Frame Settings} (h : OpenRoot f) (hfirst : "http" ∉ f.used)
    (hused : g = { f with used := "http" :: f.used }) (hinner : OpenBlock "http" inner) :
    OpenRoot { g with children := g.children ++ [inner.close] } := by
  have hnone : f.children = [] := by
    have hsingle := h.single
    rw [if_neg hfirst] at hsingle
    exact List.length_eq_zero_iff.mp (Nat.le_zero.mp hsingle)
  subst hused
  refine ⟨h.moduleTag, h.record, by simp [hnone], ?_⟩
  intro c hc
  simp only [hnone, List.nil_append, List.mem_singleton] at hc
  rw [hc]
  exact hinner.close

theorem of_executes (he : e.registry = reference) (h : e.Executes f items g) (hf : OpenRoot f) :
    OpenRoot g := by
  induction h with
  | nil => exact hf
  | directive accept handler obey plain rest ih =>
    obtain ⟨⟨hm, hd⟩ | hd, -⟩ := mem_of_accept_top he hf.moduleTag accept handler
    · rw [hm] at obey
      exact ih ((hf.accepted accept).obeyed hd obey)
    · rw [List.mem_singleton.mp hd] at plain
      simp [Directive.opening, Directive.plain] at plain
  | @block f f' k inner last opening closing hopening hclosing body items m d spec accept handler
      obey opens directives inside rest ihinside ih =>
    obtain ⟨⟨-, hd⟩ | hd, hname⟩ := mem_of_accept_top he hf.moduleTag accept handler
    · simp [(slot_of_mem_global hd).1] at opens
    · obtain rfl := List.mem_singleton.mp hd
      obtain rfl := Option.some.inj opens
      obtain rfl := Except.ok.inj obey
      have huse := (Engine.accept_eq_ok.mp accept).2
      have honce : (Shape.noArguments ||| Shape.once ||| Shape.block).has .once = true := by decide
      have hfirst := Frame.notMem_used_of_admitUse huse honce
      have hused := (Frame.eq_of_admitUse huse).trans (if_pos honce)
      rw [he] at inside
      have hnew := OpenBlock.ofBlock m.id.index hname.symm (.inl rfl)
      exact ih (hf.block hfirst hused (hnew.of_executes he inside))
  | lending accept handler obey opens strategy inside rest ih =>
    obtain ⟨-, -, rfl⟩ := block_of_accept he hf.moduleTag accept handler opens
    simp at strategy

theorem complete (h : OpenRoot f) : WellFormed f.close.complete := by
  obtain ⟨r, hrecords, hsound⟩ := h.record
  have hscope : Surrounded ((globalRecords (Record.merge r none)).reverse ++ []) := by
    intro p hp
    simp [Scope.nearest?, globalRecords] at hp
  have hcomplete : f.close.complete = .node f.kind f.label f.location
      (globalRecords (Record.merge r none))
      (Context.completeAll ((globalRecords (Record.merge r none)).reverse ++ []) f.children) := by
    rw [Context.complete, Frame.close, hrecords]
    rfl
  rw [hcomplete]
  refine ⟨⟨_, rfl, Global.complete_merge hsound⟩, ?_, ?_⟩
  · have hsingle := h.single
    rw [Context.children, Context.length_completeAll]
    split at hsingle <;> omega
  · intro c hc
    obtain ⟨c', hc', rfl⟩ := Context.mem_completeAll hc
    exact (h.children c' hc').complete hscope

end OpenRoot

theorem wellFormed_of_run (he : e.registry = reference) {cursor : Cursor}
    {directory : Option Path} {log : Log} {root : Context Settings}
    (hrun : e.run (e.opening (.outermost cursor directory)) = (log, .ok root)) :
    WellFormed root := by
  have hr : e.registry.Finalized := he ▸ finalized_reference
  obtain ⟨-, items, g, -, -, -, -, hexecutes, rfl⟩ := Engine.exists_executed hr hrun
  have hstart : OpenRoot (Frame.root e.registry) := he ▸ OpenRoot.root
  exact (hstart.of_executes he hexecutes).complete

end execution

/-- Every tree that the modules of the web server produce is well-formed, before any hook sees
it. -/
theorem trees_wellFormed (e : Engine Settings)
    (he : (registry Settings.globalKind Settings.httpKind).2 = .ok e.registry) :
    (∀ name text root, (e.parseText name text).2 = .ok root → WellFormed root) ∧
      ∀ p root, (e.parseFile p).2 = .ok root → WellFormed root := by
  rw [registry_eq_reference, Except.ok.injEq] at he
  refine ⟨fun name text root h => ?_, fun p root h => ?_⟩
  · rw [Engine.parseText, Engine.parseSource, Engine.snd_concluded] at h
    exact wellFormed_of_run he.symm (Prod.ext rfl h)
  · unfold Engine.parseFile at h
    split at h
    · simp [Engine.snd_concluded] at h
    · rw [Engine.parseSource, Engine.snd_concluded] at h
      exact wellFormed_of_run he.symm (Prod.ext rfl h)

theorem trees_wellFormed_nested :
    let text := "worker_processes 4; http \x7b ssl_protocols TLSv1.2; include a.conf; \x7d"
    let e := engineOver [("main.conf", text),
      ("a.conf", "server \x7b listen 8080; location / \x7b location /a \x7b \x7d \x7d \x7d")]
    (registry Settings.globalKind Settings.httpKind).2 = .ok e.registry ∧
      (∃ root, (e.parseText "server.conf" text).2 = .ok root ∧ WellFormed root) ∧
      ∃ root, (e.parseFile ⟨"main.conf"⟩).2 = .ok root ∧ WellFormed root := by
  intro text e
  have hread : e.files.read ⟨"main.conf"⟩ = .ok (Utf8.encode text.toList) := by decide +kernel
  have htext : e.succeedsWithin 20
      (e.opening (.ofText "server.conf" (Utf8.encode text.toList))) = true := by decide +kernel
  have hfile : e.succeedsWithin 20
      (e.opening (.ofFile ⟨"main.conf"⟩ (Utf8.encode text.toList) 0 0)) = true := by decide +kernel
  obtain ⟨log, root, hrun⟩ := Engine.exists_run_of_succeedsWithin htext
  obtain ⟨log', root', hrun'⟩ := Engine.exists_run_of_succeedsWithin hfile
  have hroot : (e.parseText "server.conf" text).2 = .ok root := by
    rw [Engine.parseText, Engine.parseSource, Engine.snd_concluded]
    exact congrArg Prod.snd hrun
  have hroot' : (e.parseFile ⟨"main.conf"⟩).2 = .ok root' := by
    simp only [Engine.parseFile, hread]
    rw [Engine.parseSource, Engine.snd_concluded]
    exact congrArg Prod.snd hrun'
  obtain ⟨hparsed, hread'⟩ := trees_wellFormed e registry_eq_reference
  exact ⟨registry_eq_reference, ⟨root, hroot, hparsed _ _ root hroot⟩, root', hroot',
    hread' _ root' hroot'⟩

end Server

end ScopedConf
