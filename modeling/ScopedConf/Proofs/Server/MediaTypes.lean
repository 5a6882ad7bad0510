import ScopedConf.Proofs.Mirroring
import ScopedConf.Proofs.NamedEntries
import ScopedConf.Proofs.Server.Configuration
import Mathlib.Data.List.Forall2
import Mathlib.Data.List.Induction

/-! The media types in force in a context. The first line of a context's own blocks of media types
puts an empty table in place of the one that would otherwise come from around it, so that the table
holds what those lines say and nothing else. A block without lines puts nothing in place. -/

namespace ScopedConf

namespace Server

variable {ss : List Statement} {s : Statement} {extension type : String} {body : List Item}
  {outer : List (List Item)} {table : Named String}

def lists (extension : String) (line : Statement) : Bool :=
  line.values.any fun t => Text.toLower t.value == extension

/-- The media type of the last line that names this extension. -/
def typeOf? (extension : String) (lines : List Statement) : Option String :=
  last (fun line => some line.name) (lines.filter (lists extension))

/-- The table holds what the lines say and nothing else. -/
structure Tabulates (lines : List Statement) (table : Named String) : Prop where
  ordered : table.Ordered
  entries (extension type : String) :
    (extension, type) ∈ table ↔ typeOf? extension lines = some type

/-- The table of media types in the innermost of the bodies, of which the outer ones come last: that
of the first body with lines, or the default. -/
inductive TypesInForce : List (List Item) → Named String → Prop
  | default : TypesInForce [] Http.defaultTypes
  | own {body : List Item} {outer : List (List Item)} {table : Named String}
    (lines : typeLines body ≠ []) (tabulates : Tabulates (typeLines body) table) :
    TypesInForce (body :: outer) table
  | inherited {body : List Item} {outer : List (List Item)} {table : Named String}
    (lines : typeLines body = []) (around : TypesInForce outer table) :
    TypesInForce (body :: outer) table

structure OpenedBlock where
  opening : Statement
  body : List Item
  outer : List (List Item)

mutual

/-- The blocks with a context, in the order in which they are opened. -/
def blocksOf (outer : List (List Item)) : Item → List OpenedBlock
  | .directive .. => []
  | .block opening _ body _ _ =>
    if opening.name = "types" then [] else ⟨opening, body, outer⟩ :: blocksIn (body :: outer) body

def blocksIn (outer : List (List Item)) : List Item → List OpenedBlock
  | [] => []
  | i :: items => blocksOf outer i ++ blocksIn outer items

end

/-- The context of a block has its kind, words and place, and the media types that are in force in
the block. These are exactly those of its own lines if it has any, and only then. -/
structure ServesTypes (b : OpenedBlock) (c : Context Settings) : Prop where
  kind : c.kind = levelOf b.opening.name
  label : c.label = b.opening.words
  location : c.location = some b.opening.location
  types : ∃ h table, c.record? Settings.httpKind = some h ∧ h.types = .of table ∧
    TypesInForce (b.body :: b.outer) table ∧
    (Tabulates (typeLines b.body) table ↔ typeLines b.body ≠ [])

section tables

theorem typeOf?_concat (ss : List Statement) (s : Statement) (extension : String) :
    typeOf? extension (ss ++ [s]) =
      if lists extension s then some s.name else typeOf? extension ss := by
  unfold typeOf?
  rw [List.filter_append, List.filter_singleton]
  cases lists extension s with
  | false => exact congrArg _ (List.append_nil _)
  | true => exact last_concat _

theorem get?_insertAll (ts : List Token) (table : Named String) :
    (ts.foldl (fun table t => table.insert (Text.toLower t.value) type) table).get? extension =
      if ts.any fun t => Text.toLower t.value == extension then some type
      else table.get? extension := by
  induction ts generalizing table with
  | nil => rfl
  | cons t ts ih =>
    rw [List.foldl_cons, ih, Named.get?_insert, List.any_cons]
    by_cases hlater : ts.any fun t => Text.toLower t.value == extension
    · simp [hlater]
    · by_cases ht : Text.toLower t.value = extension <;> simp [hlater, ht]

theorem get?_typeTable (ss : List Statement) (extension : String) :
    (typeTable ss).get? extension = typeOf? extension ss := by
  induction ss using List.reverseRecOn with
  | nil => rfl
  | append_singleton ss s ih =>
    rw [typeTable_concat, get?_insertAll, ih, typeOf?_concat]
    rfl

theorem ordered_typeTable (ss : List Statement) : (typeTable ss).Ordered :=
  Named.ordered_ofList _

theorem tabulates_typeTable (ss : List Statement) : Tabulates ss (typeTable ss) where
  ordered := ordered_typeTable ss
  entries extension type := by rw [Named.mem_iff_get? (ordered_typeTable ss), get?_typeTable]

theorem typesInForce_inForce (bodies : List (List Item)) :
    ∃ table, inForce Http.types Http.defaultTypes bodies = .of table ∧
      TypesInForce bodies table := by
  induction bodies with
  | nil => exact ⟨Http.defaultTypes, rfl, .default⟩
  | cons body outer ih =>
    by_cases hlines : typeLines body = []
    · obtain ⟨table, htable, haround⟩ := ih
      refine ⟨table, ?_, .inherited hlines haround⟩
      rw [← htable]
      simp [inForce, ownSettings, together, hlines]
    · refine ⟨typeTable (typeLines body), ?_, .own hlines (tabulates_typeTable _)⟩
      simp [inForce, ownSettings, together, hlines]

theorem Tabulates.eq_nil (h : Tabulates [] table) : table = [] := by
  refine List.eq_nil_iff_forall_not_mem.mpr fun entry hentry => ?_
  have hnone := (h.entries entry.1 entry.2).mp hentry
  simp [typeOf?, last] at hnone

theorem Tabulates.ne_nil (h : Tabulates ss table) (hss : ss ≠ [])
    (hvalues : ∀ s ∈ ss, s.values ≠ []) : table ≠ [] := by
  rintro rfl
  obtain ⟨s, hs⟩ := List.exists_mem_of_ne_nil ss hss
  obtain ⟨t, ht⟩ := List.exists_mem_of_ne_nil s.values (hvalues s hs)
  have hlists : s ∈ ss.filter (lists (Text.toLower t.value)) :=
    List.mem_filter.mpr ⟨hs, List.any_eq_true.mpr ⟨t, ht, beq_self_eq_true _⟩⟩
  have hlast := List.getLast?_eq_some_getLast (List.ne_nil_of_mem hlists)
  have hentry := (h.entries (Text.toLower t.value) _).mpr (by rw [typeOf?, last, hlast]; rfl)
  exact List.not_mem_nil hentry

theorem TypesInForce.ne_nil {bodies : List (List Item)} (h : TypesInForce bodies table)
    (hvalues : ∀ body ∈ bodies, ∀ s ∈ typeLines body, s.values ≠ []) : table ≠ [] := by
  induction h with
  | default => decide
  | own lines tabulates => exact tabulates.ne_nil lines (hvalues _ List.mem_cons_self)
  | inherited _ _ ih => exact ih fun body hbody => hvalues body (List.mem_cons_of_mem _ hbody)

theorem TypesInForce.tabulates_iff (h : TypesInForce (body :: outer) table)
    (hvalues : ∀ b ∈ body :: outer, ∀ s ∈ typeLines b, s.values ≠ []) :
    Tabulates (typeLines body) table ↔ typeLines body ≠ [] := by
  constructor
  · intro htabulates hlines
    rw [hlines] at htabulates
    exact h.ne_nil hvalues htabulates.eq_nil
  · intro hlines
    cases h with
    | own _ tabulates => exact tabulates
    | inherited hnone => exact absurd hnone hlines

end tables

section execution

variable {e : Engine Settings} {f g : Frame Settings} {items lines : List Item}

theorem values_of_readTypes {r r' : Settings}
    (h : Http.readTypes Settings.httpKind s r = .ok r') : s.values ≠ [] := by
  intro hvalues
  simp only [Http.readTypes, hvalues, List.isEmpty_nil, if_true] at h
  split at h <;> simp at h

theorem values_of_lends {owner : Nat}
    (h : Engine.Lends (Http.readTypes Settings.httpKind) owner f lines g) :
    ∀ s ∈ Item.flattenAll lines, s.values ≠ [] := by
  induction h with
  | nil => simp [Item.flattenAll]
  | @cons f k g s hs lines lend _ ih =>
    obtain ⟨r, r', hread⟩ := Frame.exists_of_lend lend
    rw [Item.flattenAll_cons]
    intro line hline
    rcases List.mem_append.mp hline with hfirst | hlater
    · rw [List.mem_singleton.mp hfirst]
      exact values_of_readTypes hread
    · exact ih line hlater

def NamesExtensions (body : List Item) : Prop :=
  ∀ s ∈ typeLines body, s.values ≠ []

theorem opens_of_accept {m : Registry.Entry Settings} {d : Directive Settings}
    {spec : BlockSpec Settings} (he : e.registry = reference)
    (hf : HasSettings f ∨ f.moduleTag = .core) (h : e.accept f s = .ok (m, d, g))
    (hh : d.handler ≠ .includeFiles) (hblock : d.block = some spec) :
    s.name ≠ "types" ∧ spec = ⟨levelOf s.name, httpTag, none⟩ ∨
      s.name = "types" ∧ spec.strategy = some (Http.readTypes Settings.httpKind) := by
  rcases hf with hsettings | htop
  · obtain ⟨-, hd, hname⟩ := mem_of_accept he hsettings h hh
    rw [← hname]
    exact (block_of_mem hd hblock).2
  · obtain ⟨-, hname, rfl⟩ := block_of_accept he htop h hh hblock
    rw [hname]
    exact .inl ⟨by decide, rfl⟩

theorem namesExtensions_of_executes (he : e.registry = reference) (h : e.Executes f items g)
    (hf : HasSettings f ∨ f.moduleTag = .core) :
    NamesExtensions items ∧ ∀ outer, (∀ body ∈ outer, NamesExtensions body) →
      ∀ b ∈ blocksIn outer items, ∀ body ∈ b.body :: b.outer, NamesExtensions body := by
  induction h with
  | nil =>
    refine ⟨by simp [NamesExtensions, typeLines], fun outer _ b hb => ?_⟩
    simp [blocksIn] at hb
  | directive accept handler obey plain rest ih =>
    have hheader := Engine.header_of_obey accept obey
    have hg := hf.imp (·.of_header hheader) (moduleTag_of_header hheader).trans
    exact ih hg
  | @block f f' k inner last opening closing hopening hclosing inside items m d spec accept handler
      obey opens directives hinside rest ihinside ih =>
    have hheader := Engine.header_of_obey accept obey
    have hk := hf.imp (·.of_header hheader) (moduleTag_of_header hheader).trans
    obtain ⟨hitems, hblocks⟩ := ih hk
    obtain ⟨hother, rfl⟩ | ⟨-, hstrategy⟩ := opens_of_accept he hf accept handler opens
    · obtain ⟨hown, hinner⟩ := ihinside (.inl ⟨rfl, levelOf_cases _⟩)
      have hlines : typeLines (.block opening hopening inside closing hclosing :: items) =
          typeLines items := by simp [typeLines, hother]
      refine ⟨by rwa [NamesExtensions, hlines], fun outer houter b hb => ?_⟩
      have hbodies : ∀ body ∈ inside :: outer, NamesExtensions body :=
        List.forall_mem_cons.mpr ⟨hown, houter⟩
      rw [blocksIn, blocksOf, if_neg hother, List.cons_append, List.mem_cons,
        List.mem_append] at hb
      rcases hb with rfl | hb | hb
      · exact hbodies
      · exact hinner (inside :: outer) hbodies b hb
      · exact hblocks outer houter b hb
    · simp [directives] at hstrategy
  | @lending f f' k lent last opening closing hopening hclosing lines items m d spec handle accept
      handler obey opens strategy inside rest ih =>
    have hheader := inside.header.trans (Engine.header_of_obey accept obey)
    have hlent := hf.imp (·.of_header hheader) (moduleTag_of_header hheader).trans
    obtain ⟨hitems, hblocks⟩ := ih hlent
    obtain ⟨-, rfl⟩ | ⟨htypes, hstrategy⟩ := opens_of_accept he hf accept handler opens
    · simp at strategy
    · obtain rfl := Option.some.inj (strategy.symm.trans hstrategy)
      have hlines : typeLines (.block opening hopening lines closing hclosing :: items) =
          Item.flattenAll lines ++ typeLines items := by simp [typeLines, htypes]
      refine ⟨?_, fun outer houter b hb => ?_⟩
      · rw [NamesExtensions, hlines]
        exact List.forall_mem_append.mpr ⟨values_of_lends inside, hitems⟩
      · rw [blocksIn, blocksOf, if_pos htypes] at hb
        exact hblocks outer houter b hb

end execution

section trees

theorem servesTypes_of_body {opening : Statement} (hvalues : ∀ b ∈ body :: outer, NamesExtensions b)
    (children : List (Context Settings)) :
    ServesTypes ⟨opening, body, outer⟩ (.node (levelOf opening.name) opening.words
      (some opening.location) (records (settingsIn (body :: outer))) children) := by
  obtain ⟨table, htable, hforce⟩ := typesInForce_inForce (body :: outer)
  exact ⟨rfl, rfl, rfl, settingsIn (body :: outer), table, rfl, htable, hforce,
    hforce.tabulates_iff hvalues⟩

mutual

theorem servesTypes_contextOf {outer : List (List Item)} (i : Item)
    (hvalues : ∀ b ∈ blocksOf outer i, ∀ body ∈ b.body :: b.outer, NamesExtensions body) :
    List.Forall₂ ServesTypes (blocksOf outer i)
      (Context.preorderAll (contextOf settingsIn outer i)) := by
  cases i with
  | directive s hs => exact .nil
  | block opening hopening body closing hclosing =>
    rw [contextOf]
    rw [blocksOf] at hvalues ⊢
    split
    · exact .nil
    · next hother =>
      rw [if_neg hother] at hvalues
      obtain ⟨hown, hinside⟩ := List.forall_mem_cons.mp hvalues
      rw [Context.preorderAll, Context.preorderAll, List.append_nil, Context.preorder]
      exact .cons (servesTypes_of_body hown _) (servesTypes_contextsOf body hinside)

theorem servesTypes_contextsOf {outer : List (List Item)} (items : List Item)
    (hvalues : ∀ b ∈ blocksIn outer items, ∀ body ∈ b.body :: b.outer, NamesExtensions body) :
    List.Forall₂ ServesTypes (blocksIn outer items)
      (Context.preorderAll (contextsOf settingsIn outer items)) := by
  cases items with
  | nil => exact .nil
  | cons i items =>
    rw [blocksIn] at hvalues ⊢
    obtain ⟨hfirst, hlater⟩ := List.forall_mem_append.mp hvalues
    rw [contextsOf, Context.preorderAll_append]
    exact List.rel_append (servesTypes_contextOf i hfirst) (servesTypes_contextsOf items hlater)

end

end trees

/-- In every context of a configuration that is read to its end, a line in one of its own blocks of
media types puts what its own lines say in place of the default and of all that is inherited: the
table then holds exactly the extensions of these lines, each under the type of its last line.
Without such a line, be there blocks or not, the table is that of the nearest context around that
has one, or the default; it is then not that of the context's own lines. -/
theorem own_lines_replace_types (e : Engine Settings)
    (he : (registry Settings.globalKind Settings.httpKind).2 = .ok e.registry) (cursor : Cursor)
    (directory : Option Path) (log : Log) (root : Context Settings)
    (hrun : e.run (e.opening (.outermost cursor directory)) = (log, .ok root)) :
    ∃ final items, e.Reaches (.start (e.opening (.outermost cursor directory))) final ∧
      final.state.sources = [] ∧
      Splices e directory cursor.stream.statements final.handled final.spliced ∧
      (∀ others, Item.flattenAll others = final.spliced ↔ others = items) ∧
      List.Forall₂ ServesTypes (blocksIn [] items) root.walk.tail := by
  rw [registry_eq_reference, Except.ok.injEq] at he
  have hr : e.registry.Finalized := he ▸ finalized_reference
  obtain ⟨final, items, g, hreaches, hsources, hsplices, hreading, hexecutes, rfl⟩ :=
    Engine.exists_executed hr hrun
  refine ⟨final, items, hreaches, hsources, hsplices, hreading, ?_⟩
  obtain ⟨-, hvalues⟩ := namesExtensions_of_executes he.symm hexecutes (.inr rfl)
  have hserves := servesTypes_contextsOf items (hvalues [] (List.forall_mem_nil _))
  rw [← children_complete_of_executes he.symm hexecutes] at hserves
  rw [Context.walk_eq_preorder]
  exact hserves

def typesIn (root : Context Settings) : List (Option (Named String)) :=
  root.preorder.tail.map fun c => (c.record? Settings.httpKind).bind fun h => h.types.value?

theorem own_lines_replace_types_nested :
    let e := engineOver [("a.conf", "types \x7b text/css CSS; text/x css; \x7d types \x7b \x7d")]
    let start := e.opening (.outermost (cursorOf
      "http \x7b server \x7b include a.conf; location / \x7b types \x7b \x7d \x7d \x7d \x7d") none)
    (registry Settings.globalKind Settings.httpKind).2 = .ok e.registry ∧
      ∃ log root, e.run start = (log, .ok root) ∧
        (∃ final items, e.Reaches (.start start) final ∧ Item.flattenAll items = final.spliced ∧
          List.Forall₂ ServesTypes (blocksIn [] items) root.walk.tail) ∧
        typesIn root = [some Http.defaultTypes, some [("css", "text/x")],
          some [("css", "text/x")]] := by
  intro e start
  have hyields : e.yieldsWithin 30 start (fun root => typesIn root = [some Http.defaultTypes,
      some [("css", "text/x")], some [("css", "text/x")]]) = true := by decide +kernel
  obtain ⟨log, root, hrun, htypes⟩ := Engine.exists_run_of_yieldsWithin hyields
  obtain ⟨final, items, hreaches, -, -, hreading, hserves⟩ :=
    own_lines_replace_types e registry_eq_reference _ none log root hrun
  exact ⟨registry_eq_reference, log, root, hrun,
    ⟨final, items, hreaches, (hreading items).mpr rfl, hserves⟩, of_decide_eq_true htypes⟩

/-- A block of media types without lines leaves the default in force, and not the empty table. -/
theorem empty_block_keeps_types :
    let e := engineOver []
    let start := e.opening (.outermost (cursorOf "http \x7b types \x7b \x7d \x7d") none)
    ∃ log root, e.run start = (log, .ok root) ∧ typesIn root = [some Http.defaultTypes] ∧
      ¬Tabulates [] Http.defaultTypes := by
  intro e start
  have hyields : e.yieldsWithin 10 start
      (fun root => typesIn root = [some Http.defaultTypes]) = true := by decide +kernel
  have hdefault : Http.defaultTypes ≠ [] := by decide
  obtain ⟨log, root, hrun, htypes⟩ := Engine.exists_run_of_yieldsWithin hyields
  exact ⟨log, root, hrun, of_decide_eq_true htypes, fun h => hdefault h.eq_nil⟩

end Server

end ScopedConf
