import ScopedConf.Proofs.Splicing

/-! Statements in their nesting: a directive, or a block with everything in it. A run without
includes handles the statements of such items, and each item does to the context around it what its
constructor says. -/

namespace ScopedConf

variable {ρ : Type}

inductive Item
  | directive (s : Statement) (hs : s.terminator = .semicolon)
  | block (opening : Statement) (hopening : opening.terminator = .openBrace) (body : List Item)
      (closing : Statement) (hclosing : closing.terminator = .closeBrace)

namespace Item

mutual

def flatten : Item → List Statement
  | directive s _ => [s]
  | block opening _ body closing _ => opening :: flattenAll body ++ [closing]

def flattenAll : List Item → List Statement
  | [] => []
  | i :: items => i.flatten ++ flattenAll items

end

theorem flatten_ne_nil (i : Item) : i.flatten ≠ [] := by
  cases i <;> simp [flatten]

theorem length_lt_of_flatten (i : Item) {ss rest : List Statement} (h : ss = i.flatten ++ rest) :
    rest.length < ss.length := by
  have hpos := List.length_pos_iff.mpr i.flatten_ne_nil
  rw [h, List.length_append]
  omega

theorem flattenAll_cons (i : Item) (items : List Item) :
    flattenAll (i :: items) = i.flatten ++ flattenAll items := by
  rw [flattenAll]

theorem head?_flatten (i : Item) : ∀ s ∈ i.flatten.head?, s.terminator ≠ .closeBrace := by
  cases i with
  | directive s hs => simp [flatten, hs]
  | block opening hopening => simp [flatten, hopening]

/-- Statements that end here, or go on with a closing brace. -/
def Closes (rest : List Statement) : Prop :=
  ∀ s ∈ rest.head?, s.terminator = .closeBrace

theorem not_closes_flatten (i : Item) (rest : List Statement) : ¬Closes (i.flatten ++ rest) := by
  intro h
  obtain ⟨s, ss, hi⟩ := List.exists_cons_of_ne_nil i.flatten_ne_nil
  have hs := i.head?_flatten s (by rw [hi]; rfl)
  exact hs (h s (by rw [hi]; rfl))

theorem eq_of_flattenAll {items others : List Item} {rest later : List Statement}
    (hrest : Closes rest) (hlater : Closes later)
    (h : flattenAll items ++ rest = flattenAll others ++ later) :
    items = others ∧ rest = later := by
  match items, others with
  | [], [] => exact ⟨rfl, h⟩
  | [], o :: others =>
    rw [flattenAll_cons, List.append_assoc, flattenAll, List.nil_append] at h
    exact absurd (h ▸ hrest) (not_closes_flatten o _)
  | i :: items, [] =>
    rw [flattenAll_cons, List.append_assoc, flattenAll, List.nil_append] at h
    exact absurd (h ▸ hlater) (not_closes_flatten i _)
  | .directive s hs :: items, .directive t ht :: others =>
    simp only [flattenAll_cons, flatten, List.cons_append, List.nil_append, List.cons.injEq] at h
    obtain ⟨rfl, h⟩ := h
    obtain ⟨rfl, rfl⟩ := eq_of_flattenAll hrest hlater h
    exact ⟨rfl, rfl⟩
  | .directive s hs :: items, .block opening hopening body closing hclosing :: others =>
    simp only [flattenAll_cons, flatten, List.cons_append, List.cons.injEq] at h
    simp [h.1, hopening] at hs
  | .block opening hopening body closing hclosing :: items, .directive s hs :: others =>
    simp only [flattenAll_cons, flatten, List.cons_append, List.cons.injEq] at h
    simp [← h.1, hopening] at hs
  | .block opening hopening body closing hclosing :: items,
      .block opening' hopening' body' closing' hclosing' :: others =>
    simp only [flattenAll_cons, flatten, List.cons_append, List.append_assoc, List.nil_append,
      List.cons.injEq] at h
    obtain ⟨rfl, h⟩ := h
    have hcloses : ∀ {s : Statement} {ss : List Statement}, s.terminator = .closeBrace →
        Closes (s :: ss) := by
      intro s ss hs t ht
      rwa [← Option.some.inj ht]
    obtain ⟨rfl, hbrace⟩ := eq_of_flattenAll (hcloses hclosing) (hcloses hclosing') h
    obtain ⟨rfl, hbehind⟩ := List.cons.inj hbrace
    obtain ⟨rfl, rfl⟩ := eq_of_flattenAll hrest hlater hbehind
    exact ⟨rfl, rfl⟩

theorem flattenAll_injective {items others : List Item} (h : flattenAll items = flattenAll others) :
    items = others := by
  have hcloses : Closes [] := by simp [Closes]
  exact (eq_of_flattenAll hcloses hcloses (congrArg (· ++ []) h)).1

end Item

namespace Engine

inductive Lends (handle : Strategy ρ) (owner : Nat) : Frame ρ → List Item → Frame ρ → Prop
  | nil (f : Frame ρ) : Lends handle owner f [] f
  | cons {f g last : Frame ρ} {s : Statement} {hs : s.terminator = .semicolon} {items : List Item}
    (lend : f.lend handle owner s = .ok g) (rest : Lends handle owner g items last) :
    Lends handle owner f (.directive s hs :: items) last

/-- What items without includes make of a context of directives. -/
inductive Executes (e : Engine ρ) : Frame ρ → List Item → Frame ρ → Prop
  | nil (f : Frame ρ) : Executes e f [] f
  | directive {f f' g last : Frame ρ} {s : Statement} {hs : s.terminator = .semicolon}
    {items : List Item} {m : Registry.Entry ρ} {d : Directive ρ}
    (accept : e.accept f s = .ok (m, d, f')) (handler : d.handler ≠ .includeFiles)
    (obey : f'.obey m.id.index d s = .ok g) (plain : d.block = none)
    (rest : Executes e g items last) : Executes e f (.directive s hs :: items) last
  | block {f f' g inner last : Frame ρ} {opening closing : Statement}
    {hopening : opening.terminator = .openBrace} {hclosing : closing.terminator = .closeBrace}
    {body items : List Item} {m : Registry.Entry ρ} {d : Directive ρ} {spec : BlockSpec ρ}
    (accept : e.accept f opening = .ok (m, d, f')) (handler : d.handler ≠ .includeFiles)
    (obey : f'.obey m.id.index d opening = .ok g) (opens : d.block = some spec)
    (directives : spec.strategy = none)
    (inside : Executes e (Frame.ofBlock e.registry m.id.index spec opening) body inner)
    (rest : Executes e { g with children := g.children ++ [inner.close] } items last) :
    Executes e f (.block opening hopening body closing hclosing :: items) last
  | lending {f f' g lent last : Frame ρ} {opening closing : Statement}
    {hopening : opening.terminator = .openBrace} {hclosing : closing.terminator = .closeBrace}
    {body items : List Item} {m : Registry.Entry ρ} {d : Directive ρ} {spec : BlockSpec ρ}
    {handle : Strategy ρ}
    (accept : e.accept f opening = .ok (m, d, f')) (handler : d.handler ≠ .includeFiles)
    (obey : f'.obey m.id.index d opening = .ok g) (opens : d.block = some spec)
    (strategy : spec.strategy = some handle) (inside : Lends handle m.id.index g body lent)
    (rest : Executes e lent items last) :
    Executes e f (.block opening hopening body closing hclosing :: items) last

variable {e : Engine ρ} {f g outer : Frame ρ} {below : List (Frame ρ)} {s : Statement}
  {ss : List Statement} {last : Stack ρ} {items : List Item}

theorem Lends.header {handle : Strategy ρ} {owner : Nat} (h : Lends handle owner f items g) :
    g.header = f.header := by
  induction h with
  | nil => rfl
  | cons lend _ ih => rw [ih, (Frame.updated_of_lend lend).header]

namespace Executes

theorem header (h : e.Executes f items g) : g.header = f.header := by
  induction h with
  | nil => rfl
  | directive accept _ obey _ _ ih =>
    rw [ih, header_of_obey accept obey]
  | block accept _ obey _ _ _ _ _ ih =>
    rw [ih, ← header_of_obey accept obey]
    rfl
  | lending accept _ obey _ _ inside _ ih =>
    rw [ih, inside.header, header_of_obey accept obey]

theorem append {last : Frame ρ} {later : List Item} (hfirst : e.Executes f items g)
    (hlater : e.Executes g later last) : e.Executes f (items ++ later) last := by
  induction hfirst with
  | nil => exact hlater
  | directive accept handler obey plain _ ih =>
    exact .directive accept handler obey plain (ih hlater)
  | block accept handler obey opens directives inside _ _ ih =>
    exact .block accept handler obey opens directives inside (ih hlater)
  | lending accept handler obey opens strategy inside _ ih =>
    exact .lending accept handler obey opens strategy inside (ih hlater)

theorem exists_of_directive (h : e.Executes f items g) {s : Statement}
    {hs : s.terminator = .semicolon} (hmem : .directive s hs ∈ items) :
    ∃ k used last m d, k.header = f.header ∧ e.accept k s = .ok (m, d, used) ∧
      d.handler ≠ .includeFiles ∧ used.obey m.id.index d s = .ok last := by
  induction h with
  | nil => simp at hmem
  | directive accept handler obey plain rest ih =>
    rcases List.mem_cons.mp hmem with heq | hlater
    · obtain rfl := Item.directive.inj heq
      exact ⟨_, _, _, _, _, rfl, accept, handler, obey⟩
    · obtain ⟨k, used, last, m, d, hk, hrest⟩ := ih hlater
      exact ⟨k, used, last, m, d, hk.trans (header_of_obey accept obey), hrest⟩
  | block accept handler obey opens directives inside rest _ ih =>
    have hheader := header_of_obey accept obey
    obtain ⟨k, used, last, m, d, hk, hrest⟩ := ih (by simpa using hmem)
    exact ⟨k, used, last, m, d, hk.trans hheader, hrest⟩
  | lending accept handler obey opens strategy inside rest ih =>
    obtain ⟨k, used, last, m, d, hk, hrest⟩ := ih (by simpa using hmem)
    exact ⟨k, used, last, m, d,
      hk.trans (inside.header.trans (header_of_obey accept obey)), hrest⟩

theorem exists_of_block (h : e.Executes f items g) {opening closing : Statement}
    {hopening : opening.terminator = .openBrace} {hclosing : closing.terminator = .closeBrace}
    {body : List Item} (hmem : .block opening hopening body closing hclosing ∈ items) :
    ∃ k used m d spec, k.header = f.header ∧ e.accept k opening = .ok (m, d, used) ∧
      d.handler ≠ .includeFiles ∧ d.block = some spec ∧
      (spec.strategy = none →
        ∃ inner, e.Executes (Frame.ofBlock e.registry m.id.index spec opening) body inner) := by
  induction h with
  | nil => simp at hmem
  | directive accept handler obey plain rest ih =>
    obtain ⟨k, used, m, d, spec, hk, hrest⟩ := ih (by simpa using hmem)
    exact ⟨k, used, m, d, spec, hk.trans (header_of_obey accept obey), hrest⟩
  | block accept handler obey opens directives inside rest _ ih =>
    have hheader := header_of_obey accept obey
    rcases List.mem_cons.mp hmem with heq | hlater
    · obtain ⟨rfl, rfl, rfl⟩ := Item.block.inj heq
      exact ⟨_, _, _, _, _, rfl, accept, handler, opens, fun _ => ⟨_, inside⟩⟩
    · obtain ⟨k, used, m, d, spec, hk, hrest⟩ := ih hlater
      exact ⟨k, used, m, d, spec, hk.trans hheader, hrest⟩
  | lending accept handler obey opens strategy inside rest ih =>
    rcases List.mem_cons.mp hmem with heq | hlater
    · obtain ⟨rfl, rfl, rfl⟩ := Item.block.inj heq
      exact ⟨_, _, _, _, _, rfl, accept, handler, opens, fun hnone => by simp [hnone] at strategy⟩
    · obtain ⟨k, used, m, d, spec, hk, hrest⟩ := ih hlater
      exact ⟨k, used, m, d, spec,
        hk.trans (inside.header.trans (header_of_obey accept obey)), hrest⟩

end Executes

theorem exists_lent {handle : Strategy ρ} {owner : Nat}
    (hf : f.dispatch = .strategy handle owner) (h : e.Feeds ⟨f, outer :: below⟩ ss last)
    (hlast : last.depth ≤ below.length) :
    ∃ items closing rest g, ss = Item.flattenAll items ++ closing :: rest ∧
      closing.terminator = .closeBrace ∧ Lends handle owner outer items g ∧
      e.Feeds ⟨g, below⟩ rest last := by
  induction ss generalizing outer with
  | nil =>
    cases h with
    | nil => exact absurd hlast (Nat.not_succ_le_self _)
  | cons s ss ih =>
    obtain ⟨-, source, log, next, hhandles, hrest⟩ := h.handles
    cases hhandles with
    | closed hs =>
      have habsorb : outer.absorb f = outer := by simp [Frame.absorb, hf]
      exact ⟨[], s, ss, outer, rfl, hs, .nil outer, habsorb ▸ hrest⟩
    | handedOver hs hd hchange =>
      obtain ⟨rfl, rfl⟩ := Dispatch.strategy.inj (hf.symm.trans hd)
      obtain ⟨items, closing, rest, g, rfl, hclosing, hlends, hfeeds⟩ := ih hrest
      refine ⟨.directive s hs :: items, closing, rest, g, rfl, hclosing, .cons ?_ hlends, hfeeds⟩
      rw [Frame.lend, hchange]
    | included _ hd => simp [hf] at hd
    | obeyed _ hd => simp [hf] at hd
    | opened _ hd => simp [hf] at hd

mutual

theorem exists_item (hr : e.registry.Finalized) {f : Frame ρ} {below : List (Frame ρ)}
    {s : Statement} {ss : List Statement} (hf : f.dispatch = .directives)
    (hs : s.terminator ≠ .closeBrace) (h : e.Feeds ⟨f, below⟩ (s :: ss) last)
    (hlast : last.depth ≤ below.length) :
    ∃ item rest g, s :: ss = item.flatten ++ rest ∧ e.Executes f [item] g ∧
      e.Feeds ⟨g, below⟩ rest last := by
  obtain ⟨hplain, source, log, next, hhandles, hrest⟩ := h.handles
  cases hhandles with
  | closed ht => exact absurd ht hs
  | handedOver _ hd => simp [hf] at hd
  | included _ hd haccept hh =>
    have hincludes : e.includesAt ⟨f, below⟩ s = true :=
      includesAt_iff.mpr ⟨hs, hd, includesIn_iff.mpr ⟨_, _, _, haccept, hh⟩⟩
    simp [hplain] at hincludes
  | @obeyed _ _ g _ _ _ _ _ _ haccept hh hobey hblock =>
    have ht : s.terminator = .semicolon := by
      have hopen := openBrace_iff_of_accept hr haccept
      rw [hblock] at hopen
      cases ht : s.terminator <;> simp_all
    exact ⟨.directive s ht, ss, g, rfl, .directive haccept hh hobey hblock (.nil g), hrest⟩
  | @opened _ _ g _ _ m d spec _ _ haccept hh hobey hblock =>
    have hopen : s.terminator = .openBrace := by
      simp [openBrace_iff_of_accept hr haccept, hblock]
    have hg := (Frame.dispatch_of_header (header_of_obey haccept hobey)).trans hf
    cases hstrategy : spec.strategy with
    | none =>
      have hinner : (Frame.ofBlock e.registry m.id.index spec s).dispatch = .directives := by
        simp [Frame.ofBlock, hstrategy]
      obtain ⟨body, closing, rest, inner, rfl, hclosing, hbody, hfeeds⟩ :=
        exists_body hr hinner hrest hlast
      have hdone := (Frame.dispatch_of_header hbody.header).trans hinner
      refine ⟨.block s hopen body closing hclosing, rest, g.absorb inner, ?_, ?_, hfeeds⟩
      · simp [Item.flatten]
      · rw [Frame.absorb, hdone]
        exact .block haccept hh hobey hblock hstrategy hbody (.nil _)
    | some handle =>
      have hinner : (Frame.ofBlock e.registry m.id.index spec s).dispatch =
          .strategy handle m.id.index := by
        simp [Frame.ofBlock, hstrategy]
      obtain ⟨body, closing, rest, lent, rfl, hclosing, hbody, hfeeds⟩ :=
        exists_lent hinner hrest hlast
      refine ⟨.block s hopen body closing hclosing, rest, lent, ?_, ?_, hfeeds⟩
      · simp [Item.flatten]
      · exact .lending haccept hh hobey hblock hstrategy hbody (.nil _)
termination_by (ss.length, 1)
decreasing_by exact Prod.Lex.right _ Nat.zero_lt_one

theorem exists_body (hr : e.registry.Finalized) {f outer : Frame ρ} {below : List (Frame ρ)}
    {ss : List Statement} (hf : f.dispatch = .directives)
    (h : e.Feeds ⟨f, outer :: below⟩ ss last) (hlast : last.depth ≤ below.length) :
    ∃ items closing rest g, ss = Item.flattenAll items ++ closing :: rest ∧
      closing.terminator = .closeBrace ∧ e.Executes f items g ∧
      e.Feeds ⟨outer.absorb g, below⟩ rest last := by
  cases ss with
  | nil =>
    cases h with
    | nil => exact absurd hlast (Nat.not_succ_le_self _)
  | cons s ss =>
    by_cases hs : s.terminator = .closeBrace
    · obtain ⟨-, source, log, next, hhandles, hrest⟩ := h.handles
      cases hhandles with
      | closed => exact ⟨[], s, ss, f, rfl, hs, .nil f, hrest⟩
      | handedOver _ hd => simp [hf] at hd
      | included ht => exact absurd hs ht
      | obeyed ht => exact absurd hs ht
      | opened ht => exact absurd hs ht
    · obtain ⟨item, rest, g, heq, hitem, hfeeds⟩ := exists_item hr hf hs h (Nat.le_succ_of_le hlast)
      have hg := (Frame.dispatch_of_header hitem.header).trans hf
      obtain ⟨items, closing, later, k, hrest, hclosing, hitems, hlater⟩ :=
        exists_body hr hg hfeeds hlast
      refine ⟨item :: items, closing, later, k, ?_, hclosing, hitem.append hitems, hlater⟩
      rw [heq, hrest, Item.flattenAll_cons, List.append_assoc]
termination_by (ss.length, 0)
decreasing_by
  · subst_vars
    exact Prod.Lex.left _ _ (Nat.lt_succ_self _)
  · subst_vars
    exact Prod.Lex.left _ _ (item.length_lt_of_flatten heq)

end

theorem exists_items (hr : e.registry.Finalized) {f : Frame ρ} {ss : List Statement}
    (hf : f.dispatch = .directives) (h : e.Feeds ⟨f, []⟩ ss last) (hlast : last.depth = 0) :
    ∃ items g, ss = Item.flattenAll items ∧ e.Executes f items g ∧ last = ⟨g, []⟩ := by
  cases ss with
  | nil =>
    cases h with
    | nil => exact ⟨[], f, rfl, .nil f, rfl⟩
  | cons s ss =>
    have hs : s.terminator ≠ .closeBrace := by
      intro hs
      obtain ⟨-, source, log, next, hhandles, -⟩ := h.handles
      cases hhandles with
      | included ht => exact ht hs
      | obeyed ht => exact ht hs
      | opened ht => exact ht hs
    obtain ⟨item, rest, g, heq, hitem, hfeeds⟩ := exists_item hr hf hs h (Nat.le_of_eq hlast)
    have hg := (Frame.dispatch_of_header hitem.header).trans hf
    obtain ⟨items, k, rfl, hitems, hk⟩ := exists_items hr hg hfeeds hlast
    exact ⟨item :: items, k, by rw [heq, Item.flattenAll_cons], hitem.append hitems, hk⟩
termination_by ss.length
decreasing_by
  subst_vars
  exact item.length_lt_of_flatten heq

/-- A run that ends well executes the items that its spliced statements form. -/
theorem exists_executed {cursor : Cursor} {directory : Option Path} [Record ρ] {log : Log}
    {root : Context ρ} (hr : e.registry.Finalized)
    (hrun : e.run (e.opening (.outermost cursor directory)) = (log, .ok root)) :
    ∃ final items g, e.Reaches (.start (e.opening (.outermost cursor directory))) final ∧
      final.state.sources = [] ∧
      Splices e directory cursor.stream.statements final.handled final.spliced ∧
      (∀ others, Item.flattenAll others = final.spliced ↔ others = items) ∧
      e.Executes (Frame.root e.registry) items g ∧ root = g.close.complete := by
  obtain ⟨final, hreaches, hsources, -, hsplices, hfeeds, hdepth, hroot⟩ := exists_splicing hr hrun
  obtain ⟨items, g, hitems, hexecutes, hstack⟩ := exists_items hr rfl hfeeds hdepth
  refine ⟨final, items, g, hreaches, hsources, hsplices, fun others => ?_, hexecutes, ?_⟩
  · rw [hitems]
    exact ⟨Item.flattenAll_injective, fun h => by rw [h]⟩
  · rw [hroot, hstack]
    rfl

end Engine

end ScopedConf
