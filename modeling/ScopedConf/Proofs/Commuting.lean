import ScopedConf.Proofs.Sections
import ScopedConf.Proofs.Uses

/-! A directive and a nested block beside it may change places. The block cannot see what the
directive stores before the whole tree is merged, and the only other trace of their order is the
order in which a context remembers the directives that were used in it. -/

namespace ScopedConf

variable {ρ : Type}

namespace Frame

/-- The same frame, with what was used in it remembered in another order. -/
structure SameUse (f g : Frame ρ) : Prop where
  rest : g = { f with used := g.used }
  used : f.used.Perm g.used

variable {f g : Frame ρ}

namespace SameUse

theorem refl (f : Frame ρ) : SameUse f f := ⟨rfl, .refl _⟩

theorem symm (h : SameUse f g) : SameUse g f :=
  ⟨by rw [h.rest], h.used.symm⟩

theorem header (h : SameUse f g) : g.header = f.header := by
  rw [h.rest]
  rfl

theorem records (h : SameUse f g) : g.records = f.records := by rw [h.rest]

theorem free_iff (h : SameUse f g) (d : Directive ρ) : g.Free d ↔ f.Free d := by
  simp only [Free, h.used.mem_iff]

theorem close_eq (h : SameUse f g) : g.close = f.close := by
  rw [h.rest]
  rfl

theorem remember (h : SameUse f g) (d : Directive ρ) : SameUse (f.remember d) (g.remember d) := by
  refine ⟨?_, ?_⟩
  · rw [remember_eq f, remember_eq g, h.rest]
  · rw [used_remember, used_remember]
    split
    · exact h.used.cons _
    · exact h.used

theorem keep (h : SameUse f g) (records : List (Held ρ)) :
    SameUse (f.keep records) (g.keep records) :=
  ⟨by rw [h.rest]; rfl, h.used⟩

theorem absorb {inner inner' : Frame ρ} (h : SameUse f g) (hinner : SameUse inner inner') :
    SameUse (f.absorb inner) (g.absorb inner') := by
  unfold Frame.absorb
  rw [Frame.dispatch_of_header hinner.header, hinner.close_eq]
  split
  · exact ⟨by rw [h.rest], h.used⟩
  · exact h

end SameUse

theorem sameUse_exchange (f : Frame ρ) (a b : Directive ρ) (records : List (Held ρ))
    (c : Context ρ) :
    SameUse ((((f.remember a).keep records).remember b).hold c)
      ((((f.remember b).hold c).remember a).keep records) := by
  unfold remember keep hold
  cases a.shape.has .once <;> cases b.shape.has .once
  · exact ⟨rfl, .refl _⟩
  · exact ⟨rfl, .refl _⟩
  · exact ⟨rfl, .refl _⟩
  · exact ⟨rfl, .swap _ _ _⟩

end Frame

structure Stack.SameUse (s t : Stack ρ) : Prop where
  top : s.top.SameUse t.top
  below : List.Forall₂ Frame.SameUse s.below t.below

theorem Stack.SameUse.symm {s t : Stack ρ} (h : s.SameUse t) : t.SameUse s :=
  ⟨h.top.symm, h.below.flip.imp fun _ _ hf => hf.symm⟩

theorem Stack.SameUse.bottom {s t : Stack ρ} (h : s.SameUse t) : s.bottom.SameUse t.bottom := by
  obtain ⟨top, below⟩ := s
  obtain ⟨top', below'⟩ := t
  obtain ⟨htop, hbelow⟩ := h
  simp only at htop hbelow
  induction hbelow generalizing top top' with
  | nil => exact htop
  | cons hf _ ih =>
    rw [Stack.bottom_cons, Stack.bottom_cons]
    exact ih _ _ hf

namespace Engine

variable {e : Engine ρ} {source : Source} {f g f' : Frame ρ} {s : Statement}
  {below below' : List (Frame ρ)} {m : Registry.Entry ρ} {d : Directive ρ} {last : Stack ρ}

theorem accept_sameUse (h : f.SameUse g) (s : Statement) :
    e.accept g s = (e.accept f s).map fun (m, d, _) => (m, d, g.remember d) := by
  unfold accept
  rw [lookUp_of_header h.header]
  cases e.lookUp f s.name with
  | error cause => rfl
  | ok found =>
    simp only
    rw [Frame.admitUse_of_free_iff (h.free_iff found.2)]
    cases f.admitUse found.2 s <;> rfl

theorem includesIn_sameUse (h : f.SameUse g) (s : Statement) :
    e.includesIn g s = e.includesIn f s := by
  rw [Bool.eq_iff_iff, includesIn_iff, includesIn_iff, accept_sameUse h]
  cases e.accept f s with
  | error cause => simp [Except.map]
  | ok accepted =>
    obtain ⟨m, d, f'⟩ := accepted
    simp [Except.map]

theorem sameUse_of_accept (h : f.SameUse g) (haccept : e.accept f s = .ok (m, d, f')) :
    f'.SameUse (g.remember d) :=
  eq_remember_of_accept haccept ▸ h.remember d

theorem enter_sameUse (h : f.SameUse g) (depth : Nat) (s : Statement) :
    Outcome.Related (fun x y => x.1.SameUse y.1 ∧ x.2 = y.2) (e.enter depth f s)
      (e.enter depth g s) := by
  unfold enter
  rw [accept_sameUse h]
  cases haccept : e.accept f s with
  | error cause => exact .error _ _
  | ok accepted =>
    obtain ⟨m, d, f'⟩ := accepted
    have hused := sameUse_of_accept h haccept
    simp only [Except.map]
    rw [Frame.obey_of_records hused.records]
    cases hobey : f'.obey m.id.index d s with
    | error cause => exact .error _ _
    | ok k =>
      have hk := hused.keep k.records
      rw [show f'.keep k.records = k from (Frame.updated_of_obey hobey).rest.symm] at hk
      simp only [Except.map, openIn]
      cases d.block with
      | none => exact .ok _ ⟨hk, rfl⟩
      | some spec =>
        simp only
        split
        · exact .error _ _
        · exact .ok _ ⟨hk, rfl⟩

theorem dispatch_sameUse (h : f.SameUse g) (hbelow : List.Forall₂ Frame.SameUse below below') :
    Outcome.Related (WithSources Stack.SameUse fun _ => True) (e.dispatch source ⟨f, below⟩ s)
      (e.dispatch source ⟨g, below'⟩ s) := by
  cases hincludes : e.includesIn f s with
  | false =>
    rw [dispatch_eq_enter source below hincludes,
      dispatch_eq_enter source below' ((includesIn_sameUse h s).trans hincludes),
      ← hbelow.length_eq]
    refine (enter_sameUse h below.length s).map fun x y hxy => ⟨?_, rfl, by simp⟩
    obtain ⟨x, inner⟩ := x
    obtain ⟨y, inner'⟩ := y
    obtain ⟨hframe, rfl⟩ := hxy
    cases inner with
    | none => exact ⟨hframe, hbelow⟩
    | some inner => exact ⟨.refl inner, .cons hframe hbelow⟩
  | true =>
    obtain ⟨m, d, f', haccept, hh⟩ := includesIn_iff.mp hincludes
    have haccept' : e.accept g s = .ok (m, d, g.remember d) := by
      rw [accept_sameUse h, haccept]
      rfl
    simp only [dispatch_of_accept_ok haccept, dispatch_of_accept_ok haccept', execute, hh,
      Stack.depth, ← hbelow.length_eq]
    cases hfiles : e.includeFiles source below.length s with
    | mk log result =>
      cases result with
      | error failure => exact .error _ _
      | ok opened =>
        exact .ok _ ⟨⟨sameUse_of_accept h haccept, hbelow⟩, rfl, fun _ _ => trivial⟩

theorem closeBlock_sameUse {x y : Stack ρ} (h : x.SameUse y) :
    Outcome.Related Stack.SameUse (closeBlock source x s) (closeBlock source y s) := by
  obtain ⟨top, below⟩ := x
  obtain ⟨top', below'⟩ := y
  obtain ⟨htop, hbelow⟩ := h
  simp only at htop hbelow
  simp only [closeBlock, Stack.depth, ← hbelow.length_eq]
  by_cases hdepth : below.length ≤ source.baseDepth
  · simp only [hdepth, if_true]
    exact .error _ _
  · simp only [hdepth, if_false]
    cases hbelow with
    | nil => exact .error _ _
    | cons houter hbelow =>
      have htitle : top'.title = top.title := by
        rw [htop.rest]
        rfl
      simp only [htitle]
      exact .ok _ ⟨houter.absorb htop, hbelow⟩

theorem handOver_sameUse {handle : Strategy ρ} {owner : Nat} {x y : Stack ρ} (h : x.SameUse y) :
    Outcome.Related Stack.SameUse (Reported.quiet (handOver handle owner x s))
      (Reported.quiet (handOver handle owner y s)) := by
  obtain ⟨top, below⟩ := x
  obtain ⟨top', below'⟩ := y
  obtain ⟨htop, hbelow⟩ := h
  simp only at htop hbelow
  simp only [handOver]
  split
  · exact .error _ _
  · cases hbelow with
    | nil => exact .error _ _
    | @cons outer outer' _ _ houter hbelow =>
      simp only [Frame.change, houter.records]
      cases Held.change owner (fun r => (handle s r).map fun r => ((), r)) outer.records with
      | error refusal => exact .error _ _
      | ok changed =>
        obtain ⟨⟨⟩, records⟩ := changed
        exact .ok _ ⟨htop, .cons (houter.keep records) hbelow⟩

theorem simulates_sameUse (e : Engine ρ) : e.Simulates Stack.SameUse fun _ => True where
  depth x y h := h.below.length_eq
  advance _ _ h := h
  handle source x y s _ h := by
    unfold handle
    have hdispatch := Frame.dispatch_of_header h.top.header
    split
    · exact (closeBlock_sameUse h).map fun _ _ hnext => ⟨hnext, rfl, by simp⟩
    · rw [hdispatch]
      split
      · exact (handOver_sameUse h).map fun _ _ hnext => ⟨hnext, rfl, by simp⟩
      · exact dispatch_sameUse h.top h.below

section exchange

variable {opening closing : Statement} {hopening : opening.terminator = .openBrace}
  {hclosing : closing.terminator = .closeBrace} {body : List Item}

/-- The directive of `s` and the block of `opening` stand in a context of directives; `s` is no
include, and all that `opening` does is to open a block of directives. -/
structure Interchangeable (e : Engine ρ) (f : Frame ρ) (s opening : Statement) : Prop where
  directives : f.dispatch = .directives
  plain : e.includesIn f s = false
  setless : ∀ m d, e.lookUp f opening.name = .ok (m, d) → ∀ set, d.handler ≠ .slot set
  nested : ∀ m d spec, e.lookUp f opening.name = .ok (m, d) → d.block = some spec →
    spec.strategy = none

def mayInterchange (e : Engine ρ) (f : Frame ρ) (s opening : Statement) : Bool :=
  match f.dispatch with
  | .strategy .. => false
  | .directives =>
    !e.includesIn f s &&
      match e.lookUp f opening.name with
      | .error _ => true
      | .ok (_, d) =>
        match d.handler with
        | .slot _ => false
        | _ => d.block.all fun spec => spec.strategy.isNone

theorem interchangeable_iff :
    e.Interchangeable f s opening ↔ e.mayInterchange f s opening = true := by
  unfold mayInterchange
  constructor
  · intro h
    rw [h.directives, h.plain]
    cases hlookUp : e.lookUp f opening.name with
    | error cause => rfl
    | ok found =>
      obtain ⟨m, d⟩ := found
      have hslot := h.setless m d hlookUp
      have hnested := h.nested m d
      cases hhandler : d.handler with
      | slot set => exact absurd hhandler (hslot set)
      | _ => cases hblock : d.block <;> simp_all
  · intro h
    split at h
    · simp at h
    · next hd =>
      obtain ⟨hplain, hopens⟩ := (Bool.and_eq_true _ _).mp h
      refine ⟨hd, by simpa using hplain, fun m d hlookUp set hset => ?_,
        fun m d spec hlookUp hspec => ?_⟩
      · simp [hlookUp, hset] at hopens
      · simp only [hlookUp] at hopens
        split at hopens
        · simp at hopens
        · simpa [hspec] using hopens

instance : Decidable (e.Interchangeable f s opening) :=
  decidable_of_iff _ interchangeable_iff.symm

theorem Interchangeable.of_header (hr : e.registry.Finalized) (h : e.Interchangeable f s opening)
    (hheader : f'.header = f.header) : e.Interchangeable f' s opening where
  directives := (Frame.dispatch_of_header hheader).trans h.directives
  plain := Bool.eq_false_iff.mpr fun hincludes =>
    Bool.eq_false_iff.mp h.plain (includesIn_of_header hr hheader hincludes)
  setless := by
    rw [lookUp_of_header hheader]
    exact h.setless
  nested := by
    rw [lookUp_of_header hheader]
    exact h.nested

theorem exists_exchanged (hr : e.registry.Finalized) (hs : s.terminator = .semicolon)
    (hi : e.Interchangeable f s opening)
    (h : (e.handleAll source ⟨f, below⟩
      (s :: (Item.block opening hopening body closing hclosing).flatten)).2 = .ok last) :
    ∃ last', (e.handleAll source ⟨f, below⟩
      ((Item.block opening hopening body closing hclosing).flatten ++ [s])).2 = .ok last' ∧
        last.SameUse last' := by
  rw [← List.singleton_append, snd_handleAll_append] at h
  obtain ⟨_, hdirective, hblock⟩ := h
  obtain ⟨m, d, g, huses, rfl⟩ :=
    (snd_handleAll_directive hr hs hi.directives hi.plain).mp hdirective
  have hig := hi.of_header hr huses.header
  obtain ⟨m', d', spec, g', inner, hbuilds, rfl⟩ :=
    (snd_handleAll_block hr hig.directives hig.nested).mp hblock
  have hslot := hig.setless m' d' (accept_eq_ok.mp hbuilds.uses.accept).1
  obtain rfl := hbuilds.uses.eq_remember hslot
  have hfree : (f.remember d).Free d' := by
    have hfree := hbuilds.uses.free
    rwa [Frame.Free, huses.used] at hfree
  obtain ⟨hblockFree, hdirectiveFree⟩ := (f.free_comm d d').mp ⟨huses.free, hfree⟩
  -- The block stores nothing in `f`, so it opens without the directive in front of it, and the
  -- directive finds behind it the records that it found in `f`.
  have hopens := hbuilds.uses.of_noSlot hslot huses.header.symm hblockFree
  have hheader : ((f.remember d').hold inner.close).header = f.header := f.header_remember d'
  have hik := hi.of_header hr hheader
  have hstores := huses.of_records hheader (by rw [Frame.remember_eq]; rfl) hdirectiveFree
  refine ⟨_, snd_handleAll_append.mpr ⟨_,
    (snd_handleAll_block hr hi.directives hi.nested).mpr
      ⟨m', d', spec, _, inner, hbuilds.of_uses hr hopens, rfl⟩,
    (snd_handleAll_directive hr hs hik.directives hik.plain).mpr ⟨m, d, _, hstores, rfl⟩⟩, ?_,
    List.forall₂_same.mpr fun f _ => .refl f⟩
  rw [huses.eq]
  exact f.sameUse_exchange d d' g.records inner.close

theorem exists_exchanged_back (hr : e.registry.Finalized) (hs : s.terminator = .semicolon)
    (hi : e.Interchangeable f s opening)
    (h : (e.handleAll source ⟨f, below⟩
      ((Item.block opening hopening body closing hclosing).flatten ++ [s])).2 = .ok last) :
    ∃ last', (e.handleAll source ⟨f, below⟩
      (s :: (Item.block opening hopening body closing hclosing).flatten)).2 = .ok last' ∧
        last.SameUse last' := by
  rw [snd_handleAll_append] at h
  obtain ⟨_, hblock, hdirective⟩ := h
  obtain ⟨m', d', spec, g', inner, hbuilds, rfl⟩ :=
    (snd_handleAll_block hr hi.directives hi.nested).mp hblock
  have hslot := hi.setless m' d' (accept_eq_ok.mp hbuilds.uses.accept).1
  obtain rfl := hbuilds.uses.eq_remember hslot
  have hheader : ((f.remember d').hold inner.close).header = f.header := f.header_remember d'
  have hik := hi.of_header hr hheader
  obtain ⟨m, d, g, huses, rfl⟩ :=
    (snd_handleAll_directive hr hs hik.directives hik.plain).mp hdirective
  obtain ⟨hdirectiveFree, hblockFree⟩ :=
    (f.free_comm d' d).mp ⟨hbuilds.uses.free, huses.free⟩
  have hstores := huses.of_records hheader.symm (by rw [Frame.remember_eq]; rfl) hdirectiveFree
  have hig := hi.of_header hr hstores.header
  have hopens := hbuilds.uses.of_noSlot hslot hstores.header hblockFree
  rw [← List.singleton_append]
  refine ⟨_, snd_handleAll_append.mpr ⟨_,
    (snd_handleAll_directive hr hs hi.directives hi.plain).mpr ⟨m, d, _, hstores, rfl⟩,
    (snd_handleAll_block hr hig.directives hig.nested).mpr
      ⟨m', d', spec, _, inner, hbuilds.of_uses hr hopens, rfl⟩⟩, ?_,
    List.forall₂_same.mpr fun f _ => .refl f⟩
  rw [huses.eq]
  exact (f.sameUse_exchange d d' g.records inner.close).symm

end exchange

theorem snd_runStream_eq_ok [Record ρ] {ss : List Statement} {ending : Location}
    {root : Context ρ} :
    (e.runStream source ⟨ss, .ok ending⟩).2 = .ok root ↔
      ∃ last, (e.handleAll source ⟨Frame.root e.registry, []⟩ ss).2 = .ok last ∧
        last.depth = source.baseDepth ∧ last.bottom.close.complete = root := by
  rw [runStream, feed_eq_handleAll, Outcome.bind_assoc, Outcome.snd_bind_eq_ok]
  refine exists_congr fun last => and_congr_right fun _ => ?_
  by_cases hdepth : last.depth = source.baseDepth
  · simp [feed, hdepth, Outcome.bind, Outcome.pure]
  · simp [feed, hdepth, Outcome.fail, Outcome.bind]

/-- What leads to the same contexts, up to the order of the uses, gives the same tree. -/
theorem runStream_of_sameUse [Record ρ] {before middle middle' after : List Statement}
    {ending ending' : Location} {root : Context ρ}
    (h : ∀ mid last, (e.handleAll source ⟨Frame.root e.registry, []⟩ before).2 = .ok mid →
      (e.handleAll source mid middle).2 = .ok last →
        ∃ last', (e.handleAll source mid middle').2 = .ok last' ∧ last.SameUse last')
    (hrun : (e.runStream source ⟨before ++ (middle ++ after), .ok ending⟩).2 = .ok root) :
    (e.runStream source ⟨before ++ (middle' ++ after), .ok ending'⟩).2 = .ok root := by
  obtain ⟨last, hlast, hdepth, hroot⟩ := snd_runStream_eq_ok.mp hrun
  obtain ⟨mid, hmid, hrest⟩ := snd_handleAll_append.mp hlast
  obtain ⟨next, hnext, hafter⟩ := snd_handleAll_append.mp hrest
  obtain ⟨next', hnext', hsame⟩ := h mid next hmid hnext
  obtain ⟨last', hafter', hsame'⟩ :=
    ((simulates_sameUse e).handleAll trivial hsame after).eq_ok hafter
  have hrest' := snd_handleAll_append.mpr ⟨next', hnext', hafter'⟩
  have hlast' := snd_handleAll_append.mpr ⟨mid, hmid, hrest'⟩
  refine snd_runStream_eq_ok.mpr ⟨last', hlast', ?_, ?_⟩
  · exact hsame'.below.length_eq.symm.trans hdepth
  · rw [hsame'.bottom.close_eq, hroot]

/-- A directive in front of a nested block may as well stand behind it: both succeed or none does,
and both give the same tree. What stands around the two, and what is in the block, may be anything,
includes among it. -/
theorem directive_commutes_with_block (e : Engine ρ) [Record ρ] (hr : e.registry.Finalized)
    (source : Source) (before after : List Statement) (s : Statement)
    (hs : s.terminator = .semicolon) (opening : Statement)
    (hopening : opening.terminator = .openBrace) (body : List Item) (closing : Statement)
    (hclosing : closing.terminator = .closeBrace)
    (hmid : ∀ mid, (e.handleAll source ⟨Frame.root e.registry, []⟩ before).2 = .ok mid →
      e.Interchangeable mid.top s opening) :
    let block := (Item.block opening hopening body closing hclosing).flatten
    let first := before ++ [s] ++ block ++ after
    let second := before ++ block ++ [s] ++ after
    (∀ ending ending' root, (e.runStream source ⟨first, .ok ending⟩).2 = .ok root ↔
      (e.runStream source ⟨second, .ok ending'⟩).2 = .ok root) ∧
    ∀ cursor cursor' ending ending', cursor.stream = ⟨first, .ok ending⟩ →
      cursor'.stream = ⟨second, .ok ending'⟩ → ∀ root,
        ((e.run (e.opening (source.advance cursor))).2 = .ok root ↔
          (e.run (e.opening (source.advance cursor'))).2 = .ok root) := by
  intro block first second
  have hstream : ∀ ending ending' root, (e.runStream source ⟨first, .ok ending⟩).2 = .ok root ↔
      (e.runStream source ⟨second, .ok ending'⟩).2 = .ok root := by
    intro ending ending' root
    simp only [first, second, List.append_assoc]
    rw [← List.append_assoc [s], ← List.append_assoc block]
    exact ⟨runStream_of_sameUse fun mid last hbefore => exists_exchanged hr hs (hmid mid hbefore),
      runStream_of_sameUse fun mid last hbefore => exists_exchanged_back hr hs (hmid mid hbefore)⟩
  refine ⟨hstream, fun cursor cursor' ending ending' hcursor hcursor' root => ?_⟩
  have hrun : ∀ cursor, e.run (e.opening (source.advance cursor)) =
      e.runStream source cursor.stream := by
    intro cursor
    rw [run_eq_runStream, runStream, feed_advance]
    rfl
  rw [hrun, hrun, hcursor, hcursor']
  exact hstream ending ending' root

theorem directive_commutes_with_block_nested :
    let e := Server.engineOver []
    let statement := fun words terminator =>
      (⟨words.map (⟨·, 1, false⟩), terminator, ⟨"server.conf", 1⟩⟩ : Statement)
    let before := [statement ["http"] .openBrace]
    let after := [statement [] .closeBrace]
    let s := statement ["root", "/srv"] .semicolon
    let body := [Item.block (statement ["types"] .openBrace) rfl
      [.directive (statement ["text/css", "css"] .semicolon) rfl] (statement [] .closeBrace) rfl]
    let opening := statement ["server"] .openBrace
    let closing := statement [] .closeBrace
    let block := (Item.block opening rfl body closing rfl).flatten
    let cursor := Server.cursorOf
      "http \x7b root /srv; server \x7b types \x7b text/css css; \x7d \x7d \x7d"
    let cursor' := Server.cursorOf
      "http \x7b server \x7b types \x7b text/css css; \x7d \x7d root /srv; \x7d"
    e.registry.Finalized ∧
      (∀ mid, (e.handleAll (.outermost cursor none) ⟨Frame.root e.registry, []⟩ before).2 =
        .ok mid → e.Interchangeable mid.top s opening) ∧
      cursor.stream.statements = before ++ [s] ++ block ++ after ∧
      cursor'.stream.statements = before ++ block ++ [s] ++ after ∧
      ∃ root, (e.run (e.opening (.outermost cursor none))).2 = .ok root ∧
        (e.run (e.opening (.outermost cursor' none))).2 = .ok root := by
  intro e statement before after s body opening closing block cursor cursor'
  have hmid : ∀ mid, (e.handleAll (.outermost cursor none) ⟨Frame.root e.registry, []⟩ before).2 =
      .ok mid → e.Interchangeable mid.top s opening := by
    intro mid hbefore
    have hplain : e.includesIn (Frame.root e.registry) (statement ["http"] .openBrace) = false := by
      decide +kernel
    obtain ⟨entered, henter, rfl⟩ := (snd_handleAll_plain (by decide) rfl hplain).mp hbefore
    have hall : (e.enter 0 (Frame.root e.registry) (statement ["http"] .openBrace)).2.toOption.all
        (fun entered => e.Interchangeable (settle [] entered).top s opening) = true := by
      decide +kernel
    change (e.enter 0 _ _).2 = .ok entered at henter
    rw [henter] at hall
    exact of_decide_eq_true hall
  have hsucceeds : e.succeedsWithin 12 (e.opening (.outermost cursor none)) = true := by
    decide +kernel
  obtain ⟨log, root, hrun⟩ := exists_run_of_succeedsWithin hsucceeds
  have hfirst : cursor.stream.statements = before ++ [s] ++ block ++ after := by decide +kernel
  have hsecond : cursor'.stream.statements = before ++ block ++ [s] ++ after := by
    decide +kernel
  have hending : cursor.stream.ending = .ok ⟨"server.conf", 1⟩ := by decide +kernel
  have hending' : cursor'.stream.ending = .ok ⟨"server.conf", 1⟩ := by decide +kernel
  obtain ⟨-, hsame⟩ := directive_commutes_with_block e Server.finalized_reference
    (.outermost cursor none) before after s rfl opening rfl body closing rfl hmid
  have hiff := hsame cursor cursor' ⟨"server.conf", 1⟩ ⟨"server.conf", 1⟩
    (by rw [← hfirst, ← hending]) (by rw [← hsecond, ← hending']) root
  have hok : (e.run (e.opening (.outermost cursor none))).2 = .ok root := congrArg Prod.snd hrun
  exact ⟨Server.finalized_reference, hmid, hfirst, hsecond, root, hok, hiff.mp hok⟩

end Engine

end ScopedConf
