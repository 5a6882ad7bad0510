import ScopedConf.Proofs.Inheritance
import ScopedConf.Proofs.Mirroring

/-! The search along a path of labels. Of all positions in a tree, met in the order of a walk, it
stops at the first to which the labels of the path lead. A context that fits the beginning of the
path and not all of it does not hide a later one. -/

namespace ScopedConf.Context

variable {ρ : Type}

theorem sameLabel_iff {label other : List String} :
    sameLabel label other = true ↔ label = other := by
  induction label generalizing other with
  | nil => cases other <;> simp [sameLabel]
  | cons word label ih =>
    cases other with
    | nil => simp [sameLabel]
    | cons otherWord other =>
      have hlater : sameLabel label other = true ↔ label = other := ih
      simp only [sameLabel, Bool.and_eq_true, beq_iff_eq] at hlater
      simp only [sameLabel, List.length_cons, List.zip_cons_cons, List.all_cons, Bool.and_eq_true,
        beq_iff_eq, Nat.add_right_cancel_iff, List.cons.injEq]
      rw [← hlater]
      exact and_left_comm

/-- The contexts on the way to a position, one on each level below the first context. -/
def chain? : List Nat → Context ρ → Option (List (Context ρ))
  | [], _ => some []
  | i :: position, c => c.children[i]?.bind fun d => (chain? position d).map (d :: ·)

def labelsTo? (position : List Nat) (c : Context ρ) : Option (List (List String)) :=
  (c.chain? position).map (List.map label)

mutual

/-- The positions in a tree, in the order in which a walk comes to them. -/
def positions : Context ρ → List (List Nat)
  | node _ _ _ _ children => [] :: positionsFrom 0 children

def positionsFrom (i : Nat) : List (Context ρ) → List (List Nat)
  | [] => []
  | c :: cs => (positions c).map (i :: ·) ++ positionsFrom (i + 1) cs

end

theorem positions_eq (c : Context ρ) : c.positions = [] :: positionsFrom 0 c.children := by
  cases c
  rw [positions, children]

theorem at?_of_chain? {position : List Nat} {c : Context ρ} {chain : List (Context ρ)}
    (h : c.chain? position = some chain) : c.at? position = some (chain.getLastD c) := by
  induction position generalizing c chain with
  | nil =>
    obtain rfl := Option.some.inj h
    rfl
  | cons i position ih =>
    obtain ⟨d, hd, h⟩ := Option.bind_eq_some_iff.mp h
    obtain ⟨later, hlater, rfl⟩ := Option.map_eq_some_iff.mp h
    rw [at?_cons, hd, Option.bind_some, ih hlater, List.getLastD_cons]

theorem labelsTo?_cons {i : Nat} {position : List Nat} {c d : Context ρ} {label : List String}
    {path : List (List String)} (hd : c.children[i]? = some d) :
    c.labelsTo? (i :: position) = some (label :: path) ↔
      d.label = label ∧ d.labelsTo? position = some path := by
  simp only [labelsTo?, chain?, hd, Option.bind_some, Option.map_map, Option.map_eq_some_iff]
  constructor
  · rintro ⟨chain, hchain, hlabels⟩
    obtain ⟨hlabel, hpath⟩ := List.cons.inj hlabels
    exact ⟨hlabel, chain, hchain, hpath⟩
  · rintro ⟨hlabel, chain, hchain, hpath⟩
    exact ⟨chain, hchain, List.cons_eq_cons.mpr ⟨hlabel, hpath⟩⟩

theorem mem_positionsFrom {i : Nat} {cs : List (Context ρ)} {position : List Nat} :
    position ∈ positionsFrom i cs ↔
      ∃ k d later, cs[k]? = some d ∧ later ∈ d.positions ∧ position = (i + k) :: later := by
  induction cs generalizing i with
  | nil => simp [positionsFrom]
  | cons c cs ih =>
    rw [positionsFrom, List.mem_append, List.mem_map, ih]
    constructor
    · rintro (⟨later, hlater, rfl⟩ | ⟨k, d, later, hd, hlater, rfl⟩)
      · exact ⟨0, c, later, rfl, hlater, rfl⟩
      · exact ⟨k + 1, d, later, hd, hlater, by rw [Nat.add_right_comm, Nat.add_assoc]⟩
    · rintro ⟨k, d, later, hd, hlater, rfl⟩
      cases k with
      | zero =>
        obtain rfl := Option.some.inj hd
        exact .inl ⟨later, hlater, rfl⟩
      | succ k => exact .inr ⟨k, d, later, hd, hlater, by rw [Nat.add_right_comm, Nat.add_assoc]⟩

theorem mem_positions {position : List Nat} {c : Context ρ} {chain : List (Context ρ)}
    (h : c.chain? position = some chain) : position ∈ c.positions := by
  induction position generalizing c chain with
  | nil =>
    rw [positions_eq]
    exact List.mem_cons_self
  | cons i position ih =>
    obtain ⟨d, hd, h⟩ := Option.bind_eq_some_iff.mp h
    obtain ⟨later, hlater, rfl⟩ := Option.map_eq_some_iff.mp h
    rw [positions_eq]
    refine List.mem_cons_of_mem _ (mem_positionsFrom.mpr ⟨i, d, position, hd, ih hlater, ?_⟩)
    rw [Nat.zero_add]

mutual

theorem map_at?_positions (c : Context ρ) : c.positions.map (at? · c) = c.preorder.map some := by
  cases c with
  | node kind label location records children =>
    have hchildren := map_at?_positionsFrom (c := .node kind label location records children) []
      children rfl
    rw [positions, preorder, List.map_cons, List.map_cons, ← hchildren]
    rfl

theorem map_at?_positionsFrom {c : Context ρ} (before cs : List (Context ρ))
    (hc : c.children = before ++ cs) :
    (positionsFrom before.length cs).map (at? · c) = (preorderAll cs).map some := by
  cases cs with
  | nil => rfl
  | cons d cs =>
    have hd : c.children[before.length]? = some d := by simp [hc]
    have hlater := map_at?_positionsFrom (c := c) (before ++ [d]) cs (by simp [hc])
    rw [List.length_append, List.length_singleton] at hlater
    have hfirst : (d.positions.map (before.length :: ·)).map (at? · c) =
        d.positions.map (at? · d) := by
      rw [List.map_map]
      refine List.map_congr_left fun position _ => ?_
      rw [Function.comp_apply, at?_cons, hd, Option.bind_some]
    rw [positionsFrom, preorderAll, List.map_append, List.map_append, hfirst, map_at?_positions d,
      hlater]

end

theorem map_some_walk (c : Context ρ) : c.walk.map some = c.positions.map (at? · c) := by
  rw [walk_eq_preorder, map_at?_positions]

/-- The first of the positions to which the labels lead. -/
def firstTo? (path : List (List String)) (c : Context ρ) : Option (List Nat) :=
  c.positions.find? fun position => c.labelsTo? position = some path

theorem exists_of_firstTo? {path : List (List String)} {c : Context ρ} {position : List Nat}
    (h : c.firstTo? path = some position) :
    ∃ chain, c.chain? position = some chain ∧ chain.map label = path := by
  have hlabels := List.find?_some h
  exact Option.map_eq_some_iff.mp (of_decide_eq_true hlabels)

theorem find?_below {c d : Context ρ} {i : Nat} {label : List String} {path : List (List String)}
    (hd : c.children[i]? = some d) :
    ((d.positions.map (i :: ·)).find? fun position =>
        c.labelsTo? position = some (label :: path)) =
      if sameLabel d.label label then (d.firstTo? path).map (i :: ·) else none := by
  rw [List.find?_map]
  split
  · next hlabel =>
    have hsame := sameLabel_iff.mp hlabel
    congr 2
    funext position
    exact decide_eq_decide.mpr ((labelsTo?_cons hd).trans (and_iff_right hsame))
  · next hlabel =>
    rw [Option.map_eq_none_iff, List.find?_eq_none]
    intro position _ hleads
    have hlabels := (labelsTo?_cons hd).mp (of_decide_eq_true hleads)
    exact hlabel (sameLabel_iff.mpr hlabels.1)

theorem find?_siblings {c : Context ρ} {label : List String} {path : List (List String)}
    (before cs : List (Context ρ)) (hc : c.children = before ++ cs) :
    ((positionsFrom before.length cs).find? fun position =>
        c.labelsTo? position = some (label :: path)).bind (at? · c) =
      (cs.filter fun d => sameLabel d.label label).findSome? fun d =>
        (d.firstTo? path).bind (at? · d) := by
  induction cs generalizing before with
  | nil => rfl
  | cons d cs ih =>
    have hd : c.children[before.length]? = some d := by simp [hc]
    have hlater := ih (before ++ [d]) (by simp [hc])
    rw [List.length_append, List.length_singleton] at hlater
    rw [positionsFrom, List.find?_append, find?_below hd, List.filter_cons]
    split
    · rw [List.findSome?_cons, ← hlater]
      cases hfirst : d.firstTo? path with
      | none => rfl
      | some position =>
        obtain ⟨chain, hchain, -⟩ := exists_of_firstTo? hfirst
        rw [Option.map_some, Option.some_or, Option.bind_some, Option.bind_some, at?_cons, hd,
          Option.bind_some, at?_of_chain? hchain]
    · exact hlater

/-- The search ends at the first position to which the labels lead. -/
theorem find?_eq_firstTo? (path : List (List String)) (c : Context ρ) :
    c.find? path = (c.firstTo? path).bind (at? · c) := by
  induction path generalizing c with
  | nil =>
    rw [firstTo?, positions_eq, List.find?_cons_of_pos (by rfl)]
    rfl
  | cons label path ih =>
    have hroot : ¬c.labelsTo? [] = some (label :: path) := by simp [labelsTo?, chain?]
    rw [firstTo?, positions_eq, List.find?_cons, decide_eq_false hroot]
    refine Eq.trans ?_ (find?_siblings [] c.children rfl).symm
    simp only [find?, ih]

theorem exists_chain?_iff {chain : List (Context ρ)} {c : Context ρ} :
    (∃ position, c.chain? position = some chain) ↔
      (c :: chain).IsChain fun outer inner => inner ∈ outer.children := by
  induction chain generalizing c with
  | nil => exact iff_of_true ⟨[], rfl⟩ (.singleton c)
  | cons d chain ih =>
    rw [List.isChain_cons_cons, ← ih]
    constructor
    · rintro ⟨position, h⟩
      cases position with
      | nil => simp [chain?] at h
      | cons i position =>
        obtain ⟨e, he, h⟩ := Option.bind_eq_some_iff.mp h
        obtain ⟨later, hlater, heq⟩ := Option.map_eq_some_iff.mp h
        obtain ⟨rfl, rfl⟩ := List.cons.inj heq
        exact ⟨List.mem_of_getElem? he, position, hlater⟩
    · rintro ⟨hd, position, hlater⟩
      obtain ⟨i, hi⟩ := List.mem_iff_getElem?.mp hd
      exact ⟨i :: position, by rw [chain?, hi, Option.bind_some, hlater]; rfl⟩

theorem isSome_find?_iff {path : List (List String)} {c : Context ρ} :
    (c.find? path).isSome = true ↔
      ∃ position chain, c.chain? position = some chain ∧ chain.map label = path := by
  rw [find?_eq_firstTo?]
  constructor
  · intro h
    obtain ⟨found, hfound⟩ := Option.isSome_iff_exists.mp h
    obtain ⟨position, hfirst, -⟩ := Option.bind_eq_some_iff.mp hfound
    exact ⟨position, exists_of_firstTo? hfirst⟩
  · rintro ⟨position, chain, hchain, hlabels⟩
    have hleads : c.labelsTo? position = some path :=
      Option.map_eq_some_iff.mpr ⟨chain, hchain, hlabels⟩
    have hsome : (c.firstTo? path).isSome = true :=
      List.find?_isSome.mpr ⟨position, mem_positions hchain, decide_eq_true hleads⟩
    obtain ⟨first, hfirst⟩ := Option.isSome_iff_exists.mp hsome
    obtain ⟨other, hother, -⟩ := exists_of_firstTo? hfirst
    rw [hfirst, Option.bind_some, at?_of_chain? hother]
    rfl

theorem firstTo?_eq_some_iff {path : List (List String)} {c : Context ρ} {position : List Nat} :
    c.firstTo? path = some position ↔ c.labelsTo? position = some path ∧
      ∃ before after, c.positions = before ++ position :: after ∧
        ∀ earlier ∈ before, c.labelsTo? earlier ≠ some path := by
  simp only [firstTo?, List.find?_eq_some_iff_append, decide_eq_true_eq, Bool.not_eq_true',
    decide_eq_false_iff_not, ne_eq]

/-- The search along a path finds a context exactly if a chain of contexts, each one a child of that
before it, has the labels of the path, word for word. The context found is the last of the chain to
the first position, in the order of a walk, whose chain has them; an earlier chain that has some of
them and not all does not matter. -/
theorem path_search_complete (path : List (List String)) (c : Context ρ) :
    ((c.find? path).isSome = true ↔
      ∃ chain, (c :: chain).IsChain (fun outer inner => inner ∈ outer.children) ∧
        chain.map label = path) ∧
    (∀ found, c.find? path = some found ↔
      ∃ before position after chain, c.positions = before ++ position :: after ∧
        c.chain? position = some chain ∧ chain.map label = path ∧ found = chain.getLastD c ∧
        ∀ earlier ∈ before, c.labelsTo? earlier ≠ some path) ∧
    c.walk.map some = c.positions.map (at? · c) := by
  refine ⟨?_, fun found => ?_, c.map_some_walk⟩
  · simp only [← exists_chain?_iff]
    rw [isSome_find?_iff, exists_comm]
    exact exists_congr fun chain => exists_and_right
  · rw [find?_eq_firstTo?, Option.bind_eq_some_iff]
    simp only [firstTo?_eq_some_iff]
    constructor
    · rintro ⟨position, ⟨hlabels, before, after, hpositions, hearlier⟩, hfound⟩
      obtain ⟨chain, hchain, hpath⟩ := Option.map_eq_some_iff.mp hlabels
      rw [at?_of_chain? hchain, Option.some.injEq] at hfound
      exact ⟨before, position, after, chain, hpositions, hchain, hpath, hfound.symm, hearlier⟩
    · rintro ⟨before, position, after, chain, hpositions, hchain, hpath, rfl, hearlier⟩
      have hlabels := Option.map_eq_some_iff.mpr ⟨chain, hchain, hpath⟩
      exact ⟨position, ⟨hlabels, before, after, hpositions, hearlier⟩, at?_of_chain? hchain⟩

/-- The first `server` has no `location`, and the search goes on to the second. -/
example :
    let context (label : List String) (children : List (Context Unit)) : Context Unit :=
      .node .main label none [] children
    let inner := context ["location", "/a"] [context ["limit"] []]
    (context [] [context ["server"] [context ["location"] []], context ["server"] [inner]]).find?
      [["server"], ["location", "/a"]] = some inner := by
  rfl

end ScopedConf.Context
