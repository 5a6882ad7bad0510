import Mathlib.Data.List.Nodup
import ScopedConf.Context.Completion
import ScopedConf.Server.Basic

/-! What completion leaves in a field. It is the value that was set in the record itself, or else in
the nearest record of the module around it, or else the default, wherever in a tree that record
is. -/

namespace ScopedConf

variable {ρ σ α : Type}

inductive Filling (α : Type)
  | withDefault (a : α)
  | inheritOnly

def Filling.default? : Filling α → Option α
  | .withDefault a => some a
  | .inheritOnly => none

def Setting.fill (s : Setting α) (parent : Option (Setting α)) : Filling α → Setting α
  | .withDefault a => s.merge parent a
  | .inheritOnly => s.inherit parent

/-- A record of the kind is merged as a record of its own type; around it, a record of another kind
counts for none. Merging changes the kind of no record. -/
def Kind.Merges [Record ρ] [Record σ] (k : Kind ρ σ) : Prop :=
  ∀ r parent, k.view? (Record.merge r parent) =
    (k.view? r).map fun s => Record.merge s (parent.bind k.view?)

def Field.FilledBy [Record ρ] (f : Field ρ α) (filling : Filling α) : Prop :=
  ∀ r parent, f.get? (Record.merge r parent) =
    (f.get? r).map fun own => own.fill (parent.bind f.get?) filling

/-- The value that the nearest of the records sets. The search ends at a record without the field,
which is one of another kind. -/
def nearestValue? (f : Field ρ α) : List ρ → Option α
  | [] => none
  | r :: rs =>
    match f.get? r with
    | none => none
    | some own => own.value? <|> nearestValue? f rs

/-- What completion leaves in the field in the first of the records, which lie one inside the
other. -/
def settled? (f : Field ρ α) (filling : Filling α) : List ρ → Option (Setting α)
  | [] => none
  | r :: rs =>
    (f.get? r).map fun own => ⟨own.value? <|> nearestValue? f rs <|> filling.default?⟩

namespace Context

/-- The context at a position, with those around it, the innermost in front. A position lists the
numbers of the children that lead to the context. -/
def locate? (outer : List (Context ρ)) :
    List Nat → Context ρ → Option (Context ρ × List (Context ρ))
  | [], c => some (c, outer)
  | i :: position, c => c.children[i]?.bind (locate? (c :: outer) position)

def at? (position : List Nat) (c : Context ρ) : Option (Context ρ) :=
  (c.locate? [] position).map Prod.fst

theorem locate?_map_fst (outer : List (Context ρ)) (position : List Nat) (c : Context ρ) :
    (c.locate? outer position).map Prod.fst = c.at? position := by
  induction position generalizing outer c with
  | nil => rfl
  | cons i position ih =>
    simp only [at?, locate?]
    cases c.children[i]? with
    | none => rfl
    | some d => simp only [Option.bind_some, ih]

theorem at?_cons (i : Nat) (position : List Nat) (c : Context ρ) :
    c.at? (i :: position) = c.children[i]?.bind (at? position) := by
  simp only [at?, locate?]
  cases c.children[i]? with
  | none => rfl
  | some d => exact locate?_map_fst _ _ d

def recordsOf (index : Nat) (cs : List (Context ρ)) : List ρ :=
  cs.filterMap (·.recordOf? index)

def OnePerModule (c : Context ρ) : Prop :=
  (c.records.map fun h => h.module.index).Nodup

theorem suffix_of_locate? {outer around : List (Context ρ)} {root c : Context ρ}
    {position : List Nat} (h : root.locate? outer position = some (c, around)) :
    outer <:+ around := by
  induction position generalizing root outer with
  | nil =>
    obtain ⟨rfl, rfl⟩ := Prod.mk.inj (Option.some.inj h)
    exact List.suffix_refl outer
  | cons i position ih =>
    obtain ⟨child, -, h⟩ := Option.bind_eq_some_iff.mp h
    exact (List.suffix_cons root outer).trans (ih h)

end Context

theorem Setting.fill_eq (s : Setting α) (parent : Option (Setting α)) (filling : Filling α) :
    s.fill parent filling =
      ⟨s.value? <|> parent.bind Setting.value? <|> filling.default?⟩ := by
  cases filling with
  | withDefault a =>
    simp only [fill, merge, of, valueOr, value?_inherit, Filling.default?]
    cases s.value? <;> cases parent.bind Setting.value? <;> rfl
  | inheritOnly =>
    simp only [fill, inherit, Filling.default?]
    cases s.value? <;> cases parent.bind Setting.value? <;> rfl

theorem settled?_or_default (f : Field ρ α) (filling : Filling α) (rs : List ρ) :
    ((settled? f filling rs).bind Setting.value? <|> filling.default?) =
      (nearestValue? f rs <|> filling.default?) := by
  cases rs with
  | nil => rfl
  | cons r rs =>
    simp only [settled?, nearestValue?]
    cases f.get? r with
    | none => rfl
    | some own =>
      simp only [Option.map_some, Option.bind_some]
      cases own.value? <;> cases nearestValue? f rs <;> cases filling.default? <;> rfl

namespace Scope

theorem nearest?_append (held scope : Scope ρ) (index : Nat) :
    nearest? (held ++ scope) index = (held.nearest? index).or (scope.nearest? index) := by
  unfold nearest?
  rw [List.find?_append]
  cases List.find? (fun h => h.module.index == index) held <;> rfl

theorem nearest?_reverse {held : Scope ρ} (h : (held.map fun h => h.module.index).Nodup)
    (index : Nat) : nearest? held.reverse index = nearest? held index := by
  induction held with
  | nil => rfl
  | cons first held ih =>
    obtain ⟨hfirst, hrest⟩ := List.nodup_cons.mp h
    rw [List.reverse_cons, nearest?_append, ih hrest]
    unfold nearest?
    rw [List.find?_cons, List.find?_cons, List.find?_nil]
    cases hindex : first.module.index == index with
    | true =>
      have hnone : held.find? (fun h => h.module.index == index) = none := by
        rw [List.find?_eq_none]
        intro other hother heq
        have hsame := (eq_of_beq heq).trans (eq_of_beq hindex).symm
        exact hfirst (List.mem_map.mpr ⟨other, hother, hsame⟩)
      rw [hnone]
      rfl
    | false => exact Option.or_none

end Scope

variable [Record ρ] {f : Field ρ α} {filling : Filling α}

theorem Field.filledBy_within [Record σ] {k : Kind ρ σ} {g : Field σ α} (hk : k.Merges)
    (hg : g.FilledBy filling) : (g.within k).FilledBy filling := by
  intro r parent
  simp only [within, hk r parent]
  cases k.view? r with
  | none => rfl
  | some s =>
    simp only [Option.map_some, Option.bind_some, hg s]
    cases parent <;> rfl

theorem get?_merge_of_settled? (hf : f.FilledBy filling) (r : ρ) {parent : Option ρ} {rs : List ρ}
    (hparent : parent.bind f.get? = settled? f filling rs) :
    f.get? (Record.merge r parent) = settled? f filling (r :: rs) := by
  rw [hf, hparent, settled?]
  congr 1
  funext own
  rw [Setting.fill_eq, settled?_or_default]

theorem Scope.nearest?_complete (scope held : Scope ρ) (index : Nat) :
    nearest? (held.map (Held.complete scope)) index =
      (held.nearest? index).map fun r => Record.merge r (scope.nearest? index) := by
  induction held with
  | nil => rfl
  | cons first held ih =>
    by_cases hindex : first.module.index = index
    · simp [nearest?, Held.complete, hindex]
    · simpa [nearest?, Held.complete, hindex] using ih

def Scope.Settles (f : Field ρ α) (filling : Filling α) (scope : Scope ρ)
    (around : List (Context ρ)) : Prop :=
  ∀ index, (scope.nearest? index).bind f.get? =
    settled? f filling (Context.recordsOf index around)

theorem Scope.Settles.enter {scope : Scope ρ} {around : List (Context ρ)} {c : Context ρ}
    (hf : f.FilledBy filling) (hc : c.OnePerModule) (h : Settles f filling scope around) :
    Settles f filling ((c.records.map (Held.complete scope)).reverse ++ scope)
      (c :: around) := by
  intro index
  have hkeys : ((c.records.map (Held.complete scope)).map fun h => h.module.index).Nodup := by
    rw [List.map_map]
    exact hc
  rw [nearest?_append, nearest?_reverse hkeys, nearest?_complete, Context.recordsOf,
    List.filterMap_cons]
  change ((Option.map _ (c.recordOf? index)).or _).bind _ = _
  cases c.recordOf? index with
  | none => exact h index
  | some r => exact get?_merge_of_settled? hf r (h index)

namespace Context

theorem getElem?_completeAll (scope : Scope ρ) (cs : List (Context ρ)) (i : Nat) :
    (completeAll scope cs)[i]? = cs[i]?.map (completeIn scope) := by
  induction cs generalizing i with
  | nil => rfl
  | cons c cs ih =>
    cases i with
    | zero => rfl
    | succ i => simpa [completeAll] using ih i

/-- Completion comes to every context with a scope that settles the contexts around it. -/
theorem locate?_completeIn {scope : Scope ρ} {outer around : List (Context ρ)}
    {root c : Context ρ} {position : List Nat} (hf : f.FilledBy filling)
    (hscope : scope.Settles f filling outer)
    (hc : root.locate? outer position = some (c, around))
    (hunique : ∀ d ∈ around, d.OnePerModule) :
    ∃ inner, Scope.Settles f filling inner around ∧ ∀ completed, ∃ after,
      (root.completeIn scope).locate? completed position = some (c.completeIn inner, after) := by
  induction position generalizing root outer scope with
  | nil =>
    obtain ⟨rfl, rfl⟩ := Prod.mk.inj (Option.some.inj hc)
    exact ⟨scope, hscope, fun completed => ⟨completed, rfl⟩⟩
  | cons i position ih =>
    obtain ⟨child, hchild, hc⟩ := Option.bind_eq_some_iff.mp hc
    have hroot := hunique root ((suffix_of_locate? hc).subset List.mem_cons_self)
    obtain ⟨inner, hinner, hafter⟩ := ih (hscope.enter hf hroot) hc
    refine ⟨inner, hinner, fun completed => ?_⟩
    obtain ⟨kind, label, location, records, children⟩ := root
    rw [Context.children] at hchild
    rw [completeIn, locate?, Context.children, getElem?_completeAll, hchild]
    exact hafter _

end Context

/-- Completion gives every field, in every context of a tree, the value that was set in its record,
or else in the nearest record of the module around it, or else the default, if there is one. Levels
without a record of the module are passed over; a record of another kind ends the search. -/
theorem complete_field [Record σ] (k : Kind ρ σ) (hk : k.Merges) (g : Field σ α)
    (filling : Filling α) (hg : g.FilledBy filling) (root c : Context ρ) (position : List Nat)
    (around : List (Context ρ)) (hc : root.locate? [] position = some (c, around))
    (hunique : ∀ d ∈ around, d.OnePerModule) (i : Nat) (h : Held ρ) (hh : c.records[i]? = some h)
    (own : Setting α) (hown : (g.within k).get? h.record = some own) :
    ∃ c' around' h', root.complete.locate? [] position = some (c', around') ∧
      c'.records[i]? = some h' ∧ h'.module = h.module ∧ h'.name = h.name ∧
      (g.within k).get? h'.record = some
        ⟨own.value? <|> nearestValue? (g.within k) (Context.recordsOf h.module.index around) <|>
          filling.default?⟩ := by
  have hf := Field.filledBy_within hk hg
  have hempty : Scope.Settles (g.within k) filling [] [] := fun _ => rfl
  obtain ⟨scope, hscope, hlocate⟩ := Context.locate?_completeIn hf hempty hc hunique
  obtain ⟨around', hlocate⟩ := hlocate []
  refine ⟨_, around', h.complete scope, hlocate, ?_, rfl, rfl, ?_⟩
  · obtain ⟨kind, label, location, records, children⟩ := c
    rw [Context.records] at hh
    rw [Context.completeIn, Context.records, List.getElem?_map, hh]
    rfl
  · have hsettled := get?_merge_of_settled? hf h.record (hscope h.module.index)
    rw [settled?, hown] at hsettled
    exact hsettled

namespace Server

theorem merges_httpKind : Settings.httpKind.Merges := by
  intro r parent
  cases r <;> rfl

theorem filledBy_rootField : Http.rootField.FilledBy (.withDefault "html") := by
  intro r parent
  cases parent <;> rfl

/-- Records of one module, one inside the other: the outermost sets a field, the next context has
none, and further in comes a record of another kind. -/
def mixedTree : Context Settings :=
  let context (r : Option Settings) (children : List (Context Settings)) : Context Settings :=
    .node Level.server ["server"] none
      (r.toList.map fun r => ⟨⟨3, 0, httpTag⟩, "http_core", r⟩) children
  context (some (.http { root := .of "/a" }))
    [context none [context (some (.http {}))
      [context (some (.global {})) [context (some (.http {})) []]]]]

/-- Behind the gap the value is inherited, and behind the record of another kind it is not. -/
theorem complete_field_mixed :
    (∃ c around h, mixedTree.complete.locate? [] [0, 0] = some (c, around) ∧
      c.records[0]? = some h ∧
      (Http.rootField.within Settings.httpKind).get? h.record = some (.of "/a")) ∧
    ∃ c around h, mixedTree.complete.locate? [] [0, 0, 0, 0] = some (c, around) ∧
      c.records[0]? = some h ∧
      (Http.rootField.within Settings.httpKind).get? h.record = some (.of "html") := by
  constructor
  · obtain ⟨c, around, h, hc, hh, -, -, hvalue⟩ :=
      complete_field _ merges_httpKind _ _ filledBy_rootField mixedTree _ [0, 0] _ rfl
        (by simp [mixedTree, Context.OnePerModule, Context.records]) 0 _ rfl .unset rfl
    exact ⟨c, around, h, hc, hh, hvalue⟩
  · obtain ⟨c, around, h, hc, hh, -, -, hvalue⟩ :=
      complete_field _ merges_httpKind _ _ filledBy_rootField mixedTree _ [0, 0, 0, 0] _ rfl
        (by simp [mixedTree, Context.OnePerModule, Context.records]) 0 _ rfl .unset rfl
    exact ⟨c, around, h, hc, hh, hvalue⟩

end Server

end ScopedConf
