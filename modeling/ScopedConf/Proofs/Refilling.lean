import ScopedConf.Proofs.Inheritance

/-! Completion only fills. What is set in a record stays as it is, nothing else in a tree changes,
and once everything is filled that can be filled, a second completion changes nothing more. -/

namespace ScopedConf

variable {ρ σ τ α β : Type}

namespace Filling

def map (f : α → β) : Filling α → Filling β
  | .withDefault a => .withDefault (f a)
  | .inheritOnly => .inheritOnly

theorem default?_map (f : α → β) (filling : Filling α) :
    (filling.map f).default? = filling.default?.map f := by
  cases filling <;> rfl

end Filling

namespace Setting

theorem fill_of_isSet {s : Setting α} (h : s.isSet = true) (parent : Option (Setting α))
    (filling : Filling α) : s.fill parent filling = s := by
  cases filling with
  | withDefault a => exact merge_of_isSet h parent a
  | inheritOnly => exact inherit_of_isSet h parent

theorem fill_fill (s : Setting β) (parent : Option (Setting β)) (filling : Filling α)
    (first later : α → β) :
    (s.fill parent (filling.map first)).fill parent (filling.map later) =
      s.fill parent (filling.map first) := by
  simp only [fill_eq, Filling.default?_map]
  cases s.value? <;> cases parent.bind value? <;> cases filling.default? <;> rfl

end Setting

/-- A field with the way in which merging fills it. A default may depend on the record and on the
one around it. -/
structure FilledField (ρ : Type) [Record ρ] where
  value : Type
  field : Field ρ value
  filling : Filling (ρ → Option ρ → value)
  get?_merge : ∀ r parent, field.get? (Record.merge r parent) =
    (field.get? r).map fun own =>
      own.fill (parent.bind field.get?) (filling.map fun default => default r parent)

def Field.filled [Record ρ] (f : Field ρ α) (filling : Filling α) (h : f.FilledBy filling) :
    FilledField ρ where
  value := α
  field := f
  filling := filling.map fun a _ _ => a
  get?_merge r parent := by
    rw [h]
    cases filling <;> rfl

/-- What the records of a type are made of: a record is known by its kind, which merging does not
change, and by its fields. -/
structure Makeup (ρ : Type) [Record ρ] where
  kinds : Type
  kindOf : ρ → kinds
  fields : List (FilledField ρ)
  kindOf_merge : ∀ r parent, kindOf (Record.merge r parent) = kindOf r
  ext : ∀ r other, kindOf r = kindOf other →
    (∀ f ∈ fields, f.field.get? r = f.field.get? other) → r = other

/-- The kind of a record, and the fields that are set in it, are the same in `filled`. -/
structure Makeup.Fills [Record ρ] (m : Makeup ρ) (r filled : ρ) : Prop where
  kind : m.kindOf filled = m.kindOf r
  set : ∀ f ∈ m.fields, ∀ own, f.field.get? r = some own → own.isSet = true →
    f.field.get? filled = some own

structure Makeup.FillsHeld [Record ρ] (m : Makeup ρ) (h filled : Held ρ) : Prop where
  module : filled.module = h.module
  name : filled.name = h.name
  record : m.Fills h.record filled.record

mutual

/-- The second tree is the first one with some fields filled that were not set: its contexts stand
where they stood, with the same words, and hold the same records in the same order. -/
inductive Makeup.FillsTree [Record ρ] (m : Makeup ρ) : Context ρ → Context ρ → Prop
  | node (kind : ContextSet) (label : List String) (location : Option Location)
    {records filled : List (Held ρ)} {children inside : List (Context ρ)}
    (held : List.Forall₂ m.FillsHeld records filled) (below : m.FillsTrees children inside) :
    FillsTree m (.node kind label location records children)
      (.node kind label location filled inside)

inductive Makeup.FillsTrees [Record ρ] (m : Makeup ρ) : List (Context ρ) → List (Context ρ) → Prop
  | nil : FillsTrees m [] []
  | cons {c filled : Context ρ} {cs inside : List (Context ρ)} (first : m.FillsTree c filled)
    (rest : m.FillsTrees cs inside) : FillsTrees m (c :: cs) (filled :: inside)

end

/-- A way to keep account of the records around a context. -/
structure Scoping (ρ τ : Type) where
  parent? : τ → Nat → Option ρ
  enter : τ → List (Held ρ) → τ

namespace Scoping

def nearest : Scoping ρ (Scope ρ) where
  parent? := Scope.nearest?
  enter scope held := held.reverse ++ scope

/-- A table with one place for each module. A module without a place in it has no parents. -/
def table : Scoping ρ (List (Option ρ)) where
  parent? places index := places[index]?.join
  enter places held :=
    held.foldl (fun places h => places.set h.module.index (some h.record)) places

end Scoping

namespace Context

section filling

variable [Record ρ] (scoping : Scoping ρ τ)

mutual

def fillIn (around : τ) : Context ρ → Context ρ
  | node kind label location records children =>
    let filled := records.map fun h =>
      { h with record := Record.merge h.record (scoping.parent? around h.module.index) }
    node kind label location filled (fillAll (scoping.enter around filled) children)

def fillAll (around : τ) : List (Context ρ) → List (Context ρ)
  | [] => []
  | c :: cs => fillIn around c :: fillAll around cs

end

/-- The completion of a tree that knows of so many modules. -/
def finalize (modules : Nat) (root : Context ρ) : Context ρ :=
  root.fillIn .table (List.replicate modules none)

mutual

theorem completeIn_eq (scope : Scope ρ) (c : Context ρ) :
    c.completeIn scope = c.fillIn .nearest scope := by
  cases c with
  | node kind label location records children =>
    rw [completeIn, fillIn, completeAll_eq]
    rfl

theorem completeAll_eq (scope : Scope ρ) (cs : List (Context ρ)) :
    completeAll scope cs = fillAll .nearest scope cs := by
  cases cs with
  | nil => rfl
  | cons c cs => rw [completeAll, fillAll, completeIn_eq, completeAll_eq]

end

end filling

end Context

namespace Makeup

variable [Record ρ]

theorem merge_merge (m : Makeup ρ) (r : ρ) (parent : Option ρ) :
    Record.merge (Record.merge r parent) parent = Record.merge r parent := by
  refine m.ext _ _ (m.kindOf_merge _ _) fun f _ => ?_
  rw [f.get?_merge (Record.merge r parent), f.get?_merge r]
  cases f.field.get? r with
  | none => rfl
  | some own => exact congrArg some (Setting.fill_fill own _ f.filling _ _)

theorem fills_merge (m : Makeup ρ) (r : ρ) (parent : Option ρ) :
    m.Fills r (Record.merge r parent) := by
  refine ⟨m.kindOf_merge r parent, fun f _ own hown hset => ?_⟩
  rw [f.get?_merge, hown, Option.map_some, Setting.fill_of_isSet hset]

mutual

theorem fillsTree_fillIn (m : Makeup ρ) (scoping : Scoping ρ τ) (around : τ) (c : Context ρ) :
    m.FillsTree c (c.fillIn scoping around) := by
  cases c with
  | node kind label location records children =>
    rw [Context.fillIn]
    refine .node kind label location ?_ (fillsTrees_fillAll m scoping _ children)
    rw [List.forall₂_map_right_iff, List.forall₂_same]
    exact fun h _ => ⟨rfl, rfl, m.fills_merge h.record _⟩

theorem fillsTrees_fillAll (m : Makeup ρ) (scoping : Scoping ρ τ) (around : τ)
    (cs : List (Context ρ)) : m.FillsTrees cs (Context.fillAll scoping around cs) := by
  cases cs with
  | nil => exact .nil
  | cons c cs =>
    exact .cons (fillsTree_fillIn m scoping around c) (fillsTrees_fillAll m scoping around cs)

end

end Makeup

namespace Scoping

def Agree (modules : Nat) (places : List (Option ρ)) (scope : Scope ρ) : Prop :=
  places.length = modules ∧
    ∀ index < modules, table.parent? places index = nearest.parent? scope index

theorem agree_nil (modules : Nat) :
    Agree modules (List.replicate modules (none : Option ρ)) [] := by
  refine ⟨List.length_replicate, fun index hindex => ?_⟩
  simp [table, nearest, Scope.nearest?, hindex]

theorem Agree.set {modules : Nat} {places : List (Option ρ)} {scope : Scope ρ}
    (hagree : Agree modules places scope) (h : Held ρ) :
    Agree modules (places.set h.module.index (some h.record)) (h :: scope) := by
  obtain ⟨hlength, hplaces⟩ := hagree
  refine ⟨by rw [List.length_set, hlength], fun index hindex => ?_⟩
  by_cases hsame : h.module.index = index
  · subst hsame
    simp [table, nearest, Scope.nearest?, hlength, hindex]
  · have hother := hplaces index hindex
    simpa [table, nearest, Scope.nearest?, List.getElem?_set, hsame] using hother

theorem Agree.enter {modules : Nat} {places : List (Option ρ)} {scope : Scope ρ}
    (hagree : Agree modules places scope) (held : List (Held ρ)) :
    Agree modules (table.enter places held) (nearest.enter scope held) := by
  induction held generalizing places scope with
  | nil => exact hagree
  | cons h held ih => simpa [table, nearest] using ih (hagree.set h)

end Scoping

namespace Context

mutual

def Fits (modules : Nat) : Context ρ → Prop
  | node _ _ _ records children =>
    (∀ h ∈ records, h.module.index < modules) ∧ FitAll modules children

def FitAll (modules : Nat) : List (Context ρ) → Prop
  | [] => True
  | c :: cs => Fits modules c ∧ FitAll modules cs

end

mutual

/-- The second time, every record meets the parent that it met the first time: it was filled before
either. -/
theorem fillIn_fillIn [Record ρ]
    (hmerge : ∀ (r : ρ) parent, Record.merge (Record.merge r parent) parent = Record.merge r parent)
    (scoping : Scoping ρ τ) (around : τ) (c : Context ρ) :
    (c.fillIn scoping around).fillIn scoping around = c.fillIn scoping around := by
  cases c with
  | node kind label location records children =>
    simp only [fillIn, List.map_map, Function.comp_def, hmerge]
    rw [fillAll_fillAll hmerge scoping]

theorem fillAll_fillAll [Record ρ]
    (hmerge : ∀ (r : ρ) parent, Record.merge (Record.merge r parent) parent = Record.merge r parent)
    (scoping : Scoping ρ τ) (around : τ) (cs : List (Context ρ)) :
    fillAll scoping around (fillAll scoping around cs) = fillAll scoping around cs := by
  cases cs with
  | nil => rfl
  | cons c cs =>
    rw [fillAll, fillAll, fillIn_fillIn hmerge scoping, fillAll_fillAll hmerge scoping]

end

mutual

theorem fillIn_of_agree [Record ρ] {modules : Nat} {places : List (Option ρ)} {scope : Scope ρ}
    (hagree : Scoping.Agree modules places scope) {c : Context ρ} (hc : c.Fits modules) :
    c.fillIn .table places = c.completeIn scope := by
  cases c with
  | node kind label location records children =>
    obtain ⟨hrecords, hchildren⟩ := hc
    have hfilled : records.map (fun h =>
        { h with record := Record.merge h.record (Scoping.table.parent? places h.module.index) }) =
        records.map (Held.complete scope) := by
      refine List.map_congr_left fun h hh => ?_
      rw [hagree.2 h.module.index (hrecords h hh)]
      rfl
    rw [fillIn, completeIn]
    simp only [hfilled]
    rw [fillAll_of_agree (hagree.enter _) hchildren]
    rfl

theorem fillAll_of_agree [Record ρ] {modules : Nat} {places : List (Option ρ)} {scope : Scope ρ}
    (hagree : Scoping.Agree modules places scope) {cs : List (Context ρ)}
    (hcs : FitAll modules cs) : fillAll .table places cs = completeAll scope cs := by
  cases cs with
  | nil => rfl
  | cons c cs =>
    obtain ⟨hc, hcs⟩ := hcs
    rw [fillAll, completeAll, fillIn_of_agree hagree hc, fillAll_of_agree hagree hcs]

end

end Context

theorem Field.filledBy_ofProjection [Record σ] {get : σ → Setting α} {set : σ → Setting α → σ}
    {get_set : ∀ r s, get (set r s) = s} {set_get : ∀ r, set r (get r) = r}
    {set_set : ∀ r s t, set (set r s) t = set r t} {default : α}
    (h : ∀ r parent, get (Record.merge r parent) = (get r).merge (parent.map get) default) :
    (Field.ofProjection get set get_set set_get set_set).FilledBy (.withDefault default) := by
  intro r parent
  refine congrArg some ((h r parent).trans ?_)
  cases parent <;> rfl

namespace Server

theorem merges_globalKind : Settings.globalKind.Merges := by
  intro r parent
  cases r <;> rfl

def globalField (f : Field Global α) (default : α) (h : f.FilledBy (.withDefault default)) :
    FilledField Settings :=
  (f.within Settings.globalKind).filled (.withDefault default)
    (Field.filledBy_within merges_globalKind h)

def httpField (f : Field Http α) (default : α) (h : f.FilledBy (.withDefault default)) :
    FilledField Settings :=
  (f.within Settings.httpKind).filled (.withDefault default)
    (Field.filledBy_within merges_httpKind h)

def makeup : Makeup Settings where
  kinds := Bool
  kindOf
    | .global _ => true
    | .http _ => false
  fields :=
    [globalField Global.workerProcessesField 1 (Field.filledBy_ofProjection fun _ _ => rfl),
      globalField Global.daemonField true (Field.filledBy_ofProjection fun _ _ => rfl),
      globalField Global.errorLogField "logs/error.log"
        (Field.filledBy_ofProjection fun _ _ => rfl),
      globalField Global.pidField "logs/nginx.pid" (Field.filledBy_ofProjection fun _ _ => rfl),
      globalField Global.envField [] (Field.filledBy_ofProjection fun _ _ => rfl),
      httpField Http.listenField [.usual] (Field.filledBy_ofProjection fun _ _ => rfl),
      httpField Http.serverNameField [] (Field.filledBy_ofProjection fun _ _ => rfl),
      httpField Http.rootField "html" filledBy_rootField,
      httpField Http.sendfileField false (Field.filledBy_ofProjection fun _ _ => rfl),
      httpField Http.keepaliveTimeoutField (.ofSeconds 75)
        (Field.filledBy_ofProjection fun _ _ => rfl),
      httpField Http.clientBodyTimeoutField (.ofSeconds 60)
        (Field.filledBy_ofProjection fun _ _ => rfl),
      httpField Http.clientMaxBodySizeField (1024 * 1024)
        (Field.filledBy_ofProjection fun _ _ => rfl),
      httpField Http.clientBodyBuffersField ⟨4, 8192⟩ (Field.filledBy_ofProjection fun _ _ => rfl),
      httpField Http.gzipTypesField ["text/html"] (Field.filledBy_ofProjection fun _ _ => rfl),
      httpField Http.sslProtocolsField (Http.tls1_2 ||| Http.tls1_3)
        (Field.filledBy_ofProjection fun _ _ => rfl),
      httpField Http.serverTokensField 1 (Field.filledBy_ofProjection fun _ _ => rfl),
      httpField Http.defaultTypeField "text/plain" (Field.filledBy_ofProjection fun _ _ => rfl),
      httpField Http.typesField Http.defaultTypes (Field.filledBy_ofProjection fun _ _ => rfl)]
  kindOf_merge r parent := by cases r <;> rfl
  ext r other hkind hfields := by
    simp only [List.forall_mem_cons, List.not_mem_nil, false_implies, implies_true,
      and_true] at hfields
    cases r with
    | global p =>
      cases other with
      | global q =>
        cases p
        cases q
        obtain ⟨⟨⟩, ⟨⟩, ⟨⟩, ⟨⟩, ⟨⟩, -⟩ := hfields
        rfl
      | http q => simp at hkind
    | http p =>
      cases other with
      | global q => simp at hkind
      | http q =>
        cases p
        cases q
        obtain ⟨-, -, -, -, -, ⟨⟩, ⟨⟩, ⟨⟩, ⟨⟩, ⟨⟩, ⟨⟩, ⟨⟩, ⟨⟩, ⟨⟩, ⟨⟩, ⟨⟩, ⟨⟩, ⟨⟩⟩ := hfields
        rfl

end Server

/-- Completion fills fields that are not set and changes nothing else, whatever tree it is given and
whatever it knows of the records around, and a second completion changes nothing at all. The same
goes for the completion that has a place for each of so many modules; it is completion itself where
that leaves no record without a place. -/
theorem completion_only_fills [Record ρ] (m : Makeup ρ) (c : Context ρ) :
    (∀ inherited, m.FillsTree c (c.fillIn .table inherited) ∧
      (c.fillIn .table inherited).fillIn .table inherited = c.fillIn .table inherited) ∧
    (∀ modules, m.FillsTree c (c.finalize modules) ∧
      (c.finalize modules).finalize modules = c.finalize modules) ∧
    m.FillsTree c c.complete ∧ c.complete.complete = c.complete ∧
    ∀ modules, c.Fits modules → c.finalize modules = c.complete := by
  refine ⟨fun inherited => ?_, fun modules => ?_, ?_, ?_, fun modules hfits => ?_⟩
  · exact ⟨m.fillsTree_fillIn .table inherited c,
      Context.fillIn_fillIn m.merge_merge .table inherited c⟩
  · exact ⟨m.fillsTree_fillIn .table _ c, Context.fillIn_fillIn m.merge_merge .table _ c⟩
  · rw [Context.complete, Context.completeIn_eq]
    exact m.fillsTree_fillIn .nearest [] c
  · simp only [Context.complete, Context.completeIn_eq]
    exact Context.fillIn_fillIn m.merge_merge .nearest [] c
  · exact Context.fillIn_of_agree (Scoping.agree_nil modules) hfits

namespace Server

/-- Also with too few places, when no record has a parent. -/
theorem completion_only_fills_mixed :
    makeup.fields.length = 18 ∧ makeup.FillsTree mixedTree mixedTree.complete ∧
      mixedTree.complete.complete = mixedTree.complete ∧
      mixedTree.finalize 4 = mixedTree.complete ∧
      (mixedTree.finalize 2).finalize 2 = mixedTree.finalize 2 := by
  obtain ⟨-, hfinalize, hfills, htwice, hsame⟩ := completion_only_fills makeup mixedTree
  have hfits : mixedTree.Fits 4 := by simp [mixedTree, Context.Fits, Context.FitAll]
  exact ⟨rfl, hfills, htwice, hsame 4 hfits, (hfinalize 2).2⟩

end Server

end ScopedConf
