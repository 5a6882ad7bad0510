import ScopedConf.Proofs.Isolation

/-! Uses of directives. What a context remembers of them decides whether there may be another one,
and apart from it a directive does the same in every context of its kind with the same records. -/

namespace ScopedConf

variable {ρ : Type}

namespace Frame

/-- The frame after a use of `d`, which it remembers if there may be only one. -/
def remember (f : Frame ρ) (d : Directive ρ) : Frame ρ :=
  if d.shape.has .once then { f with used := d.name :: f.used } else f

def keep (f : Frame ρ) (records : List (Held ρ)) : Frame ρ :=
  { f with records := records }

/-- Whether `d` may be used here, for all that was used before. -/
def Free (f : Frame ρ) (d : Directive ρ) : Prop :=
  d.shape.has .once = true → d.name ∉ f.used

variable {f g f' : Frame ρ} {d : Directive ρ} {s : Statement}

theorem remember_eq (f : Frame ρ) (d : Directive ρ) :
    f.remember d = { f with used := (f.remember d).used } := by
  unfold remember
  split <;> rfl

theorem header_remember (f : Frame ρ) (d : Directive ρ) : (f.remember d).header = f.header := by
  rw [remember_eq]
  rfl

theorem used_remember (f : Frame ρ) (d : Directive ρ) :
    (f.remember d).used = if d.shape.has .once then d.name :: f.used else f.used := by
  unfold remember
  split <;> rfl

theorem free_comm (f : Frame ρ) (a b : Directive ρ) :
    f.Free a ∧ (f.remember a).Free b ↔ f.Free b ∧ (f.remember b).Free a := by
  simp only [Free, used_remember]
  cases a.shape.has .once <;> cases b.shape.has .once <;> simp [eq_comm]
  tauto

theorem admitUse_of_free_iff (hfree : f'.Free d ↔ f.Free d) (s : Statement) :
    f'.admitUse d s = (f.admitUse d s).map fun _ => f'.remember d := by
  simp only [admitUse, remember]
  simp only [Free] at hfree
  cases honce : d.shape.has .once with
  | false =>
    simp only [Bool.false_eq_true, if_false]
    repeat' split
    all_goals rfl
  | true =>
    have hused : d.name ∈ f'.used ↔ d.name ∈ f.used := by simpa [honce, not_iff_not] using hfree
    simp only [if_true, hused]
    repeat' split
    all_goals rfl

theorem admitUse_of_free (h : f.admitUse d s = .ok g) (hfree : f'.Free d) :
    f'.admitUse d s = .ok (f'.remember d) := by
  have hboth : f'.Free d ↔ f.Free d := iff_of_true hfree (notMem_used_of_admitUse h)
  rw [admitUse_of_free_iff hboth, h]
  rfl

theorem obey_of_records (hrecords : f'.records = f.records) (index : Nat) (d : Directive ρ)
    (s : Statement) :
    f'.obey index d s = (f.obey index d s).map fun g => f'.keep g.records := by
  unfold obey
  cases d.handler with
  | slot set =>
    simp only [store, change, hrecords]
    cases Held.change index (set ⟨s.name, s.values, s.location, d.tag⟩) f.records with
    | error refusal => rfl
    | ok changed =>
      obtain ⟨value, records⟩ := changed
      simp only [Except.map]
      cases d.check with
      | none => rfl
      | some check => cases hcheck : check value <;> simp [hcheck, keep]
  | _ => simp [Except.map, keep, ← hrecords]

end Frame

namespace Engine

variable {e : Engine ρ} {f g f' : Frame ρ} {s : Statement} {m : Registry.Entry ρ}
  {d : Directive ρ}

theorem eq_remember_of_accept (h : e.accept f s = .ok (m, d, f')) : f' = f.remember d :=
  Frame.eq_of_admitUse (accept_eq_ok.mp h).2

theorem accept_of_header (haccept : e.accept f s = .ok (m, d, g)) (hheader : f'.header = f.header)
    (hfree : f'.Free d) : e.accept f' s = .ok (m, d, f'.remember d) := by
  obtain ⟨hlookUp, huse⟩ := accept_eq_ok.mp haccept
  exact accept_eq_ok.mpr
    ⟨by rw [lookUp_of_header hheader, hlookUp], Frame.admitUse_of_free huse hfree⟩

theorem includesIn_of_header (hr : e.registry.Finalized) (hheader : f'.header = f.header)
    (h : e.includesIn f' s = true) : e.includesIn f s = true := by
  obtain ⟨m, d, g, haccept, hh⟩ := includesIn_iff.mp h
  obtain ⟨hm, hd⟩ := mem_of_accept haccept
  have hinclude := hr.eq_includeFiles hm hd hh
  have hfree : f.Free d := by
    intro honce
    rw [hinclude] at honce
    change (Shape.exactly 1).has .once = true at honce
    simp [show (Shape.exactly 1).has .once = false by decide] at honce
  exact includesIn_iff.mpr ⟨m, d, _, accept_of_header haccept hheader.symm hfree, hh⟩

structure Uses (e : Engine ρ) (f : Frame ρ) (s : Statement) (m : Registry.Entry ρ)
    (d : Directive ρ) (g : Frame ρ) : Prop where
  accept : e.accept f s = .ok (m, d, f.remember d)
  obey : (f.remember d).obey m.id.index d s = .ok g

namespace Uses

theorem header (h : e.Uses f s m d g) : g.header = f.header :=
  header_of_obey h.accept h.obey

theorem free (h : e.Uses f s m d g) : f.Free d :=
  Frame.notMem_used_of_admitUse (accept_eq_ok.mp h.accept).2

theorem eq (h : e.Uses f s m d g) : g = (f.remember d).keep g.records :=
  (Frame.updated_of_obey h.obey).rest

theorem used (h : e.Uses f s m d g) : g.used = (f.remember d).used := by
  rw [h.eq]
  rfl

theorem eq_remember (h : e.Uses f s m d g) (hslot : ∀ set, d.handler ≠ .slot set) :
    g = f.remember d := by
  rcases Frame.change_of_obey h.obey with ⟨heq, -⟩ | ⟨set, -, hset, -⟩
  · exact heq
  · exact absurd hset (hslot set)

theorem of_records (h : e.Uses f s m d g) (hheader : f'.header = f.header)
    (hrecords : f'.records = f.records) (hfree : f'.Free d) :
    e.Uses f' s m d ((f'.remember d).keep g.records) := by
  refine ⟨accept_of_header h.accept hheader hfree, ?_⟩
  have hsame : (f'.remember d).records = (f.remember d).records := by
    rw [Frame.remember_eq f', Frame.remember_eq f, hrecords]
  rw [Frame.obey_of_records hsame, h.obey]
  rfl

theorem of_noSlot (h : e.Uses f s m d g) (hslot : ∀ set, d.handler ≠ .slot set)
    (hheader : f'.header = f.header) (hfree : f'.Free d) :
    e.Uses f' s m d (f'.remember d) := by
  refine ⟨accept_of_header h.accept hheader hfree, ?_⟩
  unfold Frame.obey
  split
  · next set hset => exact absurd hset (hslot set)
  · rfl

end Uses

theorem snd_enter_eq_ok {depth : Nat} {entered : Frame ρ × Option (Frame ρ)} :
    (e.enter depth f s).2 = .ok entered ↔ ∃ m d g, e.Uses f s m d g ∧
      (d.block.isSome = true → depth < e.options.maxBlockDepth) ∧
      entered = (g, d.block.map fun spec => Frame.ofBlock e.registry m.id.index spec s) := by
  constructor
  · intro h
    obtain ⟨g, inner⟩ := entered
    have henter : e.enter depth f s = ((e.enter depth f s).1, .ok (g, inner)) := Prod.ext rfl h
    obtain ⟨m, d, f', haccept, hobey, rfl⟩ := enter_eq_ok henter
    obtain rfl := eq_remember_of_accept haccept
    refine ⟨m, d, g, ⟨haccept, hobey⟩, fun hsome => ?_, rfl⟩
    obtain ⟨spec, hspec⟩ := Option.isSome_iff_exists.mp hsome
    simp only [enter, haccept, hobey, openIn, hspec] at h
    split at h
    · simp at h
    · next hlimit => exact Nat.lt_of_not_le hlimit
  · rintro ⟨m, d, g, huses, hlimit, rfl⟩
    simp only [enter, huses.accept, huses.obey, openIn]
    cases hblock : d.block with
    | none => rfl
    | some spec =>
      have hopen := hlimit (by rw [hblock]; rfl)
      simp only [if_neg (Nat.not_le.mpr hopen)]
      rfl

end Engine

end ScopedConf
