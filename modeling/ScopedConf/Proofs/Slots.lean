import ScopedConf.Directive.Slot
import ScopedConf.Proofs.Handling

/-! What a directive leaves in the record of its module when it is obeyed. -/

namespace ScopedConf

variable {ρ α : Type}

theorem Args.require_eq_ok {a : Args} {i : Nat} {word : String} :
    a.require i = .ok word ↔ a.words[i]? = some word := by
  unfold require
  split <;> simp_all

theorem Value.blame_eq_ok {read : String → Except Fault α} {word : String} {a : α} :
    blame read word = .ok a ↔ read word = .ok a :=
  mapError_eq_ok

namespace Slot

variable {args : Args} {r r' : ρ} {v : Value}

theorem store_eq_ok {f : Field ρ α} {a : α} {reported : Value} :
    store f r a reported = .ok (v, r') ↔
      ∃ old, f.get? r = some old ∧ v = reported ∧ r' = f.put r (.of a) := by
  unfold store
  split
  · next hnone => simp [hnone]
  · next old hold => simp [hold, eq_comm]

theorem single_eq_ok {read : String → Except Refusal α} {report : α → Value} {f : Field ρ α} :
    single read report f args r = .ok (v, r') ↔
      ∃ old word a, f.get? r = some old ∧ args.words[0]? = some word ∧ read word = .ok a ∧
        v = report a ∧ r' = f.put r (.of a) := by
  constructor
  · intro h
    obtain ⟨word, hword, h⟩ := bind_eq_ok.mp h
    obtain ⟨a, hread, h⟩ := bind_eq_ok.mp h
    obtain ⟨old, hold, hv, hr⟩ := store_eq_ok.mp h
    exact ⟨old, word, a, hold, Args.require_eq_ok.mp hword, hread, hv, hr⟩
  · rintro ⟨old, word, a, hold, hword, hread, hv, hr⟩
    refine bind_eq_ok.mpr ⟨word, Args.require_eq_ok.mpr hword, bind_eq_ok.mpr ⟨a, hread, ?_⟩⟩
    exact store_eq_ok.mpr ⟨old, hold, hv, hr⟩

theorem list_eq_ok {f : Field ρ (List String)} :
    list f args r = .ok (v, r') ↔
      ∃ old, f.get? r = some old ∧ v = .list (old.valueOr [] ++ args.words) ∧
        r' = f.put r (.of (old.valueOr [] ++ args.words)) := by
  unfold list
  split
  · next hnone => simp [hnone]
  · next old hold => simp [hold, eq_comm]

def bitsOf (names : Names) (word : String) : UInt32 :=
  (names.lookup word).getD 0

theorem lookUp_eq_ok {names : Names} {word : String} {n : UInt32} :
    lookUp names word = .ok n ↔ names.lookup word = some n := by
  unfold lookUp
  cases names.lookup word <;> simp

theorem mem_of_lookup {names : Names} {word : String} {n : UInt32}
    (h : names.lookup word = some n) : n ∈ names.map Prod.snd := by
  obtain ⟨before, behind, hnames, -⟩ := List.lookup_eq_some_iff.mp h
  simp [hnames]

theorem mapM_lookUp_eq_ok {names : Names} {words : List String} {bits : List UInt32} :
    words.mapM (lookUp names) = .ok bits ↔
      (∀ word ∈ words, (names.lookup word).isSome = true) ∧ words.map (bitsOf names) = bits := by
  have hword (word : String) (n : UInt32) : lookUp names word = .ok n ↔
      (names.lookup word).isSome = true ∧ bitsOf names word = n := by
    rw [lookUp_eq_ok, bitsOf]
    cases names.lookup word <;> simp
  simp only [mapM_eq_ok, hword, List.forall₂_and_left]
  rw [← List.forall₂_map_left_iff (f := bitsOf names), List.forall₂_eq_eq_eq]

theorem maskOf_eq_ok {names : Names} {words : List String} {bits : UInt32} :
    maskOf names words = .ok bits ↔
      (∀ word ∈ words, (names.lookup word).isSome = true) ∧
        bits = (words.map (bitsOf names)).foldl (· ||| ·) 0 := by
  constructor
  · intro h
    obtain ⟨found, hfound, h⟩ := bind_eq_ok.mp h
    obtain ⟨hknown, rfl⟩ := mapM_lookUp_eq_ok.mp hfound
    exact ⟨hknown, (Except.ok.inj h).symm⟩
  · rintro ⟨hknown, rfl⟩
    exact bind_eq_ok.mpr ⟨_, mapM_lookUp_eq_ok.mpr ⟨hknown, rfl⟩, rfl⟩

theorem foldl_bitsOf (names : Names) (words : List String) (old : UInt32) :
    words.foldl (· ||| bitsOf names ·) old =
      old ||| (words.map (bitsOf names)).foldl (· ||| ·) 0 := by
  have hfold : (words.map (bitsOf names)).foldl (· ||| ·) (old ||| 0) =
      old ||| (words.map (bitsOf names)).foldl (· ||| ·) 0 := List.foldl_assoc
  rw [← hfold, UInt32.or_zero, List.foldl_map]

theorem mask_eq_ok {names : Names} {f : Field ρ UInt32} :
    mask names f args r = .ok (v, r') ↔
      ∃ old, f.get? r = some old ∧ (∀ word ∈ args.words, (names.lookup word).isSome = true) ∧
        v = .mask (args.words.foldl (· ||| bitsOf names ·) (old.valueOr 0)) ∧
        r' = f.put r (.of (args.words.foldl (· ||| bitsOf names ·) (old.valueOr 0))) := by
  simp only [foldl_bitsOf]
  constructor
  · intro h
    obtain ⟨bits, hbits, h⟩ := bind_eq_ok.mp h
    obtain ⟨hknown, rfl⟩ := maskOf_eq_ok.mp hbits
    split at h
    · simp at h
    · next old hold =>
      obtain ⟨hv, hr⟩ := Prod.mk.inj (Except.ok.inj h)
      exact ⟨old, hold, hknown, hv.symm, hr.symm⟩
  · rintro ⟨old, hold, hknown, rfl, rfl⟩
    refine bind_eq_ok.mpr ⟨_, maskOf_eq_ok.mpr ⟨hknown, rfl⟩, ?_⟩
    rw [hold]

theorem buffers_eq_ok {f : Field ρ Buffers} :
    buffers f args r = .ok (v, r') ↔
      ∃ old first second count size, f.get? r = some old ∧ args.words[0]? = some first ∧
        args.words[1]? = some second ∧ readCount first = .ok count ∧
        Value.readSize second = .ok size ∧ 0 < count ∧ 0 < size ∧
        v = .buffers ⟨count, size⟩ ∧ r' = f.put r (.of ⟨count, size⟩) := by
  constructor
  · intro h
    obtain ⟨first, hfirst, h⟩ := bind_eq_ok.mp h
    obtain ⟨count, hcount, h⟩ := bind_eq_ok.mp h
    obtain ⟨second, hsecond, h⟩ := bind_eq_ok.mp h
    obtain ⟨size, hsize, h⟩ := bind_eq_ok.mp h
    split at h
    · simp at h
    · next hpositive =>
      obtain ⟨hzero, hempty⟩ := not_or.mp hpositive
      obtain ⟨old, hold, hv, hr⟩ := store_eq_ok.mp h
      exact ⟨old, first, second, count, size, hold, Args.require_eq_ok.mp hfirst,
        Args.require_eq_ok.mp hsecond, hcount, Value.blame_eq_ok.mp hsize,
        Nat.pos_of_ne_zero hzero, Nat.pos_of_ne_zero hempty, hv, hr⟩
  · rintro ⟨old, first, second, count, size, hold, hfirst, hsecond, hcount, hsize, hzero, hempty,
      hv, hr⟩
    refine bind_eq_ok.mpr ⟨first, Args.require_eq_ok.mpr hfirst, bind_eq_ok.mpr ⟨count, hcount,
      bind_eq_ok.mpr ⟨second, Args.require_eq_ok.mpr hsecond,
        bind_eq_ok.mpr ⟨size, Value.blame_eq_ok.mpr hsize, ?_⟩⟩⟩⟩
    rw [if_neg (by omega)]
    exact store_eq_ok.mpr ⟨old, hold, hv, hr⟩

end Slot

/-- A directive with a setter changes the record of its module, and nothing else. What it stored
passed the check of the directive. -/
theorem Frame.eq_of_obey {f g : Frame ρ} {d : Directive ρ} {s : Statement} {set : Setter ρ}
    {id : ModuleId} {name : String} {r : ρ} (hd : d.handler = .slot set)
    (hf : f.records = [⟨id, name, r⟩]) (h : f.obey id.index d s = .ok g) :
    ∃ v r', set ⟨s.name, s.values, s.location, d.tag⟩ r = .ok (v, r') ∧
      (∀ check, d.check = some check → check v = .ok ()) ∧
      g = { f with records := [⟨id, name, r'⟩] } := by
  simp only [obey, hd, store] at h
  cases hset : set ⟨s.name, s.values, s.location, d.tag⟩ r with
  | error refusal => simp [change, hf, Held.change, hset, Except.map] at h
  | ok stored =>
    obtain ⟨v, r'⟩ := stored
    refine ⟨v, r', rfl, ?_⟩
    simp only [change, hf, Held.change, if_pos, hset, Except.map] at h
    split at h
    · next hnone => exact ⟨by simp [hnone], (Except.ok.inj h).symm⟩
    · next check hcheck =>
      split at h
      · simp at h
      · next hpassed =>
        refine ⟨fun other hother => ?_, (Except.ok.inj h).symm⟩
        obtain rfl := Option.some.inj (hcheck.symm.trans hother)
        exact hpassed

theorem Held.exists_of_change {β : Type} {index : Nat} {change : ρ → Except Refusal (β × ρ)}
    {held changed : List (Held ρ)} {b : β} (h : Held.change index change held = .ok (b, changed)) :
    ∃ r r', change r = .ok (b, r') := by
  induction held generalizing changed with
  | nil => simp [Held.change] at h
  | cons first held ih =>
    unfold Held.change at h
    split at h
    · obtain ⟨⟨c, r'⟩, hr, heq⟩ := map_eq_ok.mp h
      obtain ⟨rfl, -⟩ := Prod.mk.inj heq
      exact ⟨first.record, r', hr⟩
    · obtain ⟨⟨c, later⟩, hlater, heq⟩ := map_eq_ok.mp h
      obtain ⟨rfl, -⟩ := Prod.mk.inj heq
      exact ih hlater

theorem Frame.exists_of_lend {f g : Frame ρ} {handle : Strategy ρ} {owner : Nat} {s : Statement}
    (h : f.lend handle owner s = .ok g) : ∃ r r', handle s r = .ok r' := by
  unfold lend at h
  split at h
  · simp at h
  · next hchange =>
    obtain ⟨⟨u, records⟩, hheld, -⟩ := map_eq_ok.mp hchange
    obtain ⟨r, r', hr⟩ := Held.exists_of_change hheld
    obtain ⟨r'', hr'', -⟩ := map_eq_ok.mp hr
    exact ⟨r, r'', hr''⟩

theorem Frame.eq_of_lend {f g : Frame ρ} {handle : Strategy ρ} {s : Statement} {id : ModuleId}
    {name : String} {r : ρ} (hf : f.records = [⟨id, name, r⟩])
    (h : f.lend handle id.index s = .ok g) :
    ∃ r', handle s r = .ok r' ∧ g = { f with records := [⟨id, name, r'⟩] } := by
  simp only [lend, change, hf, Held.change, if_pos] at h
  cases hhandle : handle s r with
  | error refusal => simp [hhandle, Except.map] at h
  | ok r' =>
    simp only [hhandle, Except.map, Except.ok.injEq] at h
    exact ⟨r', rfl, h.symm⟩

end ScopedConf
