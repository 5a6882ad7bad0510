import ScopedConf.Json
import ScopedConf.Record.Setting

/-! Records: what a module keeps for one context. A type of records may have several kinds; a field
belongs to one of them and is reached through a lawful accessor. -/

namespace ScopedConf

/-- How a record is completed from the record around it, and how it is shown. A record may have no
JSON; then it gives the reason. -/
class Record (ρ : Type) where
  merge : ρ → Option ρ → ρ
  toJson : ρ → Except String Json

/-- The value of a setting, or null while it is unset. -/
def Setting.toJson {α : Type} (s : Setting α) (f : α → Json) : Json :=
  (s.value?.map f).getD .null

/-- One kind of the records `ρ`. -/
structure Kind (ρ σ : Type) where
  wrap : σ → ρ
  view? : ρ → Option σ
  view?_wrap : ∀ s, view? (wrap s) = some s
  wrap_of_view? : ∀ r s, view? r = some s → wrap s = r

namespace Kind

variable {ρ σ : Type}

def self : Kind ρ ρ where
  wrap := id
  view? := some
  view?_wrap _ := rfl
  wrap_of_view? _ _ h := (Option.some.inj h).symm

/-- A record of the kind with a change made to it, or the record itself if it is of another kind. -/
def update (k : Kind ρ σ) (f : σ → σ) (r : ρ) : ρ :=
  match k.view? r with
  | some s => k.wrap (f s)
  | none => r

end Kind

/-- A field of one kind of the records `ρ`, and of no other kind. -/
structure Field (ρ α : Type) where
  get? : ρ → Option (Setting α)
  put : ρ → Setting α → ρ
  get?_put : ∀ r s, get? (put r s) = (get? r).map fun _ => s
  put_get? : ∀ r s, get? r = some s → put r s = r
  put_put : ∀ r s t, put (put r s) t = put r t
  put_of_none : ∀ r s, get? r = none → put r s = r

namespace Field

variable {ρ σ α : Type}

/-- A field of a structure, given by a projection and an update that suit each other. -/
def ofProjection (get : σ → Setting α) (set : σ → Setting α → σ)
    (get_set : ∀ r s, get (set r s) = s) (set_get : ∀ r, set r (get r) = r)
    (set_set : ∀ r s t, set (set r s) t = set r t) : Field σ α where
  get? r := some (get r)
  put := set
  get?_put r s := by rw [get_set, Option.map_some]
  put_get? r s h := by rw [← Option.some.inj h, set_get]
  put_put := set_set
  put_of_none r s h := by simp at h

/-- A field of one kind, seen from all the records. -/
def within (k : Kind ρ σ) (f : Field σ α) : Field ρ α where
  get? r := (k.view? r).bind f.get?
  put r s := k.update (f.put · s) r
  get?_put r s := by
    unfold Kind.update
    cases h : k.view? r with
    | none => simp [h]
    | some c => simp [k.view?_wrap, f.get?_put]
  put_get? r s h := by
    obtain ⟨c, hc, hs⟩ := Option.bind_eq_some_iff.mp h
    simp only [Kind.update, hc, f.put_get? c s hs, k.wrap_of_view? r c hc]
  put_put r s t := by
    unfold Kind.update
    cases h : k.view? r with
    | none => simp [h]
    | some c => simp [k.view?_wrap, f.put_put]
  put_of_none r s h := by
    unfold Kind.update
    cases hc : k.view? r with
    | none => rfl
    | some c => simp [f.put_of_none c s (by simpa [hc] using h), k.wrap_of_view? r c hc]

theorem get?_within_wrap (k : Kind ρ σ) (f : Field σ α) (c : σ) :
    (f.within k).get? (k.wrap c) = f.get? c := by
  simp [within, k.view?_wrap]

theorem put_within_wrap (k : Kind ρ σ) (f : Field σ α) (c : σ) (s : Setting α) :
    (f.within k).put (k.wrap c) s = k.wrap (f.put c s) := by
  simp [within, Kind.update, k.view?_wrap]

end Field

end ScopedConf
