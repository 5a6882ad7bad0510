import ScopedConf.Value.Check

/-! The bounds of numbers. A check accepts the numbers from its lower bound to its upper bound, as
mathematical integers. The upper bound is a signed number, and a size may be larger than all of
these; it then passes for the largest of them, which only an upper bound that is itself the largest
does not refuse. -/

namespace ScopedConf

def Value.number? : Value → Option Int
  | .int n => some n
  | .size n => some n
  | _ => none

/-- Integers are signed words, and sizes are unsigned words. -/
def Value.FitsWord : Value → Prop
  | .int n => Int64.minValue.toInt ≤ n ∧ n ≤ Int64.maxValue.toInt
  | .size n => n < UInt64.size
  | _ => True

instance : (v : Value) → Decidable v.FitsWord
  | .int _ => inferInstanceAs (Decidable (_ ∧ _))
  | .size n => inferInstanceAs (Decidable (n < UInt64.size))
  | .unit | .flag _ | .text _ | .duration _ | .mask _ | .choice _ | .list _ | .buffers _ =>
    .isTrue trivial

namespace Check

variable {low : Int64} {high : Option Int64} {v : Value}

/-- The integers between the bounds, which belong to them. -/
def Within (low : Int64) (high : Option Int64) (n : Int) : Prop :=
  low.toInt ≤ n ∧ ∀ h ∈ high, n ≤ h.toInt

theorem inBounds_eq_ok_iff {n : Int} :
    inBounds low.toInt (high.map Int64.toInt) n = .ok () ↔ Within low high n := by
  unfold inBounds Within
  cases high with
  | none =>
    simp only [Option.map_none, Option.not_mem_none, false_implies, implies_true, and_true]
    split
    · next hlow => exact iff_of_false (by simp) (Int.not_le.mpr hlow)
    · next hlow => exact iff_of_true rfl (Int.not_lt.mp hlow)
  | some h =>
    simp only [Option.map_some, Option.mem_some_iff, forall_eq']
    split
    · next hlow => exact iff_of_false (by simp) fun hwithin => Int.not_le.mpr hlow hwithin.1
    · next hlow =>
      rw [and_iff_right (Int.not_lt.mp hlow)]
      split
      · next hhigh => exact iff_of_false (by simp) (Int.not_le.mpr hhigh)
      · next hhigh => exact iff_of_true rfl (Int.not_lt.mp hhigh)

theorem inBounds_ok_or_outOfRange (low : Int) (high : Option Int) (n : Int) :
    inBounds low high n = .ok () ∨ ∃ reason, inBounds low high n = .error (.outOfRange reason) := by
  unfold inBounds
  repeat' split
  all_goals first | exact .inl rfl | exact .inr ⟨_, rfl⟩

/-- Compared as the largest signed number where it is beyond, a number passes as it should, unless
the upper bound is the largest too. -/
theorem within_min_iff {n : Int} :
    Within low high (min n Int64.maxValue.toInt) ↔
      Within low high n ∨ high = some Int64.maxValue ∧ Int64.maxValue.toInt < n := by
  by_cases hn : n ≤ Int64.maxValue.toInt
  · rw [Int.min_eq_left hn]
    exact (or_iff_left fun hbeyond => Int.not_le.mpr hbeyond.2 hn).symm
  · have hbeyond := Int.not_le.mp hn
    have hlow : low.toInt ≤ Int64.maxValue.toInt := low.toInt_le
    rw [Int.min_eq_right (Int.le_of_lt hbeyond), Within, Within, and_iff_right hlow,
      and_iff_right (Int.le_trans hlow (Int.le_of_lt hbeyond)), and_iff_left hbeyond]
    cases high with
    | none => simp
    | some h =>
      have hle : h.toInt ≤ Int64.maxValue.toInt := h.toInt_le
      have hless : ¬n ≤ h.toInt := Int.not_le.mpr (Int.lt_of_le_of_lt hle hbeyond)
      simp only [Option.mem_some_iff, forall_eq', Option.some.injEq, hless, false_or]
      constructor
      · exact fun hge => Int64.toInt_inj.mp (Int.le_antisymm hle hge)
      · rintro rfl
        exact Int.le_refl _

theorem numbers_size (low : Int) (high : Option Int) (n : Nat) :
    numbers low high (.size n) = inBounds low high (min (n : Int) Int64.maxValue.toInt) := by
  have hlargest : ((Text.signedBound - 1 : Nat) : Int) = Int64.maxValue.toInt := by decide
  rw [numbers, ← hlargest]
  congr 1
  omega

theorem numbers_eq_ok_iff (hv : v.FitsWord) :
    numbers low.toInt (high.map Int64.toInt) v = .ok () ↔
      ∃ n, v.number? = some n ∧
        (Within low high n ∨ high = some Int64.maxValue ∧ Int64.maxValue.toInt < n) := by
  cases v with
  | int n =>
    have hmin : min n Int64.maxValue.toInt = n := Int.min_eq_left hv.2
    simp only [numbers, Value.number?, Option.some.injEq, exists_eq_left']
    rw [inBounds_eq_ok_iff, ← within_min_iff, hmin]
  | size n =>
    simp only [Value.number?, Option.some.injEq, exists_eq_left']
    rw [numbers_size, inBounds_eq_ok_iff, within_min_iff]
  | _ => simp [numbers, Value.number?]

theorem numbers_ok_or_outOfRange (low : Int) (high : Option Int) (v : Value) :
    numbers low high v = .ok () ∨ ∃ reason, numbers low high v = .error (.outOfRange reason) := by
  cases v with
  | int n => exact inBounds_ok_or_outOfRange low high n
  | size n => exact inBounds_ok_or_outOfRange low high _
  | _ => exact .inr ⟨_, rfl⟩

/-- For bounds in the range of signed words, a check accepts exactly the numbers between them, and
with the largest signed number as the upper bound all sizes beyond it as well. Everything else is
refused as out of range, a value that is no number included. So it is for the other upper bounds, or
none, that the bounds mean what they say of every value. -/
theorem bounds_hold_below_largest (low : Int64) (high : Option Int64) :
    (∀ v : Value, v.FitsWord →
      (numbers low.toInt (high.map Int64.toInt) v = .ok () ↔
        ∃ n, v.number? = some n ∧
          (Within low high n ∨ high = some Int64.maxValue ∧ Int64.maxValue.toInt < n)) ∧
      (numbers low.toInt (high.map Int64.toInt) v = .ok () ∨
        ∃ reason, numbers low.toInt (high.map Int64.toInt) v = .error (.outOfRange reason))) ∧
    ((∀ v : Value, v.FitsWord → (numbers low.toInt (high.map Int64.toInt) v = .ok () ↔
        ∃ n, v.number? = some n ∧ Within low high n)) ↔
      high ≠ some Int64.maxValue) := by
  refine ⟨fun v hv => ⟨numbers_eq_ok_iff hv, numbers_ok_or_outOfRange _ _ v⟩, ?_, ?_⟩
  · rintro hbounds rfl
    have hfits : (Value.size Text.signedBound).FitsWord := by decide
    have hbeyond : Int64.maxValue.toInt < (Text.signedBound : Int) := by decide
    obtain ⟨n, hn, hwithin⟩ := (hbounds _ hfits).mp
      ((numbers_eq_ok_iff hfits).mpr ⟨_, rfl, .inr ⟨rfl, hbeyond⟩⟩)
    obtain rfl := Option.some.inj hn
    exact Int.not_le.mpr hbeyond (hwithin.2 _ rfl)
  · intro hhigh v hv
    rw [numbers_eq_ok_iff hv]
    simp only [hhigh, false_and, or_false]

/-- A size beyond the signed range is refused below the largest bound, and accepted at it. -/
theorem bounds_hold_below_largest_size :
    (Value.size Text.signedBound).FitsWord ∧
      numbers 0 (some (Int64.maxValue.toInt - 1)) (.size Text.signedBound) ≠ .ok () ∧
      numbers 0 (some Int64.maxValue.toInt) (.size Text.signedBound) = .ok () := by
  have hfits : (Value.size Text.signedBound).FitsWord := by decide
  obtain ⟨-, hlaw⟩ := bounds_hold_below_largest 0 (some (Int64.maxValue - 1))
  obtain ⟨hexact, -⟩ := bounds_hold_below_largest 0 (some Int64.maxValue)
  refine ⟨hfits, fun haccepted => ?_, ?_⟩
  · obtain ⟨n, hn, hwithin⟩ := (hlaw.mpr (by decide) _ hfits).mp haccepted
    obtain rfl := Option.some.inj hn
    exact absurd (hwithin.2 _ rfl) (by decide)
  · exact (hexact _ hfits).1.mpr ⟨_, rfl, .inr ⟨rfl, by decide⟩⟩

/-- The largest bound accepts a size that is larger. -/
theorem size_beyond_largest_accepted :
    (Value.size Text.signedBound).FitsWord ∧
      numbers 0 (some Int64.maxValue.toInt) (.size Text.signedBound) = .ok () ∧
      (Value.size Text.signedBound).number? = some (Text.signedBound : Int) ∧
      ¬Within 0 (some Int64.maxValue) Text.signedBound :=
  ⟨by decide, rfl, rfl, fun hwithin => absurd (hwithin.2 _ rfl) (by decide)⟩

end Check

end ScopedConf
