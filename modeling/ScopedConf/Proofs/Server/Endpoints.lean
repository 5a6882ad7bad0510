import Mathlib.Data.List.TakeWhile
import ScopedConf.Proofs.Durations
import ScopedConf.Server.Listener

/-! Endpoints as they are written: an address, a colon and a port, or a port alone. The address may
hold colons of its own, so the last one counts. -/

namespace ScopedConf

namespace Text

/-- A number as it may be written: in digits, with a plus sign in front or without. -/
def Unsigned (cs : List Char) (n : Nat) : Prop :=
  ∃ digits, (cs = digits ∨ cs = '+' :: digits) ∧ Decimal digits n

theorem unsigned?_eq_some_iff {bound n : Nat} {cs : List Char} :
    unsigned? bound cs = some n ↔ Unsigned cs n ∧ n < bound := by
  have hsign {digits : List Char} (h : Decimal digits n) : digits.head? ≠ some '+' := by
    intro hhead
    have hdigit := h.digits '+' (List.mem_of_mem_head? hhead)
    exact absurd hdigit (by decide)
  unfold unsigned?
  rw [Option.filter_eq_some_iff, decimal?_eq_some_iff, decide_eq_true_eq]
  refine and_congr_left fun _ => ?_
  split
  · next rest =>
    constructor
    · exact fun h => ⟨rest, .inr rfl, h⟩
    · rintro ⟨digits, rfl | heq, h⟩
      · exact absurd rfl (hsign h)
      · rwa [(List.cons.inj heq).2]
  · next hplain =>
    constructor
    · exact fun h => ⟨cs, .inl rfl, h⟩
    · rintro ⟨digits, rfl | rfl, h⟩
      · exact h
      · exact absurd rfl (hplain digits)

theorem Unsigned.unique {cs : List Char} {m n : Nat} (hm : Unsigned cs m) (hn : Unsigned cs n) :
    m = n := by
  have hm' := unsigned?_eq_some_iff.mpr ⟨hm, Nat.lt_succ_of_le (Nat.le_max_left m n)⟩
  have hn' := unsigned?_eq_some_iff.mpr ⟨hn, Nat.lt_succ_of_le (Nat.le_max_right m n)⟩
  exact Option.some.inj (hm'.symm.trans hn')

end Text

namespace Server

/-- The address and port that a word says. The address stands in front of the last colon; without a
colon it is `*`, for every address. -/
inductive SaysEndpoint : List Char → String × Nat → Prop
  | everywhere {cs : List Char} {port : Nat} (whole : ':' ∉ cs) (number : Text.Unsigned cs port) :
    SaysEndpoint cs ("*", port)
  | located {address : String} {cs : List Char} {port : Nat} (last : ':' ∉ cs)
    (number : Text.Unsigned cs port) : SaysEndpoint (address.toList ++ ':' :: cs) (address, port)

theorem exists_last_colon (cs : List Char) :
    ':' ∉ cs ∨ ∃ before behind, cs = before ++ ':' :: behind ∧ ':' ∉ behind := by
  by_cases h : ':' ∈ cs
  · obtain ⟨behind, before, hreverse, hbehind⟩ :=
      List.eq_append_cons_of_mem (List.mem_reverse.mpr h)
    refine .inr ⟨before.reverse, behind.reverse, ?_, fun hmem => hbehind (List.mem_reverse.mp hmem)⟩
    rw [← List.reverse_reverse cs, hreverse]
    simp
  · exact .inl h

namespace Listener

theorem splitLastColon?_of_notMem {cs : List Char} (h : ':' ∉ cs) : splitLastColon? cs = none := by
  have hnone : cs.reverse.dropWhile (· ≠ ':') = [] := List.dropWhile_eq_nil_iff.mpr fun c hc =>
    decide_eq_true fun heq => h (heq ▸ List.mem_reverse.mp hc)
  rw [splitLastColon?, hnone]

theorem splitLastColon?_append (before : List Char) {behind : List Char} (h : ':' ∉ behind) :
    splitLastColon? (before ++ ':' :: behind) = some (before, behind) := by
  have hbehind : ∀ c ∈ behind.reverse, decide (c ≠ ':') = true := fun c hc =>
    decide_eq_true fun heq => h (heq ▸ List.mem_reverse.mp hc)
  have hreverse : (before ++ ':' :: behind).reverse = behind.reverse ++ ':' :: before.reverse := by
    simp
  rw [splitLastColon?, hreverse, List.dropWhile_append_of_pos hbehind,
    List.takeWhile_append_of_pos hbehind]
  simp

end Listener

namespace SaysEndpoint

variable {cs before behind : List Char} {endpoint other : String × Nat}

theorem iff_of_notMem (h : ':' ∉ cs) :
    SaysEndpoint cs endpoint ↔ endpoint.1 = "*" ∧ Text.Unsigned cs endpoint.2 := by
  constructor
  · intro hsays
    cases hsays with
    | everywhere _ number => exact ⟨rfl, number⟩
    | located => simp at h
  · obtain ⟨address, port⟩ := endpoint
    rintro ⟨rfl, number⟩
    exact .everywhere h number

theorem append_iff (h : ':' ∉ behind) :
    SaysEndpoint (before ++ ':' :: behind) endpoint ↔
      endpoint.1.toList = before ∧ Text.Unsigned behind endpoint.2 := by
  constructor
  · intro hsays
    generalize hcs : before ++ ':' :: behind = cs at hsays
    cases hsays with
    | everywhere whole => simp [← hcs] at whole
    | located last number =>
      have hsplit := Listener.splitLastColon?_append before h
      rw [hcs, Listener.splitLastColon?_append _ last, Option.some.injEq, Prod.mk.injEq] at hsplit
      obtain ⟨rfl, rfl⟩ := hsplit
      exact ⟨rfl, number⟩
  · rintro ⟨rfl, number⟩
    exact .located h number

theorem unique (h : SaysEndpoint cs endpoint) (hother : SaysEndpoint cs other) :
    endpoint = other := by
  rcases exists_last_colon cs with hcolon | ⟨before, behind, rfl, hcolon⟩
  · rw [iff_of_notMem hcolon] at h hother
    exact Prod.ext (h.1.trans hother.1.symm) (h.2.unique hother.2)
  · rw [append_iff hcolon] at h hother
    exact Prod.ext (String.toList_inj.mp (h.1.trans hother.1.symm)) (h.2.unique hother.2)

end SaysEndpoint

namespace Listener

theorem read_eq_ok_iff {word address : String} {cs : List Char} {endpoint : String × Nat} :
    readEndpoint.read word address cs = .ok endpoint ↔
      endpoint.1 = address ∧ Text.Unsigned cs endpoint.2 ∧ endpoint.2 < UInt16.size ∧
        endpoint.2 ≠ 0 := by
  have hport : readPort? cs = some endpoint.2 ↔
      Text.Unsigned cs endpoint.2 ∧ endpoint.2 < UInt16.size ∧ endpoint.2 ≠ 0 := by
    rw [readPort?, Option.filter_eq_some_iff, Text.unsigned?_eq_some_iff, decide_eq_true_eq,
      and_assoc]
  rw [← hport]
  obtain ⟨address', port⟩ := endpoint
  unfold readEndpoint.read
  split
  · next n hn =>
    rw [hn, Except.ok.injEq, Prod.mk.injEq, Option.some.injEq, eq_comm (a := address)]
  · next hnone => simp [hnone]

/-- What is read is what the word says, with an address and a port in range. -/
theorem readEndpoint_eq_ok_iff {word : String} {endpoint : String × Nat} :
    readEndpoint word = .ok endpoint ↔
      SaysEndpoint word.toList endpoint ∧ endpoint.1 ≠ "" ∧ endpoint.2 < UInt16.size ∧
        endpoint.2 ≠ 0 := by
  unfold readEndpoint
  rcases exists_last_colon word.toList with hcolon | ⟨before, behind, hword, hcolon⟩
  · rw [splitLastColon?_of_notMem hcolon, SaysEndpoint.iff_of_notMem hcolon]
    simp only [read_eq_ok_iff]
    constructor
    · rintro ⟨haddress, hnumber, hrange⟩
      exact ⟨⟨haddress, hnumber⟩, haddress ▸ by decide, hrange⟩
    · rintro ⟨⟨haddress, hnumber⟩, -, hrange⟩
      exact ⟨haddress, hnumber, hrange⟩
  · rw [hword, splitLastColon?_append before hcolon, SaysEndpoint.append_iff hcolon]
    cases before with
    | nil =>
      constructor
      · simp
      · rintro ⟨⟨haddress, -⟩, hne, -⟩
        exact absurd (String.toList_eq_nil_iff.mp haddress) hne
    | cons c before =>
      simp only [read_eq_ok_iff]
      constructor
      · rintro ⟨haddress, hnumber, hrange⟩
        exact ⟨⟨by simp [haddress], hnumber⟩, by simp [haddress], hrange⟩
      · rintro ⟨⟨haddress, hnumber⟩, -, hrange⟩
        exact ⟨by rw [← haddress, String.ofList_toList], hnumber, hrange⟩

end Listener

end Server

end ScopedConf
