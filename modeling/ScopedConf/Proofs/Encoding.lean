import Mathlib.Tactic.SplitIfs
import ScopedConf.Text.Utf8

/-! Strict decoding of UTF-8 is the inverse of encoding: it succeeds on the encodings of texts, and
on no other bytes. -/

namespace ScopedConf.Utf8

def Continues (b : UInt8) : Prop :=
  0x80 ≤ b.toNat ∧ b.toNat ≤ 0xBF

/-- The well-formed byte sequences with the code points they spell: no overlong forms, no
surrogates, nothing beyond U+10FFFF. -/
inductive Spells : List UInt8 → Nat → Prop
  | one {b : UInt8} {n : Nat} (hb : b.toNat = n) (hn : n < 0x80) : Spells [b] n
  | two {b c : UInt8} {bits n : Nat} (hb : b.toNat = 0xC0 + bits) (hlow : 2 ≤ bits)
    (hhigh : bits < 32) (hc : Continues c) (hn : n = bits * 64 + c.toNat % 64) : Spells [b, c] n
  | three {b c d : UInt8} {bits n : Nat} (hb : b.toNat = 0xE0 + bits) (hbits : bits < 16)
    (hc : Continues c) (hd : Continues d) (hlow : bits = 0 → 0xA0 ≤ c.toNat)
    (hhigh : bits = 13 → c.toNat ≤ 0x9F)
    (hn : n = (bits * 64 + c.toNat % 64) * 64 + d.toNat % 64) : Spells [b, c, d] n
  | four {b c d e : UInt8} {bits n : Nat} (hb : b.toNat = 0xF0 + bits) (hbits : bits < 5)
    (hc : Continues c) (hd : Continues d) (he : Continues e) (hlow : bits = 0 → 0x90 ≤ c.toNat)
    (hhigh : bits = 4 → c.toNat ≤ 0x8F)
    (hn : n = ((bits * 64 + c.toNat % 64) * 64 + d.toNat % 64) * 64 + e.toNat % 64) :
    Spells [b, c, d, e] n

theorem toNat_ofNat_byte {n : Nat} (h : n < 256) : (UInt8.ofNat n).toNat = n :=
  UInt8.toNat_ofNat'.trans (Nat.mod_eq_of_lt h)

theorem cons_ofNat_eq {b : UInt8} {n : Nat} {bs bs' : List UInt8} (h : n = b.toNat)
    (hbs : bs' = bs) : UInt8.ofNat n :: bs' = b :: bs := by
  rw [hbs, h, UInt8.ofNat_toNat]

theorem val_toNat_ofNat {n : Nat} (h : n.isValidChar) : (Char.ofNat n).val.toNat = n := by
  rw [Char.ofNat, dif_pos h]
  rfl

namespace Spells

variable {w : List UInt8} {n : Nat}

theorem isValidChar (h : Spells w n) : n.isValidChar := by
  unfold Nat.isValidChar
  cases h with
  | one hb hn => omega
  | two hb hlow hhigh hc hn => omega
  | three hb hbits hc hd hlow hhigh hn =>
    unfold Continues at hc
    omega
  | four hb hbits hc hd he hlow hhigh hn =>
    unfold Continues at hc
    omega

theorem utf8EncodeChar_ofNat (h : Spells w n) : String.utf8EncodeChar (Char.ofNat n) = w := by
  unfold String.utf8EncodeChar
  rw [val_toNat_ofNat h.isValidChar]
  cases h with
  | one hb hn => exact (if_pos (by omega)).trans (cons_ofNat_eq (by omega) rfl)
  | two hb hlow hhigh hc hn =>
    unfold Continues at hc
    rw [if_neg (by omega), if_pos (by omega)]
    exact cons_ofNat_eq (by omega) (cons_ofNat_eq (by omega) rfl)
  | three hb hbits hc hd hlow hhigh hn =>
    unfold Continues at hc hd
    rw [if_neg (by omega), if_neg (by omega), if_pos (by omega)]
    exact cons_ofNat_eq (by omega) (cons_ofNat_eq (by omega) (cons_ofNat_eq (by omega) rfl))
  | four hb hbits hc hd he hlow hhigh hn =>
    unfold Continues at hc hd he
    rw [if_neg (by omega), if_neg (by omega), if_neg (by omega)]
    exact cons_ofNat_eq (by omega) (cons_ofNat_eq (by omega) (cons_ofNat_eq (by omega)
      (cons_ofNat_eq (by omega) rfl)))

end Spells

theorem toNat_continuation (m : Nat) :
    (UInt8.ofNat (m % 0x40 + 0x80)).toNat = m % 0x40 + 0x80 :=
  toNat_ofNat_byte (by omega)

theorem continues_continuation (m : Nat) : Continues (UInt8.ofNat (m % 0x40 + 0x80)) := by
  rw [Continues, toNat_continuation]
  omega

theorem spells_utf8EncodeChar (c : Char) : Spells (String.utf8EncodeChar c) c.val.toNat := by
  have hvalid : c.val.toNat.isValidChar := c.valid
  unfold Nat.isValidChar at hvalid
  fun_cases String.utf8EncodeChar c with
  | case1 n h₁ => exact .one (toNat_ofNat_byte (by omega)) (by omega)
  | case2 n h₁ h₂ =>
    have hb : (UInt8.ofNat (n / 64 % 0x20 + 0xC0)).toNat = 0xC0 + n / 64 :=
      (toNat_ofNat_byte (by omega)).trans (by omega)
    refine .two hb (by omega) (by omega) (continues_continuation _) ?_
    rw [toNat_continuation]
    omega
  | case3 n h₁ h₂ h₃ =>
    have hb : (UInt8.ofNat (n / 4096 % 0x10 + 0xE0)).toNat = 0xE0 + n / 4096 :=
      (toNat_ofNat_byte (by omega)).trans (by omega)
    refine .three hb (by omega) (continues_continuation _) (continues_continuation _) ?_ ?_ ?_ <;>
      rw [toNat_continuation]
    · omega
    · omega
    · rw [toNat_continuation]
      omega
  | case4 n h₁ h₂ h₃ =>
    have hb : (UInt8.ofNat (n / 262144 % 0x08 + 0xF0)).toNat = 0xF0 + n / 262144 :=
      (toNat_ofNat_byte (by omega)).trans (by omega)
    refine .four hb (by omega) (continues_continuation _) (continues_continuation _)
      (continues_continuation _) ?_ ?_ ?_ <;> rw [toNat_continuation]
    · omega
    · omega
    · rw [toNat_continuation, toNat_continuation]
      omega

theorem ofLead?_eq (b : UInt8) : Need.ofLead? b =
    if 0xC2 ≤ b.toNat ∧ b.toNat ≤ 0xDF then some (.more (b.toNat % 32) 0x80 0xBF 0)
    else if b.toNat = 0xE0 then some (.more 0 0xA0 0xBF 1)
    else if b.toNat = 0xED then some (.more 13 0x80 0x9F 1)
    else if 0xE1 ≤ b.toNat ∧ b.toNat ≤ 0xEF then some (.more (b.toNat % 16) 0x80 0xBF 1)
    else if b.toNat = 0xF0 then some (.more 0 0x90 0xBF 2)
    else if 0xF1 ≤ b.toNat ∧ b.toNat ≤ 0xF3 then some (.more (b.toNat % 8) 0x80 0xBF 2)
    else if b.toNat = 0xF4 then some (.more 4 0x80 0x8F 2)
    else none := by
  simp [Need.ofLead?, UInt8.le_iff_toNat_le, ← UInt8.toNat_inj]

/-- What each leading byte asks for, by the bits that it holds itself. -/
inductive Leads (b : UInt8) : Need → Prop
  | two {bits : Nat} (hb : b.toNat = 0xC0 + bits) (hlow : 2 ≤ bits) (hhigh : bits < 32) :
    Leads b (.more bits 0x80 0xBF 0)
  | three {bits : Nat} (hb : b.toNat = 0xE0 + bits) (hbits : bits < 16) :
    Leads b (.more bits (if bits = 0 then 0xA0 else 0x80) (if bits = 13 then 0x9F else 0xBF) 1)
  | four {bits : Nat} (hb : b.toNat = 0xF0 + bits) (hbits : bits < 5) :
    Leads b (.more bits (if bits = 0 then 0x90 else 0x80) (if bits = 4 then 0x8F else 0xBF) 2)

theorem leads_of_ofLead? {b : UInt8} {need : Need} (h : Need.ofLead? b = some need) :
    Leads b need := by
  rw [ofLead?_eq] at h
  split_ifs at h with h₁ h₂ h₃ h₄ h₅ h₆ h₇ <;> obtain rfl := Option.some.inj h
  · exact .two (by omega) (by omega) (by omega)
  · exact .three h₂ (by omega)
  · exact .three h₃ (by omega)
  · have hb : b.toNat = 0xE0 + b.toNat % 16 := by omega
    have hlow : b.toNat % 16 ≠ 0 := by omega
    have hhigh : b.toNat % 16 ≠ 13 := by omega
    simpa [hlow, hhigh] using Leads.three hb (by omega)
  · exact .four h₅ (by omega)
  · have hb : b.toNat = 0xF0 + b.toNat % 8 := by omega
    have hlow : b.toNat % 8 ≠ 0 := by omega
    have hhigh : b.toNat % 8 ≠ 4 := by omega
    simpa [hlow, hhigh] using Leads.four hb (by omega)
  · exact .four h₇ (by omega)

theorem Leads.ofLead?_eq_some {b : UInt8} {need : Need} (h : Leads b need) :
    Need.ofLead? b = some need := by
  rw [ofLead?_eq]
  cases h with
  | @two bits hb hlow hhigh =>
    have hbits : b.toNat % 32 = bits := by omega
    rw [if_pos (by omega), hbits]
  | @three bits hb hbits =>
    have hmod : b.toNat % 16 = bits := by omega
    by_cases hlow : bits = 0
    · simp [hb, hlow]
    · by_cases hhigh : bits = 13
      · simp [hb, hhigh]
      · rw [if_neg (by omega), if_neg (by omega), if_neg (by omega), if_pos (by omega), hmod,
          if_neg hlow, if_neg hhigh]
  | @four bits hb hbits =>
    have hmod : b.toNat % 8 = bits := by omega
    by_cases hlow : bits = 0
    · simp [hb, hlow]
    · by_cases hhigh : bits = 4
      · simp [hb, hhigh]
      · rw [if_neg (by omega), if_neg (by omega), if_neg (by omega), if_neg (by omega),
          if_neg (by omega), if_pos (by omega), hmod, if_neg hlow, if_neg hhigh]

theorem Leads.le_toNat {b : UInt8} {need : Need} (h : Leads b need) : 0x80 ≤ b.toNat := by
  cases h <;> omega

theorem Leads.eq_more {b : UInt8} {need : Need} (h : Leads b need) :
    ∃ bits low high left, need = .more bits low high left := by
  cases h <;> exact ⟨_, _, _, _, rfl⟩

theorem decodeFrom_ascii {b : UInt8} (hb : b.toNat < 0x80) (bs : List UInt8) :
    decodeFrom .start (b :: bs) = (decodeFrom .start bs).map (Char.ofNat b.toNat :: ·) := by
  simp [decodeFrom, feed, UInt8.lt_iff_toNat_lt, hb]

theorem decodeFrom_lead {b : UInt8} {need : Need} (h : Leads b need) (bs : List UInt8) :
    decodeFrom .start (b :: bs) = decodeFrom need bs := by
  simp [decodeFrom, feed, UInt8.lt_iff_toNat_lt, Nat.not_lt.mpr h.le_toNat, h.ofLead?_eq_some]

theorem leads_of_decodeFrom {b : UInt8} (hb : ¬b.toNat < 0x80) {bs : List UInt8}
    {cs : List Char} (h : decodeFrom .start (b :: bs) = some cs) : ∃ need, Leads b need := by
  cases hlead : Need.ofLead? b with
  | none => simp [decodeFrom, feed, UInt8.lt_iff_toNat_lt, hb, hlead] at h
  | some need => exact ⟨need, leads_of_ofLead? hlead⟩

section

variable {bits left : Nat} {low high b : UInt8}

theorem decodeFrom_more_zero (hlow : low.toNat ≤ b.toNat) (hhigh : b.toNat ≤ high.toNat)
    (bs : List UInt8) :
    decodeFrom (.more bits low high 0) (b :: bs) =
      (decodeFrom .start bs).map (Char.ofNat (bits * 64 + b.toNat % 64) :: ·) := by
  simp [decodeFrom, feed, UInt8.le_iff_toNat_le, hlow, hhigh]

theorem decodeFrom_more_succ (hlow : low.toNat ≤ b.toNat) (hhigh : b.toNat ≤ high.toNat)
    (bs : List UInt8) :
    decodeFrom (.more bits low high (left + 1)) (b :: bs) =
      decodeFrom (.more (bits * 64 + b.toNat % 64) 0x80 0xBF left) bs := by
  simp [decodeFrom, feed, UInt8.le_iff_toNat_le, hlow, hhigh]

theorem exists_of_decodeFrom_more {bs : List UInt8} {cs : List Char}
    (h : decodeFrom (.more bits low high left) bs = some cs) :
    ∃ b rest, bs = b :: rest ∧ low.toNat ≤ b.toNat ∧ b.toNat ≤ high.toNat := by
  cases bs with
  | nil => simp [decodeFrom] at h
  | cons b rest =>
    by_cases hrange : low.toNat ≤ b.toNat ∧ b.toNat ≤ high.toNat
    · exact ⟨b, rest, rfl, hrange⟩
    · simp [decodeFrom, feed, UInt8.le_iff_toNat_le, hrange] at h

end

theorem toNat_ite_le_iff {p : Prop} [Decidable p] {a b : UInt8} {n : Nat}
    (hab : b.toNat ≤ a.toNat) :
    (if p then a else b).toNat ≤ n ↔ b.toNat ≤ n ∧ (p → a.toNat ≤ n) := by
  split
  · next hp => exact ⟨fun h => ⟨Nat.le_trans hab h, fun _ => h⟩, fun h => h.2 hp⟩
  · next hp => exact ⟨fun h => ⟨h, fun hp' => absurd hp' hp⟩, fun h => h.1⟩

theorem le_toNat_ite_iff {p : Prop} [Decidable p] {a b : UInt8} {n : Nat}
    (hab : a.toNat ≤ b.toNat) :
    n ≤ (if p then a else b).toNat ↔ n ≤ b.toNat ∧ (p → n ≤ a.toNat) := by
  split
  · next hp => exact ⟨fun h => ⟨Nat.le_trans h hab, fun _ => h⟩, fun h => h.2 hp⟩
  · next hp => exact ⟨fun h => ⟨h, fun hp' => absurd hp' hp⟩, fun h => h.1⟩

theorem Spells.decodeFrom_append {w : List UInt8} {n : Nat} (h : Spells w n) (bs : List UInt8) :
    decodeFrom .start (w ++ bs) = (decodeFrom .start bs).map (Char.ofNat n :: ·) := by
  cases h with
  | one hb hn => exact hb ▸ decodeFrom_ascii (hb ▸ hn) bs
  | two hb hlow hhigh hc hn =>
    simp only [List.cons_append, List.nil_append]
    rw [decodeFrom_lead (.two hb hlow hhigh), decodeFrom_more_zero _ _ bs, ← hn]
    · exact hc.1
    · exact hc.2
  | @three b c d bits _ hb hbits hc hd hlow hhigh hn =>
    have hlow' : (if bits = 0 then 0xA0 else 0x80 : UInt8).toNat ≤ c.toNat :=
      (toNat_ite_le_iff (by decide)).mpr ⟨hc.1, hlow⟩
    have hhigh' : c.toNat ≤ (if bits = 13 then 0x9F else 0xBF : UInt8).toNat :=
      (le_toNat_ite_iff (by decide)).mpr ⟨hc.2, hhigh⟩
    simp only [List.cons_append, List.nil_append]
    rw [decodeFrom_lead (.three hb hbits), decodeFrom_more_succ hlow' hhigh',
      decodeFrom_more_zero _ _ bs, ← hn]
    · exact hd.1
    · exact hd.2
  | @four b c d e bits _ hb hbits hc hd he hlow hhigh hn =>
    have hlow' : (if bits = 0 then 0x90 else 0x80 : UInt8).toNat ≤ c.toNat :=
      (toNat_ite_le_iff (by decide)).mpr ⟨hc.1, hlow⟩
    have hhigh' : c.toNat ≤ (if bits = 4 then 0x8F else 0xBF : UInt8).toNat :=
      (le_toNat_ite_iff (by decide)).mpr ⟨hc.2, hhigh⟩
    simp only [List.cons_append, List.nil_append]
    rw [decodeFrom_lead (.four hb hbits), decodeFrom_more_succ hlow' hhigh',
      decodeFrom_more_succ _ _ (e :: bs), decodeFrom_more_zero _ _ bs, ← hn]
    · exact he.1
    · exact he.2
    · exact hd.1
    · exact hd.2

theorem exists_spells_of_decodeFrom {b : UInt8} {bs : List UInt8} {cs : List Char}
    (h : decodeFrom .start (b :: bs) = some cs) :
    ∃ w n rest, Spells w n ∧ b :: bs = w ++ rest := by
  by_cases hb : b.toNat < 0x80
  · exact ⟨[b], b.toNat, bs, .one rfl hb, rfl⟩
  · obtain ⟨need, hneed⟩ := leads_of_decodeFrom hb h
    rw [decodeFrom_lead hneed] at h
    obtain ⟨bits, low, high, left, rfl⟩ := hneed.eq_more
    obtain ⟨c, bs, rfl, hlow, hhigh⟩ := exists_of_decodeFrom_more h
    cases hneed with
    | two hb hlow' hhigh' => exact ⟨[b, c], _, bs, .two hb hlow' hhigh' ⟨hlow, hhigh⟩ rfl, rfl⟩
    | three hb hbits =>
      rw [decodeFrom_more_succ hlow hhigh] at h
      obtain ⟨d, bs, rfl, hd⟩ := exists_of_decodeFrom_more h
      obtain ⟨hlow, hfirst⟩ := (toNat_ite_le_iff (by decide)).mp hlow
      obtain ⟨hhigh, hlast⟩ := (le_toNat_ite_iff (by decide)).mp hhigh
      exact ⟨[b, c, d], _, bs, .three hb hbits ⟨hlow, hhigh⟩ hd hfirst hlast rfl, rfl⟩
    | four hb hbits =>
      rw [decodeFrom_more_succ hlow hhigh] at h
      obtain ⟨d, bs, rfl, hd⟩ := exists_of_decodeFrom_more h
      rw [decodeFrom_more_succ hd.1 hd.2] at h
      obtain ⟨e, bs, rfl, he⟩ := exists_of_decodeFrom_more h
      obtain ⟨hlow, hfirst⟩ := (toNat_ite_le_iff (by decide)).mp hlow
      obtain ⟨hhigh, hlast⟩ := (le_toNat_ite_iff (by decide)).mp hhigh
      exact ⟨[b, c, d, e], _, bs, .four hb hbits ⟨hlow, hhigh⟩ hd he hfirst hlast rfl, rfl⟩

theorem decodeFrom_encode (cs : List Char) : decodeFrom .start (encode cs) = some cs := by
  induction cs with
  | nil => rfl
  | cons c cs ih =>
    have hspells := (spells_utf8EncodeChar c).decodeFrom_append (encode cs)
    rw [ih] at hspells
    exact hspells.trans (by rw [Option.map_some, ← Char.toNat, Char.ofNat_toNat])

theorem encode_of_decodeFrom {bs : List UInt8} {cs : List Char}
    (h : decodeFrom .start bs = some cs) : encode cs = bs := by
  induction hlength : bs.length using Nat.strongRecOn generalizing bs cs with
  | ind length ih =>
    cases bs with
    | nil =>
      obtain rfl : [] = cs := Option.some.inj h
      rfl
    | cons b bs =>
      obtain ⟨w, n, rest, hspells, hbs⟩ := exists_spells_of_decodeFrom h
      rw [hbs, hspells.decodeFrom_append] at h
      obtain ⟨cs', hrest, rfl⟩ := Option.map_eq_some_iff.mp h
      have hw : 0 < w.length := by cases hspells <;> simp
      have hlt : rest.length < length := by
        rw [← hlength, hbs, List.length_append]
        omega
      rw [hbs, encode, List.flatMap_cons, hspells.utf8EncodeChar_ofNat]
      exact congrArg (w ++ ·) (ih rest.length hlt hrest rfl)

/-- Decoding accepts the encoding of a text, and gives that text back. -/
theorem decode?_eq_some_iff {bs : List UInt8} {text : String} :
    decode? bs = some text ↔ encode text.toList = bs := by
  constructor
  · intro h
    obtain ⟨cs, hcs, rfl⟩ := Option.map_eq_some_iff.mp h
    rw [String.toList_ofList]
    exact encode_of_decodeFrom hcs
  · rintro rfl
    rw [decode?, decodeFrom_encode, Option.map_some, String.ofList_toList]

end ScopedConf.Utf8
