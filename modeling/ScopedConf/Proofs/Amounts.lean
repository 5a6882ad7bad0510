import ScopedConf.Proofs.Durations
import ScopedConf.Proofs.Encoding
import ScopedConf.Proofs.Slots

/-! Sizes as they are written, and how sizes and durations are read from the bytes of a word: cut at
byte offsets, with the units looked up by their place in a table, and a check in front of every
product and sum. No offset falls inside a character, and what is read is the same. -/

namespace ScopedConf

namespace Utf8

theorem encode_append (front rest : List Char) :
    encode (front ++ rest) = encode front ++ encode rest :=
  List.flatMap_append

theorem splitAt?_encode (front rest : List Char) :
    splitAt? (encode front).length (front ++ rest) = some (front, rest) := by
  induction front with
  | nil => rw [encode, List.flatMap_nil, List.length_nil, List.nil_append, splitAt?]
  | cons c front ih =>
    have hlength : (encode (c :: front)).length = c.utf8Size + (encode front).length := by
      rw [encode, List.flatMap_cons, List.length_append, String.length_utf8EncodeChar]
      rfl
    obtain ⟨n, hn⟩ : ∃ n, c.utf8Size = n + 1 := ⟨c.utf8Size - 1, by have := c.utf8Size_pos; omega⟩
    rw [hlength, hn, Nat.add_right_comm, List.cons_append, splitAt?, if_neg (by omega)]
    have hrest : n + (encode front).length + 1 - c.utf8Size = (encode front).length := by omega
    rw [hrest, ih]
    rfl

def offsetOf (p : Char → Bool) : List Char → Nat
  | [] => 0
  | c :: cs => if p c then 0 else c.utf8Size + offsetOf p cs

theorem offsetOf_not (p : Char → Bool) (cs : List Char) :
    offsetOf (fun c => !p c) cs = (encode (cs.takeWhile p)).length := by
  induction cs with
  | nil => rfl
  | cons c cs ih =>
    rw [offsetOf, List.takeWhile_cons]
    cases p c with
    | false => rfl
    | true =>
      simp only [Bool.not_true, Bool.false_eq_true, if_false, if_true, encode, List.flatMap_cons,
        List.length_append, String.length_utf8EncodeChar] at ih ⊢
      rw [ih]

theorem splitAt?_offsetOf (p : Char → Bool) (cs : List Char) :
    splitAt? (offsetOf (fun c => !p c) cs) cs = some (cs.takeWhile p, cs.dropWhile p) := by
  have hcut := splitAt?_encode (cs.takeWhile p) (cs.dropWhile p)
  rwa [List.takeWhile_append_dropWhile, ← offsetOf_not] at hcut

theorem getLast?_utf8EncodeChar (c : Char) :
    ∃ b, (String.utf8EncodeChar c).getLast? = some b ∧
      (c.toNat < 0x80 ∧ b.toNat = c.toNat ∨ 0x80 ≤ c.toNat ∧ 0x80 ≤ b.toNat) := by
  have hspells := spells_utf8EncodeChar c
  generalize String.utf8EncodeChar c = bytes at hspells
  rw [Char.toNat_val] at hspells
  cases hspells with
  | one hb hn => exact ⟨_, rfl, .inl ⟨hn, hb⟩⟩
  | two hb hlow hhigh hc hn => exact ⟨_, rfl, .inr ⟨by omega, hc.1⟩⟩
  | three hb hbits hc hd hlow hhigh hn =>
    unfold Continues at hc
    exact ⟨_, rfl, .inr ⟨by omega, hd.1⟩⟩
  | four hb hbits hc hd he hlow hhigh hn =>
    unfold Continues at hc
    exact ⟨_, rfl, .inr ⟨by omega, he.1⟩⟩

end Utf8

namespace Value

section sizes

/-- The letters that may end a size, with their factors. -/
def sizeEndings : List (List Char × Nat) :=
  [([], 1), (['k'], 1024), (['K'], 1024), (['m'], 1024 * 1024), (['M'], 1024 * 1024),
    (['g'], 1024 * 1024 * 1024), (['G'], 1024 * 1024 * 1024)]

/-- A text that says a size of `size` bytes. -/
def SaysSize (cs : List Char) (size : Nat) : Prop :=
  ∃ digits ending count scale, cs = digits ++ ending ∧ Text.Decimal digits count ∧
    (ending, scale) ∈ sizeEndings ∧ size = count * scale

theorem sizeScale?_eq_some_iff {c : Char} {scale : Nat} :
    sizeScale? c = some scale ↔ ([c], scale) ∈ sizeEndings := by
  unfold sizeScale? sizeEndings
  split
  · next h => rcases h with rfl | rfl <;> simp [eq_comm]
  · split
    · next h => rcases h with rfl | rfl <;> simp [eq_comm]
    · split
      · next h => rcases h with rfl | rfl <;> simp [eq_comm]
      · simp_all

theorem isAscii_of_sizeScale? {c : Char} {scale : Nat} (h : sizeScale? c = some scale) :
    c.toNat < 0x80 ∧ Text.isDigit c = false := by
  have hmem := sizeScale?_eq_some_iff.mp h
  simp only [sizeEndings, List.mem_cons, Prod.mk.injEq, List.cons.injEq, and_true, reduceCtorEq,
    false_and, List.not_mem_nil, or_false, false_or] at hmem
  rcases hmem with ⟨rfl, -⟩ | ⟨rfl, -⟩ | ⟨rfl, -⟩ | ⟨rfl, -⟩ | ⟨rfl, -⟩ | ⟨rfl, -⟩ <;> decide

theorem mem_sizeEndings {ending : List Char} {scale : Nat} :
    (ending, scale) ∈ sizeEndings ↔
      ending = [] ∧ scale = 1 ∨ ∃ c, ending = [c] ∧ sizeScale? c = some scale := by
  constructor
  · intro h
    have hshape : ending = [] ∧ scale = 1 ∨ ∃ c, ending = [c] := by
      simp only [sizeEndings, List.mem_cons, Prod.mk.injEq, List.not_mem_nil, or_false] at h
      rcases h with ⟨rfl, rfl⟩ | ⟨rfl, -⟩ | ⟨rfl, -⟩ | ⟨rfl, -⟩ | ⟨rfl, -⟩ | ⟨rfl, -⟩ | ⟨rfl, -⟩ <;>
        simp
    rcases hshape with hnone | ⟨c, rfl⟩
    · exact .inl hnone
    · exact .inr ⟨c, rfl, sizeScale?_eq_some_iff.mpr h⟩
  · rintro (⟨rfl, rfl⟩ | ⟨c, rfl, hscale⟩)
    · simp [sizeEndings]
    · exact sizeScale?_eq_some_iff.mp hscale

theorem sizeEndings_pos {ending : List Char} {scale : Nat} (h : (ending, scale) ∈ sizeEndings) :
    0 < scale := by
  have hall : ∀ entry ∈ sizeEndings, 0 < entry.2 := by decide
  exact hall _ h

theorem exists_of_splitSize (cs : List Char) :
    ∃ ending, cs = (splitSize cs).1 ++ ending ∧ (ending, (splitSize cs).2) ∈ sizeEndings := by
  unfold splitSize
  split
  · next scale h =>
    obtain ⟨c, hlast, hscale⟩ := Option.bind_eq_some_iff.mp h
    obtain ⟨front, rfl⟩ := List.getLast?_eq_some_iff.mp hlast
    exact ⟨[c], by simp, sizeScale?_eq_some_iff.mp hscale⟩
  · exact ⟨[], by simp, by simp [sizeEndings]⟩

theorem splitSize_append {digits ending : List Char} {count scale : Nat}
    (hdigits : Text.Decimal digits count) (hending : (ending, scale) ∈ sizeEndings) :
    splitSize (digits ++ ending) = (digits, scale) := by
  unfold splitSize
  rcases mem_sizeEndings.mp hending with ⟨rfl, rfl⟩ | ⟨c, rfl, hscale⟩
  · have hnone : digits.getLast?.bind sizeScale? = none := by
      rw [Option.bind_eq_none_iff]
      intro c hc
      have hdigit := hdigits.digits c (List.mem_of_getLast? hc)
      rw [Option.eq_none_iff_forall_ne_some]
      intro scale hscale
      simp [(isAscii_of_sizeScale? hscale).2] at hdigit
    rw [List.append_nil, hnone]
  · rw [List.getLast?_concat, Option.bind_some, hscale, List.dropLast_concat]

def scaled (digits : List Char) (scale : Nat) : Except Fault Nat := do
  let n ← readDigits digits
  if n * scale < Text.wordBound then .ok (n * scale) else .error .sizeTooLarge

theorem readSize_eq_scaled (word : String) :
    readSize word = scaled (splitSize word.toList).1 (splitSize word.toList).2 := rfl

theorem scaled_eq_ok_iff {digits : List Char} {scale size : Nat} (hscale : 0 < scale) :
    scaled digits scale = .ok size ↔
      ∃ count, Text.Decimal digits count ∧ size = count * scale ∧ size < Text.wordBound := by
  simp only [scaled, bind_eq_ok, readDigits_eq_ok_iff]
  constructor
  · rintro ⟨count, ⟨hdigits, -⟩, h⟩
    split at h
    · next hbound =>
      obtain rfl := Except.ok.inj h
      exact ⟨count, hdigits, rfl, hbound⟩
    · simp at h
  · rintro ⟨count, hdigits, rfl, hbound⟩
    have hcount : count ≤ count * scale := Nat.le_mul_of_pos_right count hscale
    exact ⟨count, ⟨hdigits, by omega⟩, if_pos hbound⟩

theorem readSize_eq_ok_iff {word : String} {size : Nat} :
    readSize word = .ok size ↔ SaysSize word.toList size ∧ size < Text.wordBound := by
  rw [readSize_eq_scaled]
  constructor
  · intro h
    obtain ⟨ending, hcs, hending⟩ := exists_of_splitSize word.toList
    obtain ⟨count, hdigits, hsize, hbound⟩ := (scaled_eq_ok_iff (sizeEndings_pos hending)).mp h
    exact ⟨⟨_, ending, count, _, hcs, hdigits, hending, hsize⟩, hbound⟩
  · rintro ⟨⟨digits, ending, count, scale, hcs, hdigits, hending, hsize⟩, hbound⟩
    rw [hcs, splitSize_append hdigits hending]
    exact (scaled_eq_ok_iff (sizeEndings_pos hending)).mpr ⟨count, hdigits, hsize, hbound⟩

/-- `readSize` from the bytes of the word: the last byte is looked at, and cut off if it is the
letter of a factor. There is no outcome if the cut falls inside a character. -/
def readSizeAt? (word : String) : Option (Except Fault Nat) :=
  let bytes := Utf8.encode word.toList
  match bytes.getLast?.bind fun b => sizeScale? (Char.ofNat b.toNat) with
  | none => some (scaled word.toList 1)
  | some scale =>
    (Utf8.splitAt? (bytes.length - 1) word.toList).map fun (digits, _) => scaled digits scale

theorem getLast?_encode_bind (cs : List Char) :
    ((Utf8.encode cs).getLast?.bind fun b => sizeScale? (Char.ofNat b.toNat)) =
      cs.getLast?.bind sizeScale? := by
  cases cs using List.reverseRecOn with
  | nil => rfl
  | append_singleton front c =>
    obtain ⟨b, hlast, hbyte⟩ := Utf8.getLast?_utf8EncodeChar c
    have hencode : Utf8.encode [c] = String.utf8EncodeChar c := List.flatMap_singleton ..
    rw [Utf8.encode_append, hencode, List.getLast?_append, hlast, List.getLast?_concat]
    change sizeScale? (Char.ofNat b.toNat) = sizeScale? c
    rcases hbyte with ⟨-, hb⟩ | ⟨hc, hb⟩
    · rw [hb, Char.ofNat_toNat]
    · have hother (d : Char) (hd : 0x80 ≤ d.toNat) : sizeScale? d = none := by
        rw [Option.eq_none_iff_forall_ne_some]
        intro scale hscale
        exact absurd (isAscii_of_sizeScale? hscale).1 (Nat.not_lt.mpr hd)
      have hbound := b.toNat_lt
      have hvalue : (Char.ofNat b.toNat).toNat = b.toNat :=
        Utf8.val_toNat_ofNat (.inl (by omega))
      rw [hother c hc, hother _ (by omega)]

theorem readSizeAt?_eq (word : String) : readSizeAt? word = some (readSize word) := by
  simp only [readSizeAt?, getLast?_encode_bind, readSize_eq_scaled, splitSize]
  split
  · next h => rw [h]
  · next scale h =>
    rw [h]
    obtain ⟨c, hlast, hscale⟩ := Option.bind_eq_some_iff.mp h
    obtain ⟨front, hfront⟩ := List.getLast?_eq_some_iff.mp hlast
    have hsize : c.utf8Size = 1 := by
      have hascii : c.val.toNat < 0x80 := (isAscii_of_sizeScale? hscale).1
      rw [Char.utf8Size_eq_one_iff, UInt32.le_iff_toNat_le]
      exact Nat.le_of_lt_succ hascii
    have hcut : (Utf8.encode word.toList).length - 1 = (Utf8.encode front).length := by
      rw [hfront, Utf8.encode_append, List.length_append, Utf8.encode, Utf8.encode,
        List.flatMap_singleton, String.length_utf8EncodeChar, hsize]
      rfl
    rw [hcut, hfront, Utf8.splitAt?_encode, List.dropLast_concat]
    rfl

end sizes

section times

def addTimeChecked (total n scale : Nat) : Except Fault Nat :=
  if n * scale < Text.wordBound then
    if total + n * scale < Text.wordBound then .ok (total + n * scale) else .error .timeTooLarge
  else .error .timeTooLarge

theorem addTimeChecked_eq (total n scale : Nat) :
    addTimeChecked total n scale = addTime total n scale := by
  unfold addTimeChecked addTime
  split
  · rfl
  · rw [if_neg (by omega)]

theorem drop_zipIdx {α : Type} (items : List α) (n k : Nat) :
    (items.zipIdx k).drop n = (items.drop n).zipIdx (k + n) := by
  induction n generalizing items k with
  | zero => rfl
  | succ n ih =>
    cases items with
    | nil => rfl
    | cons a items =>
      rw [List.zipIdx_cons, List.drop_succ_cons, List.drop_succ_cons, ih, Nat.add_right_comm,
        Nat.add_assoc]

def unitIndex? (next : Nat) (cs : List Char) : Option Nat :=
  ((TimeUnit.all.zipIdx.drop next).find? fun entry => entry.1.starts cs).map Prod.snd

theorem take?_eq_find? (cs : List Char) (units : List TimeUnit) (k : Nat) :
    TimeUnit.take? cs units =
      ((units.zipIdx k).find? fun entry => entry.1.starts cs).map fun entry =>
        (entry.1, units.drop (entry.2 + 1 - k)) := by
  induction units generalizing k with
  | nil => rfl
  | cons v units ih =>
    rw [TimeUnit.take?, List.zipIdx_cons]
    by_cases hv : v.starts cs = true
    · simp [hv]
    · have hskip : ((v, k) :: units.zipIdx (k + 1)).find? (fun entry => entry.1.starts cs) =
          (units.zipIdx (k + 1)).find? fun entry => entry.1.starts cs := by simp [hv]
      rw [if_neg hv, hskip, ih (k + 1)]
      refine Option.map_congr fun entry hentry => ?_
      have hk : k + 1 ≤ entry.2 := List.le_snd_of_mem_zipIdx (List.mem_of_find?_eq_some hentry)
      have hdrop : entry.2 + 1 - k = entry.2 + 1 - (k + 1) + 1 := by omega
      rw [hdrop, List.drop_succ_cons]

theorem take?_drop (cs : List Char) (next : Nat) :
    TimeUnit.take? cs (TimeUnit.all.drop next) =
      ((TimeUnit.all.zipIdx.drop next).find? fun entry => entry.1.starts cs).map fun entry =>
        (entry.1, (TimeUnit.all.drop next).drop (entry.2 + 1 - next)) := by
  rw [take?_eq_find? cs _ next, drop_zipIdx, Nat.zero_add]

theorem unitIndex?_eq_some {next i : Nat} {cs : List Char} (h : unitIndex? next cs = some i) :
    next ≤ i ∧ ∃ u, TimeUnit.all[i]? = some u ∧
      TimeUnit.take? cs (TimeUnit.all.drop next) = some (u, TimeUnit.all.drop (i + 1)) := by
  obtain ⟨⟨u, i'⟩, hfound, rfl⟩ := Option.map_eq_some_iff.mp h
  have hmem := List.mem_of_find?_eq_some hfound
  have hnext : next ≤ i' := by
    rw [drop_zipIdx, Nat.zero_add] at hmem
    exact List.le_snd_of_mem_zipIdx hmem
  have hplace := List.mk_mem_zipIdx_iff_getElem?.mp (List.mem_of_mem_drop hmem)
  refine ⟨hnext, u, hplace, ?_⟩
  have hdrop : next + (i' + 1 - next) = i' + 1 := by omega
  rw [take?_drop, hfound, Option.map_some, List.drop_drop, hdrop]

theorem unitIndex?_eq_none {next : Nat} {cs : List Char} (h : unitIndex? next cs = none) :
    TimeUnit.take? cs (TimeUnit.all.drop next) = none := by
  rw [take?_drop, Option.map_eq_none_iff.mp h, Option.map_none]

theorem lt_of_unitIndex? {next i : Nat} {cs : List Char} (h : unitIndex? next cs = some i) :
    TimeUnit.all.length - (i + 1) < TimeUnit.all.length - next := by
  obtain ⟨hnext, u, hu, -⟩ := unitIndex?_eq_some h
  have hi := (List.getElem?_eq_some_iff.mp hu).1
  omega

/-- `sumTime` with the text cut at byte offsets, and the unit that may follow given by its place in
the table. There is no outcome if an offset falls inside a character or a place outside the
table. -/
def sumTimeAt? (bare : TimeUnit) (next total : Nat) (cs : List Char) : Option (Except Fault Nat) :=
  if cs = [] then some (.ok total)
  else
    match Utf8.splitAt? (Utf8.offsetOf (fun c => !Text.isDigit c) cs) cs with
    | none => none
    | some (digits, rest) =>
      match readDigits digits with
      | .error fault => some (.error fault)
      | .ok n =>
        if rest = [] then some (addTimeChecked total n bare.millis)
        else
          match _ : unitIndex? next rest with
          | none => some (.error .badTimeUnit)
          | some i =>
            match TimeUnit.all[i]? with
            | none => none
            | some u =>
              match Utf8.splitAt? (Utf8.encode u.suffix).length rest with
              | none => none
              | some (_, behind) =>
                match addTimeChecked total n u.millis with
                | .error fault => some (.error fault)
                | .ok total => sumTimeAt? bare (i + 1) total (Text.trimStart behind)
termination_by TimeUnit.all.length - next
decreasing_by exact lt_of_unitIndex? (by assumption)

theorem splitAt?_suffix {units smaller : List TimeUnit} {u : TimeUnit} {cs : List Char}
    (h : TimeUnit.take? cs units = some (u, smaller)) :
    Utf8.splitAt? (Utf8.encode u.suffix).length cs =
      some (u.suffix, cs.drop u.suffix.length) := by
  have hsuffix := TimeUnit.eq_suffix_append_of_starts (TimeUnit.starts_of_take? h)
  have hcut := Utf8.splitAt?_encode u.suffix (cs.drop u.suffix.length)
  rwa [← hsuffix] at hcut

theorem eq_of_cut {cs digits rest : List Char}
    (h : Utf8.splitAt? (Utf8.offsetOf (fun c => !Text.isDigit c) cs) cs = some (digits, rest)) :
    cs.takeWhile Text.isDigit = digits ∧ cs.dropWhile Text.isDigit = rest := by
  rw [Utf8.splitAt?_offsetOf, Option.some.injEq, Prod.mk.injEq] at h
  exact h

theorem sumTimeAt?_eq (bare : TimeUnit) (next total : Nat) (cs : List Char) :
    sumTimeAt? bare next total cs = some (sumTime bare (TimeUnit.all.drop next) total cs) := by
  fun_induction sumTimeAt? bare next total cs with
  | case1 next total => rw [sumTime, if_pos rfl]
  | case2 next total cs hcs hcut =>
    rw [Utf8.splitAt?_offsetOf] at hcut
    simp at hcut
  | case3 next total cs hcs digits rest hcut fault hread =>
    obtain ⟨hdigits, -⟩ := eq_of_cut hcut
    rw [sumTime_eq hcs, hdigits, hread]
    rfl
  | case4 next total cs hcs digits n hread hcut =>
    obtain ⟨hdigits, hrest⟩ := eq_of_cut hcut
    rw [sumTime_eq hcs, hdigits, hread, hrest, addTimeChecked_eq]
    rfl
  | case5 next total cs hcs digits rest hcut n hread hgoes hindex =>
    obtain ⟨hdigits, hrest⟩ := eq_of_cut hcut
    rw [sumTime_eq hcs, hdigits, hread, hrest, unitIndex?_eq_none hindex]
    exact congrArg some (if_neg hgoes).symm
  | case6 next total cs hcs digits rest hcut n hread hgoes i hindex hplace =>
    obtain ⟨-, u, hu, -⟩ := unitIndex?_eq_some hindex
    simp [hu] at hplace
  | case7 next total cs hcs digits rest hcut n hread hgoes i hindex u hplace hsplit =>
    obtain ⟨-, v, hv, htake⟩ := unitIndex?_eq_some hindex
    obtain rfl := Option.some.inj (hplace.symm.trans hv)
    simp [splitAt?_suffix htake] at hsplit
  | case8 next total cs hcs digits rest hcut n hread hgoes i hindex u hplace front behind hsplit
      fault hadd =>
    obtain ⟨hdigits, hrest⟩ := eq_of_cut hcut
    obtain ⟨-, v, hv, htake⟩ := unitIndex?_eq_some hindex
    obtain rfl := Option.some.inj (hplace.symm.trans hv)
    rw [addTimeChecked_eq] at hadd
    rw [sumTime_eq hcs, hdigits, hread, hrest, htake]
    simp only [bind, Except.bind, if_neg hgoes, hadd]
  | case9 next total cs hcs digits rest hcut n hread hgoes i hindex u hplace front behind hsplit
      total' hadd ih =>
    obtain ⟨hdigits, hrest⟩ := eq_of_cut hcut
    obtain ⟨-, v, hv, htake⟩ := unitIndex?_eq_some hindex
    obtain rfl := Option.some.inj (hplace.symm.trans hv)
    rw [splitAt?_suffix htake, Option.some.injEq, Prod.mk.injEq] at hsplit
    rw [addTimeChecked_eq] at hadd
    rw [ih, sumTime_eq hcs, hdigits, hread, hrest, htake, ← hsplit.2]
    simp only [bind, Except.bind, if_neg hgoes, hadd]

def readTimeAt? (bare : TimeUnit) (word : String) : Option (Except Fault Nat) :=
  match Text.trim word.toList with
  | [] => some (.error .noTime)
  | cs => sumTimeAt? bare 0 0 cs

theorem readTimeAt?_eq (bare : TimeUnit) (word : String) :
    readTimeAt? bare word = some (readTime bare word) := by
  unfold readTimeAt? readTime
  cases Text.trim word.toList with
  | nil => rfl
  | cons c cs => exact sumTimeAt?_eq bare 0 0 (c :: cs)

end times

theorem blame_ok_or_invalid (read : String → Except Fault Nat) (word : String) :
    (∃ n, blame read word = .ok n) ∨
      ∃ fault : Fault, blame read word = .error (.invalid word fault.message) := by
  unfold blame
  cases read word with
  | ok n => exact .inl ⟨n, rfl⟩
  | error fault => exact .inr ⟨fault, rfl⟩

/-- Every word is read as a duration exactly if it is one by the grammar and its sum fits 64 bits,
and as a size likewise; all other words are refused as a whole. Read by byte offsets, with checked
sums and products, every word has the same outcome. -/
theorem amounts_read_exactly (bare : TimeUnit) (word : String) :
    (∀ d, (blame (readTime bare) word).map Duration.ofMillis = .ok d ↔
      ∃ millis, SaysTime bare (Text.trim word.toList) millis ∧ millis < UInt64.size ∧
        d = .ofMillis millis) ∧
    (∀ size, blame readSize word = .ok size ↔ SaysSize word.toList size ∧ size < UInt64.size) ∧
    ((∃ n, blame (readTime bare) word = .ok n) ∨
      ∃ fault : Fault, blame (readTime bare) word = .error (.invalid word fault.message)) ∧
    ((∃ n, blame readSize word = .ok n) ∨
      ∃ fault : Fault, blame readSize word = .error (.invalid word fault.message)) ∧
    readTimeAt? bare word = some (readTime bare word) ∧
    readSizeAt? word = some (readSize word) := by
  refine ⟨fun d => ?_, fun size => ?_, blame_ok_or_invalid _ word, blame_ok_or_invalid _ word,
    readTimeAt?_eq bare word, readSizeAt?_eq word⟩
  · simp only [map_eq_ok, blame_eq_ok, readTime_eq_ok_iff, and_assoc, eq_comm (a := d)]
    rfl
  · rw [blame_eq_ok, readSize_eq_ok_iff]
    rfl

end Value

end ScopedConf
