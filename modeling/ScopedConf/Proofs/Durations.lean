import Mathlib.Data.List.Induction
import Mathlib.Data.Nat.Digits.Defs
import ScopedConf.Proofs.Registration
import ScopedConf.Value.Reading

/-! Durations as they are written: numbers with units, one behind the other, and perhaps a number
without a unit at the end. Reading one adds up exactly what is written, and refuses units out of
order. The unit that a bare number counts in takes no part in that order. -/

namespace ScopedConf

namespace Text

/-- Digits, one at least, and the number that they denote to the base ten. -/
structure Decimal (cs : List Char) (n : Nat) : Prop where
  nonempty : cs ≠ []
  digits : ∀ c ∈ cs, isDigit c = true
  value : n = Nat.ofDigits 10 (cs.reverse.map digitValue)

theorem decimalValue_eq (cs : List Char) :
    decimalValue cs = Nat.ofDigits 10 (cs.reverse.map digitValue) := by
  induction cs using List.reverseRecOn with
  | nil => rfl
  | append_singleton cs c ih =>
    rw [List.reverse_concat, List.map_cons, Nat.ofDigits_cons, ← ih]
    simp only [decimalValue, List.foldl_append, List.foldl_cons, List.foldl_nil]
    omega

theorem decimal?_eq_some_iff {cs : List Char} {n : Nat} :
    decimal? cs = some n ↔ Decimal cs n := by
  rw [decimal?, Option.ite_none_right_eq_some, decimalValue_eq, List.all_eq_true]
  exact ⟨fun ⟨⟨hnonempty, hdigits⟩, hvalue⟩ => ⟨hnonempty, hdigits, (Option.some.inj hvalue).symm⟩,
    fun h => ⟨⟨h.nonempty, h.digits⟩, congrArg some h.value.symm⟩⟩

theorem Decimal.unique {cs : List Char} {m n : Nat} (hm : Decimal cs m) (hn : Decimal cs n) :
    m = n :=
  hm.value.trans hn.value.symm

def Undigited (cs : List Char) : Prop :=
  ∀ c ∈ cs.head?, isDigit c = false

theorem Decimal.takeWhile_append {digits cs : List Char} {n : Nat} (h : Decimal digits n)
    (hcs : Undigited cs) : (digits ++ cs).takeWhile isDigit = digits := by
  rw [List.takeWhile_append_of_pos h.digits]
  cases cs with
  | nil => simp
  | cons c cs => simp [hcs c rfl]

theorem Decimal.dropWhile_append {digits cs : List Char} {n : Nat} (h : Decimal digits n)
    (hcs : Undigited cs) : (digits ++ cs).dropWhile isDigit = cs := by
  rw [List.dropWhile_append_of_pos h.digits]
  cases cs with
  | nil => simp
  | cons c cs => simp [hcs c rfl]

theorem isBlank_of_isDigit {c : Char} (h : isDigit c = true) : isBlank c = false := by
  have hbounds : '0'.toNat ≤ c.toNat ∧ c.toNat ≤ '9'.toNat := by
    simpa [isDigit, Char.le_def, UInt32.le_iff_toNat_le] using h
  have hlow : 48 ≤ c.toNat := hbounds.1
  have hhigh : c.toNat ≤ 57 := hbounds.2
  simp only [isBlank, Bool.or_eq_false_iff, Bool.and_eq_false_iff, decide_eq_false_iff_not,
    beq_eq_false_iff_ne]
  omega

end Text

namespace Value

theorem readDigits_eq_ok_iff {digits : List Char} {n : Nat} :
    readDigits digits = .ok n ↔ Text.Decimal digits n ∧ n < Text.wordBound := by
  rw [readDigits, ← Text.decimal?_eq_some_iff]
  cases Text.decimal? digits with
  | none => simp
  | some m =>
    simp only [Option.some.injEq]
    split
    · next hm =>
      rw [Except.ok.injEq]
      exact ⟨fun he => ⟨he, he ▸ hm⟩, And.left⟩
    · next hm =>
      simp only [reduceCtorEq, false_iff, not_and]
      rintro rfl
      exact hm

theorem addTime_eq_ok_iff {total n scale m : Nat} :
    addTime total n scale = .ok m ↔ total + n * scale = m ∧ m < Text.wordBound := by
  unfold addTime
  split
  · next h =>
    rw [Except.ok.injEq]
    exact ⟨fun he => ⟨he, he ▸ h⟩, And.left⟩
  · next h =>
    simp only [reduceCtorEq, false_iff, not_and]
    rintro rfl
    exact h

namespace TimeUnit

theorem millis_pos (u : TimeUnit) : 0 < u.millis := by
  cases u <;> decide

theorem undigited_suffix_append (u : TimeUnit) (cs : List Char) :
    Text.Undigited (u.suffix ++ cs) := by
  cases u <;> simp [Text.Undigited, suffix] <;> decide

theorem suffix_ne_nil (u : TimeUnit) : u.suffix ≠ [] := by
  cases u <;> simp [suffix]

theorem starts_append_iff {u v : TimeUnit} {cs : List Char} (hcs : cs.head? ≠ some 's') :
    v.starts (u.suffix ++ cs) = true ↔ v = u := by
  cases cs with
  | nil => cases u <;> cases v <;> decide
  | cons c cs =>
    have hc : c ≠ 's' := by simpa using hcs
    cases u <;> cases v <;> simp [starts, suffix, List.isPrefixOf, hc.symm]

theorem starts_of_take? {cs : List Char} {units smaller : List TimeUnit} {u : TimeUnit}
    (h : take? cs units = some (u, smaller)) : u.starts cs = true := by
  induction units with
  | nil => simp [take?] at h
  | cons v units ih =>
    rw [take?] at h
    split at h
    · next hv =>
      obtain ⟨rfl, -⟩ := Prod.mk.inj (Option.some.inj h)
      exact hv
    · exact ih h

theorem cons_sublist_iff_take? {cs : List Char} {u : TimeUnit}
    (hstarts : ∀ v : TimeUnit, v.starts cs = true ↔ v = u) (us units : List TimeUnit) :
    (u :: us).Sublist units ↔
      ∃ smaller, take? cs units = some (u, smaller) ∧ us.Sublist smaller := by
  induction units with
  | nil => simp [take?]
  | cons v units ih =>
    rw [take?]
    by_cases hv : v = u
    · rw [if_pos ((hstarts v).mpr hv), hv]
      simp [List.cons_sublist_cons]
    · rw [if_neg (fun h => hv ((hstarts v).mp h)), ← ih]
      constructor
      · intro h
        cases h with
        | cons _ h => exact h
        | cons_cons => exact absurd rfl hv
      · exact .cons v

theorem eq_suffix_append_of_starts {u : TimeUnit} {cs : List Char} (h : u.starts cs = true) :
    cs = u.suffix ++ cs.drop u.suffix.length := by
  rw [starts, Bool.and_eq_true, List.isPrefixOf_iff_prefix] at h
  obtain ⟨rest, rfl⟩ := h.1
  rw [List.drop_left]

end TimeUnit

theorem sumTime_eq {bare : TimeUnit} {units : List TimeUnit} {total : Nat} {cs : List Char}
    (hcs : cs ≠ []) :
    sumTime bare units total cs = (do
      let n ← readDigits (cs.takeWhile Text.isDigit)
      if cs.dropWhile Text.isDigit = [] then addTime total n bare.millis
      else
        match TimeUnit.take? (cs.dropWhile Text.isDigit) units with
        | none => .error .badTimeUnit
        | some (u, smaller) =>
          let total ← addTime total n u.millis
          sumTime bare smaller total
            (Text.trimStart ((cs.dropWhile Text.isDigit).drop u.suffix.length))) := by
  rw [sumTime, if_neg hcs]
  cases readDigits (cs.takeWhile Text.isDigit) with
  | error fault => rfl
  | ok n =>
    change ite _ _ _ = ite _ _ _
    split
    · rfl
    · split
      · next htake => rw [htake]
      · next u smaller htake =>
        rw [htake]
        dsimp only
        cases addTime total n u.millis <;> rfl

theorem sumTime_bare_eq_ok_iff {bare : TimeUnit} {units : List TimeUnit} {total n m : Nat}
    {digits : List Char} (hdigits : Text.Decimal digits n) :
    sumTime bare units total digits = .ok m ↔
      total + n * bare.millis = m ∧ m < Text.wordBound := by
  have hnil : Text.Undigited [] := by simp [Text.Undigited]
  have htake : digits.takeWhile Text.isDigit = digits := by
    simpa using hdigits.takeWhile_append hnil
  have hdrop : digits.dropWhile Text.isDigit = [] := by
    simpa using hdigits.dropWhile_append hnil
  rw [sumTime_eq hdigits.nonempty, htake, hdrop, bind_eq_ok]
  simp only [if_true, readDigits_eq_ok_iff, addTime_eq_ok_iff]
  constructor
  · rintro ⟨k, ⟨hk, -⟩, hsum⟩
    rwa [hdigits.unique hk]
  · rintro ⟨hsum, hbound⟩
    have hn : n ≤ n * bare.millis := Nat.le_mul_of_pos_right n bare.millis_pos
    exact ⟨n, ⟨hdigits, by omega⟩, hsum, hbound⟩

theorem sumTime_component_eq_ok_iff {bare u : TimeUnit} {units : List TimeUnit} {total n m : Nat}
    {digits behind : List Char} (hdigits : Text.Decimal digits n)
    (hstarts : ∀ v : TimeUnit, v.starts (u.suffix ++ behind) = true ↔ v = u) :
    sumTime bare units total (digits ++ (u.suffix ++ behind)) = .ok m ↔
      ∃ smaller, TimeUnit.take? (u.suffix ++ behind) units = some (u, smaller) ∧
        total + n * u.millis < Text.wordBound ∧
        sumTime bare smaller (total + n * u.millis) (Text.trimStart behind) = .ok m := by
  have hundigited := u.undigited_suffix_append behind
  rw [sumTime_eq (List.append_ne_nil_of_left_ne_nil hdigits.nonempty _),
    hdigits.takeWhile_append hundigited, hdigits.dropWhile_append hundigited, bind_eq_ok]
  have hne : u.suffix ++ behind ≠ [] := List.append_ne_nil_of_left_ne_nil u.suffix_ne_nil _
  simp only [if_neg hne, readDigits_eq_ok_iff]
  constructor
  · rintro ⟨k, ⟨hk, -⟩, hsum⟩
    obtain rfl := hdigits.unique hk
    split at hsum
    · simp at hsum
    · next v smaller htake =>
      obtain rfl := (hstarts v).mp (TimeUnit.starts_of_take? htake)
      obtain ⟨total', hadd, hsum⟩ := bind_eq_ok.mp hsum
      obtain ⟨rfl, hbound⟩ := addTime_eq_ok_iff.mp hadd
      rw [List.drop_left] at hsum
      exact ⟨smaller, htake, hbound, hsum⟩
  · rintro ⟨smaller, htake, hbound, hsum⟩
    have hn : n ≤ n * u.millis := Nat.le_mul_of_pos_right n u.millis_pos
    refine ⟨n, ⟨hdigits, by omega⟩, ?_⟩
    rw [htake]
    simp only [addTime, if_pos hbound, List.drop_left]
    exact hsum

/-- A duration as it is written, with the numbers and the units of its components, and the number
without a unit that ends it, if there is one. -/
inductive WrittenTime : List Char → List (Nat × TimeUnit) → Option Nat → Prop
  | nil : WrittenTime [] [] none
  | bare {digits : List Char} {n : Nat} (hdigits : Text.Decimal digits n) :
    WrittenTime digits [] (some n)
  | component {digits blanks rest : List Char} {n : Nat} {u : TimeUnit}
    {parts : List (Nat × TimeUnit)} {last : Option Nat} (hdigits : Text.Decimal digits n)
    (hblanks : ∀ c ∈ blanks, Text.isBlank c = true) (hrest : WrittenTime rest parts last) :
    WrittenTime (digits ++ (u.suffix ++ (blanks ++ rest))) ((n, u) :: parts) last

/-- All components with the units that they count in. -/
def counted (bare : TimeUnit) (parts : List (Nat × TimeUnit)) (last : Option Nat) :
    List (Nat × TimeUnit) :=
  parts ++ last.toList.map (·, bare)

def millisOf (components : List (Nat × TimeUnit)) : Nat :=
  (components.map fun (n, u) => n * u.millis).sum

/-- A text that says a time of `millis` milliseconds: its units stand in the order of the table,
each once at most, and units may be left out. -/
def SaysTime (bare : TimeUnit) (cs : List Char) (millis : Nat) : Prop :=
  cs ≠ [] ∧ ∃ parts last, WrittenTime cs parts last ∧
    (parts.map Prod.snd).Sublist TimeUnit.all ∧ millis = millisOf (counted bare parts last)

namespace WrittenTime

variable {bare : TimeUnit} {units : List TimeUnit} {total m : Nat} {cs rest blanks : List Char}
  {parts : List (Nat × TimeUnit)} {last : Option Nat}

theorem head?_isDigit (h : WrittenTime cs parts last) : ∀ c ∈ cs.head?, Text.isDigit c = true := by
  cases h with
  | nil => simp
  | bare hdigits => exact fun c hc => hdigits.digits c (List.mem_of_head? hc)
  | component hdigits hblanks hrest =>
    intro c hc
    obtain ⟨d, ds, rfl⟩ := List.exists_cons_of_ne_nil hdigits.nonempty
    obtain rfl := Option.some.inj hc
    exact hdigits.digits _ List.mem_cons_self

theorem trimStart_append (h : WrittenTime rest parts last)
    (hblanks : ∀ c ∈ blanks, Text.isBlank c = true) : Text.trimStart (blanks ++ rest) = rest := by
  rw [Text.trimStart, List.dropWhile_append_of_pos hblanks]
  cases hr : rest with
  | nil => rfl
  | cons c cs =>
    have hdigit : Text.isDigit c = true := h.head?_isDigit c (by rw [hr]; rfl)
    rw [List.dropWhile_cons_of_neg (by simp [Text.isBlank_of_isDigit hdigit])]

theorem head?_ne_s (h : WrittenTime rest parts last)
    (hblanks : ∀ c ∈ blanks, Text.isBlank c = true) : (blanks ++ rest).head? ≠ some 's' := by
  intro hs
  cases blanks with
  | nil => exact absurd (h.head?_isDigit 's' hs) (by decide)
  | cons c blanks =>
    obtain rfl := Option.some.inj hs
    exact absurd (hblanks 's' List.mem_cons_self) (by decide)

theorem units_counted (bare : TimeUnit) :
    (counted bare parts last).map Prod.snd =
      parts.map Prod.snd ++ last.toList.map fun _ => bare := by
  simp [counted, Function.comp_def]

/-- Reading adds up what is written, if the units are among `units` and in their order and the sum
fits a word; anything else is refused. -/
theorem sumTime_eq_ok_iff (h : WrittenTime cs parts last) (htotal : total < Text.wordBound) :
    sumTime bare units total cs = .ok m ↔ (parts.map Prod.snd).Sublist units ∧
      total + millisOf (counted bare parts last) = m ∧ m < Text.wordBound := by
  induction h generalizing units total with
  | nil =>
    rw [sumTime, if_pos rfl, Except.ok.injEq]
    simp only [List.map_nil, List.nil_sublist, true_and, counted, millisOf, Option.toList_none,
      List.append_nil, List.sum_nil, Nat.add_zero]
    exact ⟨fun he => ⟨he, he ▸ htotal⟩, And.left⟩
  | @bare digits n hdigits =>
    rw [sumTime_bare_eq_ok_iff hdigits]
    simp [counted, millisOf]
  | @component digits blanks rest n u parts last hdigits hblanks hrest ih =>
    have hstarts (v : TimeUnit) : v.starts (u.suffix ++ (blanks ++ rest)) = true ↔ v = u :=
      TimeUnit.starts_append_iff (hrest.head?_ne_s hblanks)
    have hmillis : millisOf (counted bare ((n, u) :: parts) last) =
        n * u.millis + millisOf (counted bare parts last) := by
      simp [counted, millisOf]
    rw [sumTime_component_eq_ok_iff hdigits hstarts, hrest.trimStart_append hblanks, hmillis,
      List.map_cons, TimeUnit.cons_sublist_iff_take? hstarts]
    constructor
    · rintro ⟨smaller, htake, hfits, hsum⟩
      obtain ⟨hsublist, rfl, hbound⟩ := (ih hfits).mp hsum
      exact ⟨⟨smaller, htake, hsublist⟩, (Nat.add_assoc ..).symm, hbound⟩
    · rintro ⟨⟨smaller, htake, hsublist⟩, rfl, hbound⟩
      have hfits : total + n * u.millis < Text.wordBound := by omega
      exact ⟨smaller, htake, hfits, (ih hfits).mpr ⟨hsublist, Nat.add_assoc .., hbound⟩⟩

end WrittenTime

theorem exists_writtenTime {bare : TimeUnit} {units : List TimeUnit} {total m : Nat}
    {cs : List Char} (h : sumTime bare units total cs = .ok m) :
    ∃ parts last, WrittenTime cs parts last := by
  fun_induction sumTime bare units total cs with
  | case1 => exact ⟨[], none, .nil⟩
  | case2 => simp at h
  | case3 units total cs hcs n hread hends =>
    obtain ⟨hdigits, -⟩ := readDigits_eq_ok_iff.mp hread
    have hall : cs.takeWhile Text.isDigit = cs := by
      simpa [hends] using List.takeWhile_append_dropWhile (p := Text.isDigit) (l := cs)
    exact ⟨[], some n, .bare (hall ▸ hdigits)⟩
  | case4 => simp at h
  | case5 => simp at h
  | case6 units total cs hcs n hread hgoes u smaller htake total' hadd ih =>
    obtain ⟨parts, last, hrest⟩ := ih h
    obtain ⟨hdigits, -⟩ := readDigits_eq_ok_iff.mp hread
    have hsuffix := TimeUnit.eq_suffix_append_of_starts (TimeUnit.starts_of_take? htake)
    have hblanks := List.all_eq_true.mp (List.all_takeWhile (p := Text.isBlank)
      (l := (cs.dropWhile Text.isDigit).drop u.suffix.length))
    refine ⟨(n, u) :: parts, last, ?_⟩
    have hwritten := WrittenTime.component hdigits hblanks hrest (u := u)
    rwa [Text.trimStart, List.takeWhile_append_dropWhile, ← hsuffix,
      List.takeWhile_append_dropWhile] at hwritten

theorem readTime_eq_sumTime {word : String} (h : Text.trim word.toList ≠ []) (bare : TimeUnit) :
    readTime bare word = sumTime bare TimeUnit.all 0 (Text.trim word.toList) := by
  unfold readTime
  split
  · next hempty => exact absurd hempty h
  · rfl

theorem trim_ne_nil_of_readTime {bare : TimeUnit} {word : String} {n : Nat}
    (h : readTime bare word = .ok n) : Text.trim word.toList ≠ [] := by
  intro hempty
  simp [readTime, hempty] at h

theorem readTime_eq_ok_iff {bare : TimeUnit} {word : String} {n : Nat} :
    readTime bare word = .ok n ↔ SaysTime bare (Text.trim word.toList) n ∧ n < Text.wordBound := by
  constructor
  · intro h
    have hnonempty := trim_ne_nil_of_readTime h
    rw [readTime_eq_sumTime hnonempty] at h
    obtain ⟨parts, last, hwritten⟩ := exists_writtenTime h
    obtain ⟨hunits, hsum, hbound⟩ := (hwritten.sumTime_eq_ok_iff (by decide)).mp h
    exact ⟨⟨hnonempty, parts, last, hwritten, hunits, by omega⟩, hbound⟩
  · rintro ⟨⟨hnonempty, parts, last, hwritten, hunits, rfl⟩, hbound⟩
    rw [readTime_eq_sumTime hnonempty]
    exact (hwritten.sumTime_eq_ok_iff (by decide)).mpr ⟨hunits, Nat.zero_add _, hbound⟩

namespace TimeUnit

def Larger (u v : TimeUnit) : Prop :=
  v.millis < u.millis

instance (u v : TimeUnit) : Decidable (u.Larger v) :=
  inferInstanceAs (Decidable (_ < _))

theorem pairwise_all : all.Pairwise Larger := by
  decide

end TimeUnit

theorem pairwise_counted_iff {bare : TimeUnit} {parts : List (Nat × TimeUnit)} {last : Option Nat}
    (hunits : (parts.map Prod.snd).Sublist TimeUnit.all) :
    ((counted bare parts last).map Prod.snd).Pairwise TimeUnit.Larger ↔
      last = none ∨ ∀ part ∈ parts, part.2.Larger bare := by
  have hdescending := TimeUnit.pairwise_all.sublist hunits
  rw [WrittenTime.units_counted, List.pairwise_append]
  cases last with
  | none => simpa using hdescending
  | some n =>
    simp only [hdescending, Option.toList_some, List.map_cons, List.map_nil,
      List.pairwise_singleton, List.mem_singleton, forall_eq, List.forall_mem_map, reduceCtorEq,
      true_and, false_or]

/-- However an accepted word is read as a duration, the units that are written in it descend, so
none occurs twice. A number without a unit at the end goes on in that order exactly if the unit that
it counts in is smaller than all of those. -/
theorem accepted_units_descend (bare : TimeUnit) (word : String) (n : Nat)
    (h : readTime bare word = .ok n) :
    (∃ parts last, WrittenTime (Text.trim word.toList) parts last) ∧
      ∀ parts last, WrittenTime (Text.trim word.toList) parts last →
        (parts.map Prod.snd).Pairwise TimeUnit.Larger ∧
        (((counted bare parts last).map Prod.snd).Pairwise TimeUnit.Larger ↔
          last = none ∨ ∀ part ∈ parts, part.2.Larger bare) := by
  rw [readTime_eq_sumTime (trim_ne_nil_of_readTime h)] at h
  refine ⟨exists_writtenTime h, fun parts last hwritten => ?_⟩
  obtain ⟨hunits, -⟩ := (hwritten.sumTime_eq_ok_iff (by decide)).mp h
  exact ⟨TimeUnit.pairwise_all.sublist hunits, pairwise_counted_iff hunits⟩

theorem accepted_units_descend_blanks :
    readTime .second " 1h 15 " = .ok 3615000 ∧
      WrittenTime (Text.trim " 1h 15 ".toList) [(1, .hour)] (some 15) ∧
      ((counted .second [(1, .hour)] (some 15)).map Prod.snd).Pairwise TimeUnit.Larger := by
  have hread : readTime .second " 1h 15 " = .ok 3615000 := by cbv
  have hwritten : WrittenTime (['1'] ++ (TimeUnit.hour.suffix ++ ([' '] ++ ['1', '5'])))
      [(1, .hour)] (some 15) :=
    .component (Text.decimal?_eq_some_iff.mp rfl) (List.forall_mem_singleton.mpr rfl)
      (.bare (Text.decimal?_eq_some_iff.mp rfl))
  have htrim : Text.trim " 1h 15 ".toList = ['1', 'h', ' ', '1', '5'] := by cbv
  obtain ⟨-, hdescends⟩ := accepted_units_descend .second _ _ hread
  rw [htrim] at hdescends ⊢
  exact ⟨hread, hwritten, (hdescends _ _ hwritten).2.mpr (.inr (by decide))⟩

/-- The seconds of `1s30` are written once with their unit and once without. -/
theorem bare_number_repeats_unit :
    readTime .second "1s30" = .ok 31000 ∧
      WrittenTime (Text.trim "1s30".toList) [(1, .second)] (some 30) ∧
      ¬ ((counted .second [(1, .second)] (some 30)).map Prod.snd).Pairwise TimeUnit.Larger := by
  have hread : readTime .second "1s30" = .ok 31000 := by cbv
  have hwritten : WrittenTime (['1'] ++ (TimeUnit.second.suffix ++ ([] ++ ['3', '0'])))
      [(1, .second)] (some 30) :=
    .component (Text.decimal?_eq_some_iff.mp rfl) (by simp)
      (.bare (Text.decimal?_eq_some_iff.mp rfl))
  have htrim : Text.trim "1s30".toList = ['1', 's', '3', '0'] := by cbv
  rw [htrim]
  exact ⟨hread, hwritten, by decide⟩

end Value

end ScopedConf
