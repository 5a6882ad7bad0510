import ScopedConf.Proofs.Calls

/-! The check that a token is UTF-8. It is made on what the token stands for, and comes to the same
as a check of the token as it is written: bytes are taken apart and escapes replaced at ASCII
characters only, and these are never part of another character. -/

namespace ScopedConf

open Scan Grammar

namespace Utf8

/-- Bytes that are the encoding of characters. -/
def Valid (bs : List UInt8) : Prop :=
  ∃ cs : List Char, encode cs = bs

def IsAscii (b : UInt8) : Prop := b.toNat < 0x80

instance (b : UInt8) : Decidable (IsAscii b) :=
  inferInstanceAs (Decidable (b.toNat < 0x80))

variable {b : UInt8} {bs cs xs ys : List UInt8}

theorem valid_iff_decode? : Valid bs ↔ ∃ text, decode? bs = some text := by
  constructor
  · rintro ⟨cs, rfl⟩
    refine ⟨String.ofList cs, decode?_eq_some_iff.mpr ?_⟩
    rw [String.toList_ofList]
  · rintro ⟨text, htext⟩
    exact ⟨text.toList, decode?_eq_some_iff.mp htext⟩

theorem valid_nil : Valid [] := ⟨[], rfl⟩

theorem Valid.append (h : Valid xs) (hys : Valid ys) : Valid (xs ++ ys) := by
  obtain ⟨cs, rfl⟩ := h
  obtain ⟨ds, rfl⟩ := hys
  exact ⟨cs ++ ds, List.flatMap_append⟩

theorem valid_singleton (hb : IsAscii b) : Valid [b] := by
  have hspells : Spells [b] b.toNat := .one rfl hb
  refine ⟨[Char.ofNat b.toNat], ?_⟩
  rw [encode, List.flatMap_cons, hspells.utf8EncodeChar_ofNat]
  rfl

theorem Spells.eq_singleton {w : List UInt8} {n : Nat} (h : Spells w n) (hmem : b ∈ w)
    (hb : IsAscii b) : w = [b] := by
  unfold IsAscii at hb
  cases h with
  | one => rw [List.mem_singleton.mp hmem]
  | two _ _ _ hc =>
    unfold Continues at hc
    simp only [List.mem_cons, List.not_mem_nil, or_false] at hmem
    rcases hmem with rfl | rfl <;> omega
  | three _ _ hc hd =>
    unfold Continues at hc hd
    simp only [List.mem_cons, List.not_mem_nil, or_false] at hmem
    rcases hmem with rfl | rfl | rfl <;> omega
  | four _ _ hc hd he =>
    unfold Continues at hc hd he
    simp only [List.mem_cons, List.not_mem_nil, or_false] at hmem
    rcases hmem with rfl | rfl | rfl | rfl <;> omega

theorem valid_parts {chars : List Char} (hb : IsAscii b) (h : encode chars = xs ++ b :: ys) :
    Valid xs ∧ Valid ys := by
  induction chars generalizing xs with
  | nil => simp [encode] at h
  | cons c chars ih =>
    have hspells := spells_utf8EncodeChar c
    have hsplit : String.utf8EncodeChar c ++ encode chars = xs ++ b :: ys := h
    rcases List.append_eq_append_iff.mp hsplit with ⟨later, rfl, hlater⟩ | ⟨later, hchar, hlater⟩
    · obtain ⟨hfirst, hrest⟩ := ih hlater
      have hhead : Valid (String.utf8EncodeChar c) := ⟨[c], List.append_nil _⟩
      exact ⟨hhead.append hfirst, hrest⟩
    · cases later with
      | nil =>
        rw [List.append_nil] at hchar
        have hbehind : encode chars = [] ++ b :: ys := hlater.symm
        obtain ⟨-, hrest⟩ := ih hbehind
        exact ⟨⟨[c], hchar ▸ List.append_nil _⟩, hrest⟩
      | cons b' later =>
        obtain ⟨rfl, rfl⟩ := List.cons.inj hlater
        have hmem : b ∈ String.utf8EncodeChar c := by rw [hchar]; simp
        have hwhole := hspells.eq_singleton hmem hb
        rw [hwhole] at hchar
        obtain ⟨rfl, rfl⟩ : xs = [] ∧ later = [] := by
          cases xs with
          | nil => exact ⟨rfl, (List.cons.inj hchar).2.symm⟩
          | cons x xs => simp at hchar
        exact ⟨valid_nil, ⟨chars, rfl⟩⟩

theorem valid_append_cons (hb : IsAscii b) : Valid (xs ++ b :: ys) ↔ Valid xs ∧ Valid ys := by
  constructor
  · rintro ⟨chars, h⟩
    exact valid_parts hb h
  · rintro ⟨hxs, hys⟩
    exact hxs.append ((valid_singleton hb).append hys)

theorem valid_cons (hb : IsAscii b) : Valid (b :: ys) ↔ Valid ys := by
  rw [← List.nil_append (b :: ys), valid_append_cons hb]
  exact and_iff_right valid_nil

theorem unescapeByte_cases (c : UInt8) :
    (∃ d, unescapeByte c = [d] ∧ IsAscii d ∧ IsAscii c) ∨ unescapeByte c = [backslash, c] := by
  unfold unescapeByte
  split_ifs with hself htab hreturn hfeed
  · refine .inl ⟨c, rfl, ?_⟩
    rcases hself with rfl | rfl | rfl <;> decide
  · exact .inl ⟨0x09, rfl, by decide, by rw [htab]; decide⟩
  · exact .inl ⟨0x0D, rfl, by decide, by rw [hreturn]; decide⟩
  · exact .inl ⟨0x0A, rfl, by decide, by rw [hfeed]; decide⟩
  · exact .inr rfl

theorem valid_append_unescape (xs : List UInt8) : Valid (xs ++ unescape bs) ↔ Valid (xs ++ bs) := by
  have hbackslash : IsAscii backslash := by decide
  fun_induction unescape bs generalizing xs with
  | case1 => exact Iff.rfl
  | case2 => exact Iff.rfl
  | case3 c bs ih =>
    rcases unescapeByte_cases c with ⟨d, hd, hascii, hsmall⟩ | hsame
    · have hlater := ih []
      rw [hd, List.singleton_append, valid_append_cons hascii, valid_append_cons hbackslash,
        valid_cons hsmall]
      exact and_congr_right fun _ => hlater
    · have hlater := ih (xs ++ [backslash, c])
      simpa only [hsame, List.append_assoc, List.cons_append, List.nil_append] using hlater
  | case4 b c bs hb ih =>
    have hlater := ih (xs ++ [b])
    simpa only [List.append_assoc, List.singleton_append] using hlater

theorem valid_unescape : Valid (unescape bs) ↔ Valid bs :=
  valid_append_unescape []

theorem Valid.of_append (h : Valid (xs ++ ys)) (hfirst : ∀ b ∈ ys.head?, IsAscii b) :
    Valid xs ∧ Valid ys := by
  cases ys with
  | nil =>
    rw [List.append_nil] at h
    exact ⟨h, valid_nil⟩
  | cons b ys =>
    have hb : IsAscii b := hfirst b rfl
    rw [valid_append_cons hb] at h
    exact ⟨h.1, (valid_cons hb).mpr h.2⟩

end Utf8

namespace Grammar

open Utf8

variable {c d : Cursor} {raw rest bs : List UInt8}

/-- The bytes begin with a token: `raw` is its word, or what stands between its quotes, as it is
written. -/
inductive Cut : List UInt8 → List UInt8 → List UInt8 → Prop
  | word {b : UInt8} {raw rest : List UInt8} (hquote : b ∉ quotes) (hhash : b ≠ Scan.hash)
    (hstop : b ∉ wordStops) (hword : WordIn (b :: raw) rest) :
    Cut (b :: raw ++ rest) (b :: raw) rest
  | quoted {quote : UInt8} {inside meaning rest : List UInt8} (hquote : quote ∈ quotes)
    (hunits : Units [quote] inside meaning) : Cut (quote :: inside ++ quote :: rest) inside rest

theorem token_eq_error_iff (c : Cursor) (raw : List UInt8) (quoted : Bool) :
    c.token raw quoted = .error (.located .invalidUtf8 c.location) ↔ ¬Valid raw := by
  rw [← valid_unescape, valid_iff_decode?, Cursor.token]
  cases decode? (unescape raw) <;> simp

theorem closesQuoted_ne_invalidUtf8 (rest : List UInt8) :
    Cursor.closesQuoted rest ≠ .error .invalidUtf8 := by
  unfold Cursor.closesQuoted
  split
  · simp
  · split <;> simp

/-- A token is refused for its encoding exactly if it is not UTF-8 as it is written. -/
theorem Cut.readToken_eq_iff (h : Cut c.rest raw rest) :
    (readToken c).1 = .error (.located .invalidUtf8 c.location) ↔ ¬Valid raw := by
  generalize hc : c.rest = text at h
  cases h with
  | @word b raw rest hquote hhash hstop hword =>
    rw [← isQuote_iff] at hquote
    rw [readToken, hc]
    simp only [List.cons_append, if_neg hquote]
    rw [Cursor.readWord, hc, hword.splitWord_eq]
    exact token_eq_error_iff c _ false
  | @quoted quote inside meaning rest hquote hunits =>
    rw [readToken, hc]
    simp only [List.cons_append, if_pos (isQuote_iff.mpr hquote)]
    rw [Cursor.readQuoted, splitQuoted?_append hquote hunits, ← token_eq_error_iff c raw true]
    cases htoken : c.token raw true with
    | error f => simp only [htoken]
    | ok t =>
      have hcloses := closesQuoted_ne_invalidUtf8 rest
      cases hrest : Cursor.closesQuoted rest with
      | error cause =>
        have hcause : cause ≠ .invalidUtf8 := fun heq => hcloses (heq ▸ hrest)
        simp only [htoken, hrest, Failure.located, Except.error.injEq, Failure.mk.injEq, hcause,
          false_and, reduceCtorEq]
      | ok done => simp only [htoken, hrest, reduceCtorEq]

theorem Cut.exists_cons (h : Cut bs raw rest) :
    ∃ b later, bs = b :: later ∧ b ≠ Scan.hash ∧ b ∉ wordStops := by
  cases h with
  | word _ hhash hstop => exact ⟨_, _, rfl, hhash, hstop⟩
  | quoted hquote =>
    refine ⟨_, _, rfl, fun heq => ?_, not_mem_wordStops_of_quote hquote⟩
    rw [heq] at hquote
    exact absurd hquote (by decide)

theorem Cut.stands (h : Cut bs raw rest) : Stands bs := by
  obtain ⟨b, later, rfl, hhash, hstop⟩ := h.exists_cons
  exact stands_cons.mpr ⟨fun hblank => hstop (List.mem_append_left _ hblank), hhash⟩

variable {b : UInt8} {f : Failure} {args : List Token}

theorem cut_of_readToken (hc : c.rest = b :: bs) (hhash : b ≠ Scan.hash) (hstop : b ∉ wordStops)
    (h : readToken c = (.error f, d)) (hcause : f.cause = .invalidUtf8) :
    f = .located .invalidUtf8 c.location ∧ ∃ raw rest, Cut c.rest raw rest ∧ ¬Valid raw := by
  suffices hcut : f = .located .invalidUtf8 c.location ∧ ∃ raw rest, Cut c.rest raw rest by
    obtain ⟨rfl, raw, rest, hcut⟩ := hcut
    exact ⟨rfl, raw, rest, hcut, hcut.readToken_eq_iff.mp (by rw [h])⟩
  simp only [readToken, hc] at h
  split at h
  · next hquote =>
    unfold Cursor.readQuoted at h
    split at h
    · obtain ⟨hf, -⟩ := Prod.mk.inj h
      obtain rfl := Except.error.inj hf
      simp [Failure.located] at hcause
    · next inside rest hsplit =>
      obtain ⟨⟨meaning, hunits⟩, rfl⟩ := units_of_splitQuoted? hsplit
      have hcut : Cut c.rest inside rest := hc ▸ .quoted (isQuote_iff.mp hquote) hunits
      simp only at h
      split at h
      · next htoken =>
        obtain ⟨hf, -⟩ := Prod.mk.inj h
        obtain rfl := Except.error.inj hf
        exact ⟨Cursor.eq_of_token htoken, inside, rest, hcut⟩
      · split at h
        · next hcloses =>
          obtain ⟨hf, -⟩ := Prod.mk.inj h
          obtain rfl := Except.error.inj hf
          obtain rfl := hcause
          exact absurd hcloses (closesQuoted_ne_invalidUtf8 rest)
        · simp at h
  · next hquote =>
    rw [isQuote_iff] at hquote
    cases hsplit : splitWord c.rest with
    | mk word rest =>
      obtain ⟨hword, hin⟩ := wordIn_of_splitWord hsplit
      have htoken : c.token word false = .error f := by
        rw [Cursor.readWord, hsplit] at h
        exact (Prod.mk.inj h).1
      refine ⟨Cursor.eq_of_token htoken, word, rest, ?_⟩
      obtain ⟨later, rfl⟩ := hin.exists_cons hstop (hword ▸ hc)
      exact hword ▸ .word hquote hhash hstop hin

theorem readFrom_invalid (h : c.readFrom args = (.error f, d)) (hcause : f.cause = .invalidUtf8) :
    ∃ b bs, c.skipGap.rest = b :: bs ∧ b ∉ wordStops ∧
      (readToken c.skipGap = (.error f, d) ∨ ∃ t next, next.rest.length < c.rest.length ∧
        readToken c.skipGap = (.ok t, next) ∧ next.readFrom (t :: args) = (.error f, d)) := by
  rcases readFrom_eq_error h with rfl | ⟨b, rfl⟩ | htoken
  · simp [Failure.located] at hcause
  · simp [Failure.located] at hcause
  · exact htoken

theorem rest_ne_nil_of_invalid (h : c.readFrom args = (.error f, d))
    (hcause : f.cause = .invalidUtf8) : c.rest ≠ [] := by
  obtain ⟨b, bs, hstart, -, -⟩ := readFrom_invalid h hcause
  obtain ⟨gap, hrest, -, -, -⟩ := exists_gap c
  rw [hrest, hstart]
  simp

theorem arguments_of_invalid (h : c.readFrom args = (.error f, d))
    (hcause : f.cause = .invalidUtf8) (hhead : StopsWord c.rest) :
    ∃ bs later text raw rest more, Arguments c.line bs more ∧ Separator later ∧
      c.rest = bs ++ (later ++ text) ∧ Cut text raw rest ∧ ¬Valid raw ∧
        f = .located .invalidUtf8 ⟨c.file, c.line + lineFeeds (bs ++ later)⟩ := by
  induction hlength : c.rest.length using Nat.strongRecOn generalizing c args with
  | ind length ih =>
    obtain ⟨b, bs, hstart, hstop, hfirst | ⟨t, next, hlt, hread, hlater⟩⟩ :=
      readFrom_invalid h hcause
    · obtain ⟨gap, hrest, hmoved, hstands, hgap⟩ := exists_gap c
      have hhash := (stands_cons.mp (hstart ▸ hstands)).2
      obtain ⟨rfl, raw, rest, hcut, hraw⟩ := cut_of_readToken hstart hhash hstop hfirst hcause
      rw [hstart] at hrest hgap
      have hsep := separator_of_gap hgap hstop (hrest ▸ hhead)
      refine ⟨[], gap, b :: bs, raw, rest, [], .nil c.line, hsep, hrest, hstart ▸ hcut, hraw, ?_⟩
      rw [hmoved]
      rfl
    · obtain ⟨gap, written, value, quoted, hgap, hlexeme, hrest, hnext, rfl, hhead'⟩ :=
        exists_lexeme hstart hstop hread (rest_ne_nil_of_invalid hlater hcause)
      have hsep := separator_of_lexeme hgap hlexeme (hrest ▸ hhead)
      obtain ⟨bs, later, text, raw, rest, more, harguments, hsep', hrest', hcut, hraw, rfl⟩ :=
        ih next.rest.length (hlength ▸ hlt) hlater hhead' rfl
      have hline : next.line = c.line + lineFeeds (gap ++ written) := by rw [hnext]; rfl
      have hfile : next.file = c.file := by rw [hnext]; rfl
      refine ⟨gap ++ written ++ bs, later, text, raw, rest, _,
        .cons hsep hlexeme (hline ▸ harguments), hsep', ?_, hcut, hraw, ?_⟩
      · rw [hrest, hrest']
        simp only [List.append_assoc]
      · rw [hfile, hline]
        simp only [lineFeeds_append, Nat.add_assoc]

theorem begun_of_invalid (h : c.next = (.error f, d)) (hcause : f.cause = .invalidUtf8) :
    ∃ front text raw rest, c.rest = front ++ text ∧ Begun front ∧ Cut text raw rest ∧
      ¬Valid raw ∧ f = .located .invalidUtf8 ⟨c.file, c.line + lineFeeds front⟩ := by
  obtain ⟨b, bs, hstart, hstop, hfirst | ⟨t, next, hlt, hread, hlater⟩⟩ := readFrom_invalid h hcause
  · obtain ⟨gap, hrest, hmoved, hstands, hgap⟩ := exists_gap c
    have hhash := (stands_cons.mp (hstart ▸ hstands)).2
    obtain ⟨rfl, raw, rest, hcut, hraw⟩ := cut_of_readToken hstart hhash hstop hfirst hcause
    rw [hstart] at hrest hgap
    refine ⟨gap, b :: bs, raw, rest, hrest, .first hgap, hstart ▸ hcut, hraw, ?_⟩
    rw [hmoved]
    rfl
  · obtain ⟨gap, written, value, quoted, hgap, hlexeme, hrest, hnext, rfl, hhead⟩ :=
      exists_lexeme hstart hstop hread (rest_ne_nil_of_invalid hlater hcause)
    obtain ⟨bs, later, text, raw, rest, more, harguments, hsep, hrest', hcut, hraw, rfl⟩ :=
      arguments_of_invalid hlater hcause hhead
    have hline : next.line = c.line + lineFeeds (gap ++ written) := by rw [hnext]; rfl
    have hfile : next.file = c.file := by rw [hnext]; rfl
    refine ⟨gap ++ written ++ bs ++ later, text, raw, rest, ?_,
      .behind hgap hlexeme harguments hsep, hcut, hraw, ?_⟩
    · rw [hrest, hrest']
      simp only [List.append_assoc]
    · rw [hfile, hline]
      simp only [lineFeeds_append, Nat.add_assoc]

/-- A call comes to every token of its statement in turn, and is refused for the first one that is
not UTF-8. -/
theorem next_eq_invalid_iff (c : Cursor) (hcause : f.cause = .invalidUtf8) :
    c.next.1 = .error f ↔
      ∃ front text raw rest, c.rest = front ++ text ∧ Begun front ∧ Cut text raw rest ∧
        ¬Valid raw ∧ f = .located .invalidUtf8 ⟨c.file, c.line + lineFeeds front⟩ := by
  constructor
  · intro h
    exact begun_of_invalid (d := c.next.2) (Prod.ext h rfl) hcause
  · rintro ⟨front, text, raw, rest, hc, hfront, hcut, hraw, rfl⟩
    obtain ⟨gap, args, line, hgap, hline, hnext⟩ := exists_gap_of_begun hfront c.file c.line
    obtain ⟨b, bs, rfl, -, hstop⟩ := hcut.exists_cons
    let d : Cursor := ⟨c.file, line, gap ++ b :: bs⟩
    have hskip : d.skipGap = d.moved gap (b :: bs) :=
      skipGap_of_gap hgap rfl (by simp) hcut.stands
    have hstart : d.skipGap.rest = b :: bs := by rw [hskip]; rfl
    have hcut' : Cut d.skipGap.rest raw rest := hstart ▸ hcut
    have hread := hcut'.readToken_eq_iff.mpr hraw
    have hfailed : (d.readFrom args).1 = .error (.located .invalidUtf8 d.skipGap.location) := by
      rw [readFrom_token hstart hstop]
      cases hboth : readToken d.skipGap with
      | mk read next =>
        rw [hboth] at hread
        simp only at hread
        rw [hread]
    have hc' : c = ⟨c.file, c.line, front ++ b :: bs⟩ := by rw [← hc]
    rw [hc', hnext, hfailed, hskip, ← hline]
    rfl

theorem isAscii_of_wordStops {b : UInt8} (h : b ∈ wordStops) : IsAscii b := by
  have hall : wordStops.all (fun b => decide (IsAscii b)) = true := by decide
  exact of_decide_eq_true (List.all_eq_true.mp hall b h)

theorem isAscii_of_quotes {b : UInt8} (h : b ∈ quotes) : IsAscii b := by
  have hall : quotes.all (fun b => decide (IsAscii b)) = true := by decide
  exact of_decide_eq_true (List.all_eq_true.mp hall b h)

theorem Gap.valid_rest {gap : List UInt8} (h : Gap false gap) (hvalid : Valid (gap ++ rest)) :
    Valid rest := by
  generalize hend : false = atEnd at h
  induction h with
  | nil => exact hvalid
  | blank hb _ ih =>
    have hascii := isAscii_of_wordStops (List.mem_append_left _ hb)
    exact ih ((valid_cons hascii).mp hvalid)
  | @comment text gap _ _ ih =>
    have hascii : IsAscii lineFeed := by decide
    rw [List.append_assoc] at hvalid
    exact ih ((valid_append_cons hascii).mp hvalid).2
  | unended htrue => simp [← hend] at htrue

theorem WordIn.valid_parts (h : WordIn raw rest) (hvalid : Valid (raw ++ rest)) :
    Valid raw ∧ Valid rest := by
  refine hvalid.of_append fun b hb => ?_
  rcases h with ⟨-, hrest⟩ | ⟨rfl, -⟩
  · exact isAscii_of_wordStops (hrest b hb)
  · simp at hb

theorem Cut.valid_raw (h : Cut bs raw rest) (hvalid : Valid bs) : Valid raw := by
  cases h with
  | word _ _ _ hword => exact (hword.valid_parts hvalid).1
  | quoted hquote =>
    have hascii := isAscii_of_quotes hquote
    rw [List.cons_append, valid_cons hascii, valid_append_cons hascii] at hvalid
    exact hvalid.1

theorem Begun.valid_rest {front : List UInt8} (h : Begun front) (hvalid : Valid (front ++ rest)) :
    Valid rest := by
  cases h with
  | first hgap => exact hgap.valid_rest hvalid
  | @behind line gap written bs later value quoted more _ _ _ hlater =>
    obtain ⟨hgap, b, hb, hblank⟩ := hlater
    obtain ⟨tail, rfl⟩ := List.head?_eq_some_iff.mp hb
    have hascii := isAscii_of_wordStops (List.mem_append_left _ hblank)
    rw [List.append_assoc, List.cons_append, valid_append_cons hascii] at hvalid
    exact hgap.valid_rest ((valid_cons hascii).mpr hvalid.2)

theorem valid_skipGap (h : Valid c.rest) : Valid c.skipGap.rest := by
  obtain ⟨gap, hrest, -, -, hgap⟩ := exists_gap c
  cases hstart : c.skipGap.rest with
  | nil => exact valid_nil
  | cons b bs =>
    rw [hstart] at hrest hgap
    exact Gap.valid_rest hgap (hrest ▸ h)

theorem valid_readToken (hc : c.rest = b :: bs) (h : Valid c.rest) :
    Valid (readToken c).2.rest := by
  simp only [readToken, hc]
  split
  · next hquote =>
    have hascii := isAscii_of_quotes (isQuote_iff.mp hquote)
    unfold Cursor.readQuoted
    split
    · exact valid_nil
    · next inside rest hsplit =>
      have hbs := (units_of_splitQuoted? hsplit).2
      rw [hc, valid_cons hascii, hbs, valid_append_cons hascii] at h
      split
      · exact h.2
      · split
        · exact h.2
        · exact h.2
  · cases hsplit : splitWord c.rest with
    | mk word rest =>
      obtain ⟨hword, hin⟩ := wordIn_of_splitWord hsplit
      rw [Cursor.readWord, hsplit]
      exact (hin.valid_parts (hword ▸ h)).2

theorem valid_readFrom (h : Valid c.rest) (args : List Token) : Valid (c.readFrom args).2.rest :=
  Cursor.readFrom_preserves (P := fun c => Valid c.rest) (fun _ => valid_skipGap)
    (fun _ _ _ hc hb h => (valid_cons (isAscii_of_wordStops hb)).mp (hc ▸ h))
    (fun _ _ _ hc _ => valid_readToken hc) h

theorem valid_behind (h : Valid c.rest) (n : Nat) : Valid (c.behind n).rest := by
  induction n generalizing c with
  | zero => exact h
  | succ n ih => exact ih (valid_readFrom h [])

theorem next_comment {front text other : List UInt8} (hfront : Begun front)
    (htext : lineFeed ∉ text) (hother : lineFeed ∉ other) (file : String) (line : Nat)
    (rest : List UInt8) :
    Cursor.next ⟨file, line, front ++ (Scan.hash :: text ++ rest)⟩ =
      Cursor.next ⟨file, line, front ++ (Scan.hash :: other ++ rest)⟩ := by
  obtain ⟨gap, args, line', hgap, -, hnext⟩ := exists_gap_of_begun hfront file line
  rw [hnext, hnext]
  have hskip : (⟨file, line', gap ++ (Scan.hash :: text ++ rest)⟩ : Cursor).skipGap =
      (⟨file, line', gap ++ (Scan.hash :: other ++ rest)⟩ : Cursor).skipGap := by
    unfold Cursor.skipGap
    simp only [hgap.skipGap_pass (by simp), skipGap_comment htext, skipGap_comment hother]
  rw [readFrom_eq, hskip, ← readFrom_eq]

end Grammar

namespace Cursor

open Utf8

/-- After any calls, a call is refused for the encoding exactly if it comes to a token that is not
UTF-8 as it is written, and it is blamed on the line of this token. So no call on a text is, and
what a comment says makes no difference. -/
theorem encoding_checked_exactly (file : String) (bytes : List UInt8) (n : Nat) :
    let c := (ofBytes file bytes).behind n
    (∀ d : Cursor, ∀ raw rest, Cut d.rest raw rest →
      ((readToken d).1 = .error (.located .invalidUtf8 d.location) ↔ ¬Valid raw)) ∧
    (∀ f : Failure, f.cause = .invalidUtf8 → (c.next.1 = .error f ↔
      ∃ front text raw rest, c.rest = front ++ text ∧ Begun front ∧ Cut text raw rest ∧
        ¬Valid raw ∧ f = .located .invalidUtf8 ⟨file, c.line + lineFeeds front⟩)) ∧
    (Valid bytes → ∀ f, c.next.1 = .error f → f.cause ≠ .invalidUtf8) ∧
    ∀ front text other rest, c.rest = front ++ (Scan.hash :: text ++ rest) → Begun front →
      lineFeed ∉ text → lineFeed ∉ other →
        Cursor.next { c with rest := front ++ (Scan.hash :: other ++ rest) } = c.next := by
  intro c
  have hfile : c.file = file := ((ofBytes file bytes).movesTo_behind n).file
  refine ⟨fun d raw rest h => h.readToken_eq_iff, fun f hcause => ?_, fun hvalid f hf hcause => ?_,
    fun front text other rest hc hfront htext hother => ?_⟩
  · rw [next_eq_invalid_iff c hcause, hfile]
  · obtain ⟨front, text, raw, rest, hc, hfront, hcut, hraw, -⟩ :=
      (next_eq_invalid_iff c hcause).mp hf
    have hleft : Valid c.rest := valid_behind hvalid n
    exact hraw (hcut.valid_raw (hfront.valid_rest (hc ▸ hleft)))
  · have hc' : c = ⟨c.file, c.line, front ++ (Scan.hash :: text ++ rest)⟩ := by rw [← hc]
    rw [← next_comment hfront htext hother c.file c.line rest, ← hc']

/-- A stray byte in a comment is passed over; one in a word is not. -/
theorem encoding_checked_exactly_latin :
    let behind := lineFeed :: Utf8.encode "user caf".toList ++ 0xE9 :: Utf8.encode ";".toList
    let bytes := Scan.hash :: [0xFF] ++ behind
    let f : Failure := .located .invalidUtf8 ⟨"server.conf", 2⟩
    (ofBytes "server.conf" bytes).next.1 = .error f ∧
    (∃ front text raw rest, bytes = front ++ text ∧ Begun front ∧ Cut text raw rest ∧
      ¬Valid raw ∧ lineFeeds front = 1) ∧
    (ofBytes "server.conf" (Scan.hash :: [] ++ behind)).next =
      (ofBytes "server.conf" bytes).next := by
  intro behind bytes f
  obtain ⟨-, hrefused, -, hcomment⟩ := encoding_checked_exactly "server.conf" bytes 0
  have hnext : (ofBytes "server.conf" bytes).next.1 = .error f := by decide +kernel
  have hsame := hcomment [] [0xFF] [] behind rfl (.first .nil) (by decide) (by decide)
  obtain ⟨front, text, raw, rest, hbytes, hfront, hcut, hraw, hf⟩ := (hrefused f rfl).mp hnext
  have hline : 2 = 1 + lineFeeds front := congrArg Location.line (Option.some.inj
    (congrArg Failure.location hf))
  exact ⟨hnext, ⟨front, text, raw, rest, hbytes, hfront, hcut, hraw, by omega⟩, hsame⟩

end Cursor

end ScopedConf
