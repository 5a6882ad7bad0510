import ScopedConf.Proofs.Grammar

/-! Reading gaps, words and quoted tokens, against the grammar. What is read does not depend on what
the source holds further on, as long as the next byte is one that the form can stop in front of. -/

namespace ScopedConf.Grammar

open Scan

theorem isBlank_iff {b : UInt8} : isBlank b = true ↔ b ∈ blanks := by
  simp [isBlank, blanks, or_assoc]

theorem endsWord_iff {b : UInt8} : endsWord b = true ↔ b ∈ wordStops := by
  simp [endsWord, wordStops, isBlank_iff, or_assoc]

theorem isQuote_iff {b : UInt8} : isQuote b = true ↔ b ∈ quotes := by
  simp [isQuote, quotes]

theorem lookup_cons_ite (b c d : UInt8) (table : List (UInt8 × UInt8)) :
    List.lookup b ((c, d) :: table) = if b = c then some d else table.lookup b := by
  rw [List.lookup_cons]
  split <;> simp_all

theorem unescapeByte_eq (b : UInt8) : unescapeByte b = escaped b := by
  unfold unescapeByte escaped escapes
  simp only [lookup_cons_ite, List.lookup_nil]
  split_ifs <;> simp_all

theorem lineFeeds_append (bs cs : List UInt8) :
    lineFeeds (bs ++ cs) = lineFeeds bs + lineFeeds cs :=
  List.count_append

theorem lineFeeds_lineFeed (bs : List UInt8) : lineFeeds (lineFeed :: bs) = lineFeeds bs + 1 :=
  List.count_cons_self

theorem lineFeeds_cons {b : UInt8} (h : b ≠ lineFeed) (bs : List UInt8) :
    lineFeeds (b :: bs) = lineFeeds bs :=
  List.count_cons_of_ne h

theorem lineFeeds_eq_zero {bs : List UInt8} (h : lineFeed ∉ bs) : lineFeeds bs = 0 :=
  List.count_eq_zero.mpr h

theorem lineFeeds_comment {text : List UInt8} (h : lineFeed ∉ text) :
    lineFeeds (Scan.hash :: text) = 0 :=
  (lineFeeds_cons (by decide) text).trans (lineFeeds_eq_zero h)

def Stands (rest : List UInt8) : Prop :=
  ∀ b ∈ rest.head?, b ∉ blanks ∧ b ≠ Scan.hash

def StopsWord (rest : List UInt8) : Prop :=
  ∀ b ∈ rest.head?, b ∈ wordStops

def Follows (rest : List UInt8) : Prop :=
  ∀ b ∈ rest.head?, b ∈ blanks ∨ b = semicolon ∨ b = openBrace

theorem stands_cons {b : UInt8} {bs : List UInt8} :
    Stands (b :: bs) ↔ b ∉ blanks ∧ b ≠ Scan.hash := by
  simp [Stands]

theorem stopsWord_cons {b : UInt8} {bs : List UInt8} : StopsWord (b :: bs) ↔ b ∈ wordStops := by
  simp [StopsWord]

theorem follows_cons {b : UInt8} {bs : List UInt8} :
    Follows (b :: bs) ↔ b ∈ blanks ∨ b = semicolon ∨ b = openBrace := by
  simp [Follows]

theorem Follows.stopsWord {rest : List UInt8} (h : Follows rest) : StopsWord rest := by
  intro b hb
  rcases h b hb with hb | rfl | rfl
  · exact List.mem_append_left _ hb
  · decide
  · decide

theorem hash_not_mem_blanks : Scan.hash ∉ blanks := by decide

theorem lineFeed_mem_blanks : lineFeed ∈ blanks := by decide

theorem skipGap_of_stands {rest : List UInt8} (h : Stands rest) (line : Nat) :
    skipGap false line rest = (line, rest) := by
  cases rest with
  | nil => rfl
  | cons b rest =>
    obtain ⟨hblank, hhash⟩ := stands_cons.mp h
    have hline : b ≠ lineFeed := fun hb => hblank (hb ▸ lineFeed_mem_blanks)
    rw [← isBlank_iff] at hblank
    simp [skipGap, hline, hhash, hblank]

theorem skipGap_comment {text : List UInt8} (h : lineFeed ∉ text) (line : Nat)
    (bs : List UInt8) :
    skipGap false line (Scan.hash :: text ++ bs) = skipGap true line bs := by
  have hpass : skipGap true line (text ++ bs) = skipGap true line bs := by
    induction text with
    | nil => rfl
    | cons b text ih =>
      simp only [List.mem_cons, not_or] at h
      rw [List.cons_append, skipGap, if_neg (Ne.symm h.1), if_pos rfl, ih h.2]
  rw [List.cons_append, skipGap, if_neg (by decide), if_neg (by simp), if_pos rfl, hpass]

theorem Gap.skipGap_pass {atEnd : Bool} {gap : List UInt8} (h : Gap atEnd gap)
    {rest : List UInt8} (hend : atEnd = true → rest = []) (line : Nat) :
    skipGap false line (gap ++ rest) = skipGap false (line + lineFeeds gap) rest := by
  induction h generalizing line with
  | nil => rfl
  | @blank b gap hb _ ih =>
    by_cases hline : b = lineFeed
    · rw [hline, List.cons_append, skipGap, if_pos rfl, ih, lineFeeds_lineFeed, Nat.add_right_comm,
        Nat.add_assoc]
    · have hhash : b ≠ Scan.hash := fun heq => hash_not_mem_blanks (heq ▸ hb)
      rw [List.cons_append, skipGap, if_neg hline, if_neg (by simp), if_neg hhash,
        if_pos (isBlank_iff.mpr hb), ih, lineFeeds_cons hline]
  | @comment text gap htext _ ih =>
    rw [List.append_assoc, skipGap_comment htext, List.cons_append, skipGap, if_pos rfl, ih,
      lineFeeds_append, lineFeeds_comment htext, lineFeeds_lineFeed, Nat.add_right_comm,
      Nat.zero_add, Nat.add_assoc]
  | @unended text hend' htext =>
    rw [hend hend', skipGap_comment htext, lineFeeds_comment htext]
    rfl

theorem Gap.skipGap_append {atEnd : Bool} {gap : List UInt8} (h : Gap atEnd gap)
    {rest : List UInt8} (hend : atEnd = true → rest = []) (hrest : Stands rest) (line : Nat) :
    skipGap false line (gap ++ rest) = (line + lineFeeds gap, rest) := by
  rw [h.skipGap_pass hend, skipGap_of_stands hrest]

theorem Gap.lengthen {atEnd : Bool} {b : UInt8} {gap : List UInt8} (hb : b ≠ lineFeed)
    (h : Gap atEnd (Scan.hash :: gap)) : Gap atEnd (Scan.hash :: b :: gap) := by
  generalize hwritten : Scan.hash :: gap = written at h
  cases h with
  | nil => simp at hwritten
  | blank hblank =>
    obtain ⟨rfl, -⟩ := List.cons.inj hwritten
    exact absurd hblank hash_not_mem_blanks
  | @comment text _ htext hgap =>
    obtain ⟨-, rfl⟩ := List.cons.inj hwritten
    have hlonger : lineFeed ∉ b :: text := by simp [htext, Ne.symm hb]
    exact .comment hlonger hgap
  | @unended text hend htext =>
    obtain ⟨-, rfl⟩ := List.cons.inj hwritten
    have hlonger : lineFeed ∉ b :: gap := by simp [htext, Ne.symm hb]
    exact .unended hend hlonger

/-- In the middle of a comment, what was passed over is the comment's text up to there. -/
theorem gap_of_skipGap {inComment : Bool} {line line' : Nat} {bs rest : List UInt8}
    (h : skipGap inComment line bs = (line', rest)) :
    ∃ gap, bs = gap ++ rest ∧ line' = line + lineFeeds gap ∧ Stands rest ∧
      Gap rest.isEmpty (if inComment then Scan.hash :: gap else gap) := by
  induction bs generalizing inComment line with
  | nil =>
    obtain ⟨rfl, rfl⟩ := Prod.mk.inj h
    refine ⟨[], rfl, rfl, by simp [Stands], ?_⟩
    cases inComment with
    | false => exact .nil
    | true => exact .unended rfl (by simp)
  | cons b bs ih =>
    unfold skipGap at h
    by_cases hline : b = lineFeed
    · subst hline
      rw [if_pos rfl] at h
      obtain ⟨gap, rfl, rfl, hstands, hgap⟩ := ih h
      refine ⟨lineFeed :: gap, rfl, ?_, hstands, ?_⟩
      · rw [lineFeeds_lineFeed]
        omega
      · cases inComment with
        | false => exact .blank lineFeed_mem_blanks hgap
        | true => exact .comment (List.not_mem_nil : lineFeed ∉ []) hgap
    · rw [if_neg hline] at h
      cases inComment with
      | true =>
        rw [if_pos rfl] at h
        obtain ⟨gap, rfl, rfl, hstands, hgap⟩ := ih h
        exact ⟨b :: gap, rfl, by rw [lineFeeds_cons hline], hstands, hgap.lengthen hline⟩
      | false =>
        rw [if_neg (by simp)] at h
        by_cases hhash : b = Scan.hash
        · rw [if_pos hhash] at h
          obtain ⟨gap, rfl, rfl, hstands, hgap⟩ := ih h
          exact ⟨b :: gap, rfl, by rw [lineFeeds_cons hline], hstands, hhash ▸ hgap⟩
        · rw [if_neg hhash] at h
          by_cases hblank : isBlank b = true
          · rw [if_pos hblank] at h
            obtain ⟨gap, rfl, rfl, hstands, hgap⟩ := ih h
            exact ⟨b :: gap, rfl, by rw [lineFeeds_cons hline], hstands,
              .blank (isBlank_iff.mp hblank) hgap⟩
          · rw [if_neg hblank] at h
            obtain ⟨rfl, rfl⟩ := Prod.mk.inj h
            rw [isBlank_iff] at hblank
            exact ⟨[], rfl, rfl, stands_cons.mpr ⟨hblank, hhash⟩, .nil⟩

theorem splitWord_stop {b : UInt8} (hb : b ∈ wordStops) (bs : List UInt8) :
    splitWord (b :: bs) = ([], b :: bs) := by
  rw [← endsWord_iff] at hb
  cases bs <;> simp [splitWord, hb]

theorem splitWord_plain {b : UInt8} (hstop : b ∉ wordStops) (hb : b ≠ backslash)
    (bs : List UInt8) : splitWord (b :: bs) = (b :: (splitWord bs).1, (splitWord bs).2) := by
  rw [← endsWord_iff] at hstop
  cases bs <;> simp [splitWord, hstop, hb]

theorem splitWord_pair (b : UInt8) (bs : List UInt8) :
    splitWord (backslash :: b :: bs) = (backslash :: b :: (splitWord bs).1, (splitWord bs).2) := by
  have hstop : endsWord backslash = false := by decide
  simp [splitWord, hstop]

theorem splitWord_append {word meaning rest : List UInt8} (h : Units wordStops word meaning)
    (hrest : StopsWord rest) : splitWord (word ++ rest) = (word, rest) := by
  induction h with
  | nil =>
    cases rest with
    | nil => rfl
    | cons b rest => exact splitWord_stop (stopsWord_cons.mp hrest) rest
  | plain hstop hb _ ih => rw [List.cons_append, splitWord_plain hstop hb, ih]
  | pair b _ ih => rw [List.cons_append, List.cons_append, splitWord_pair, ih]

section

variable {word rest bs : List UInt8}

/-- A word as it is written, up to the next byte that ends it. At the end of the input, a last
backslash may have no byte to take with it. -/
def WordIn (word rest : List UInt8) : Prop :=
  (∃ meaning, Units wordStops word meaning) ∧ StopsWord rest ∨
    rest = [] ∧ ∃ front meaning, word = front ++ [backslash] ∧ Units wordStops front meaning

theorem WordIn.pair (b : UInt8) (h : WordIn word rest) : WordIn (backslash :: b :: word) rest := by
  rcases h with ⟨⟨meaning, hunits⟩, hrest⟩ | ⟨hrest, front, meaning, rfl, hunits⟩
  · exact .inl ⟨⟨_, .pair b hunits⟩, hrest⟩
  · exact .inr ⟨hrest, _, _, rfl, .pair b hunits⟩

theorem WordIn.plain {b : UInt8} (hstop : b ∉ wordStops) (hb : b ≠ backslash)
    (h : WordIn word rest) : WordIn (b :: word) rest := by
  rcases h with ⟨⟨meaning, hunits⟩, hrest⟩ | ⟨hrest, front, meaning, rfl, hunits⟩
  · exact .inl ⟨⟨_, .plain hstop hb hunits⟩, hrest⟩
  · exact .inr ⟨hrest, _, _, rfl, .plain hstop hb hunits⟩

theorem WordIn.exists_cons {b : UInt8} (h : WordIn word rest) (hstop : b ∉ wordStops)
    (hhead : word ++ rest = b :: bs) : ∃ later, word = b :: later := by
  cases word with
  | cons first later =>
    obtain ⟨rfl, -⟩ := List.cons.inj hhead
    exact ⟨later, rfl⟩
  | nil =>
    rw [List.nil_append] at hhead
    subst hhead
    rcases h with ⟨-, hrest⟩ | ⟨hrest, -⟩
    · exact absurd (stopsWord_cons.mp hrest) hstop
    · simp at hrest

theorem WordIn.splitWord_eq (h : WordIn word rest) : splitWord (word ++ rest) = (word, rest) := by
  rcases h with ⟨⟨meaning, hunits⟩, hrest⟩ | ⟨rfl, front, meaning, rfl, hunits⟩
  · exact splitWord_append hunits hrest
  · rw [List.append_nil]
    induction hunits with
    | nil => rfl
    | plain hstop hb _ ih => rw [List.cons_append, splitWord_plain hstop hb, ih]
    | pair b _ ih => rw [List.cons_append, List.cons_append, splitWord_pair, ih]

theorem wordIn_of_splitWord (h : splitWord bs = (word, rest)) :
    bs = word ++ rest ∧ WordIn word rest := by
  fun_induction splitWord bs generalizing word with
  | case1 =>
    obtain ⟨rfl, rfl⟩ := Prod.mk.inj h
    exact ⟨rfl, .inl ⟨⟨[], .nil⟩, by simp [StopsWord]⟩⟩
  | case2 b hends =>
    obtain ⟨rfl, rfl⟩ := Prod.mk.inj h
    exact ⟨rfl, .inl ⟨⟨[], .nil⟩, stopsWord_cons.mpr (endsWord_iff.mp hends)⟩⟩
  | case3 b hends =>
    obtain ⟨rfl, rfl⟩ := Prod.mk.inj h
    refine ⟨rfl, ?_⟩
    by_cases hb : b = backslash
    · exact .inr ⟨rfl, [], [], by rw [hb]; rfl, .nil⟩
    · rw [endsWord_iff] at hends
      exact .inl ⟨⟨_, .plain hends hb .nil⟩, by simp [StopsWord]⟩
  | case4 b c bs hends =>
    obtain ⟨rfl, rfl⟩ := Prod.mk.inj h
    exact ⟨rfl, .inl ⟨⟨[], .nil⟩, stopsWord_cons.mpr (endsWord_iff.mp hends)⟩⟩
  | case5 c bs word' rest' hsplit hends ih =>
    obtain ⟨rfl, rfl⟩ := Prod.mk.inj h
    obtain ⟨hbs, hword⟩ := ih hsplit
    exact ⟨by rw [hbs]; rfl, hword.pair c⟩
  | case6 b c bs hends hb word' rest' hsplit ih =>
    obtain ⟨rfl, rfl⟩ := Prod.mk.inj h
    obtain ⟨hbs, hword⟩ := ih hsplit
    rw [endsWord_iff] at hends
    exact ⟨by rw [hbs]; rfl, hword.plain hends hb⟩

theorem units_of_splitWord (h : splitWord bs = (word, rest)) (hrest : rest ≠ []) :
    (∃ meaning, Units wordStops word meaning) ∧ bs = word ++ rest ∧ StopsWord rest := by
  obtain ⟨hbs, ⟨hunits, hstops⟩ | ⟨hend, -⟩⟩ := wordIn_of_splitWord h
  · exact ⟨hunits, hbs, hstops⟩
  · exact absurd hend hrest

end

theorem splitQuoted?_quote (quote : UInt8) (bs : List UInt8) :
    splitQuoted? quote (quote :: bs) = some ([], bs) := by
  cases bs <;> simp [splitQuoted?]

theorem splitQuoted?_plain {quote b : UInt8} (hquote : b ≠ quote) (hb : b ≠ backslash)
    (bs : List UInt8) :
    splitQuoted? quote (b :: bs) =
      (splitQuoted? quote bs).map fun (inside, rest) => (b :: inside, rest) := by
  cases bs <;> simp [splitQuoted?, hquote, hb]

theorem splitQuoted?_append {quote : UInt8} (hquote : quote ∈ quotes)
    {inside meaning : List UInt8} (h : Units [quote] inside meaning) (rest : List UInt8) :
    splitQuoted? quote (inside ++ quote :: rest) = some (inside, rest) := by
  have hne : backslash ≠ quote := fun heq => absurd (heq ▸ hquote) (by decide)
  induction h with
  | nil => exact splitQuoted?_quote quote rest
  | plain hstop hb _ ih =>
    rw [List.mem_singleton] at hstop
    rw [List.cons_append, splitQuoted?_plain hstop hb, ih, Option.map_some]
  | pair b _ ih =>
    rw [List.cons_append, List.cons_append, splitQuoted?, if_neg hne, if_pos rfl, ih,
      Option.map_some]

theorem units_of_splitQuoted? {quote : UInt8} {bs inside rest : List UInt8}
    (h : splitQuoted? quote bs = some (inside, rest)) :
    (∃ meaning, Units [quote] inside meaning) ∧ bs = inside ++ quote :: rest := by
  fun_induction splitQuoted? quote bs generalizing inside with
  | case1 => simp at h
  | case2 =>
    obtain ⟨rfl, rfl⟩ := Prod.mk.inj (Option.some.inj h)
    exact ⟨⟨[], .nil⟩, rfl⟩
  | case3 => simp at h
  | case4 =>
    obtain ⟨rfl, rfl⟩ := Prod.mk.inj (Option.some.inj h)
    exact ⟨⟨[], .nil⟩, rfl⟩
  | case5 c bs hquote ih =>
    obtain ⟨⟨inside', rest'⟩, hsplit, heq⟩ := Option.map_eq_some_iff.mp h
    obtain ⟨rfl, rfl⟩ := Prod.mk.inj heq
    obtain ⟨⟨meaning, hunits⟩, hbs⟩ := ih hsplit
    exact ⟨⟨_, .pair c hunits⟩, by rw [hbs]; rfl⟩
  | case6 b c bs hquote hb ih =>
    obtain ⟨⟨inside', rest'⟩, hsplit, heq⟩ := Option.map_eq_some_iff.mp h
    obtain ⟨rfl, rfl⟩ := Prod.mk.inj heq
    obtain ⟨⟨meaning, hunits⟩, hbs⟩ := ih hsplit
    exact ⟨⟨_, .plain (by simpa using hquote) hb hunits⟩, by rw [hbs]; rfl⟩

theorem Units.unescape_eq {stops written meaning : List UInt8} (h : Units stops written meaning) :
    unescape written = meaning := by
  induction h with
  | nil => rfl
  | @plain b written meaning hstop hb hrest ih =>
    cases written with
    | nil => simpa [unescape] using ih
    | cons c written => rw [unescape, if_neg hb, ih]
  | pair b hrest ih => rw [unescape, if_pos rfl, ih, unescapeByte_eq]

theorem token_of_units {stops written : List UInt8} {value : String}
    (h : Units stops written (Utf8.encode value.toList)) (c : Cursor) (quoted : Bool) :
    c.token written quoted = .ok ⟨value, c.line, quoted⟩ := by
  have hdecode := Utf8.decode?_eq_some_iff.mpr h.unescape_eq.symm
  rw [Cursor.token, hdecode]

theorem exists_value_of_token {stops written meaning : List UInt8} {c : Cursor} {quoted : Bool}
    {t : Token} (hunits : Units stops written meaning) (h : c.token written quoted = .ok t) :
    ∃ value, Units stops written (Utf8.encode value.toList) ∧ t = ⟨value, c.line, quoted⟩ := by
  unfold Cursor.token at h
  split at h
  · next value hvalue =>
    obtain rfl := Except.ok.inj h
    have hmeaning := Utf8.decode?_eq_some_iff.mp hvalue
    rw [hunits.unescape_eq] at hmeaning
    exact ⟨value, hmeaning ▸ hunits, rfl⟩
  · simp at h

def readToken (c : Cursor) : Except Failure Token × Cursor :=
  match c.rest with
  | b :: bs => if isQuote b then c.readQuoted b bs else c.readWord
  | [] => c.readWord

theorem closesQuoted_eq_ok {rest : List UInt8} :
    Cursor.closesQuoted rest = .ok () ↔ Follows rest := by
  cases rest with
  | nil => simp [Cursor.closesQuoted, Follows]
  | cons b rest =>
    have hends : (isBlank b || b == semicolon || b == openBrace) = true ↔ Follows (b :: rest) := by
      simp [Follows, isBlank_iff, or_assoc]
    rw [← hends, Cursor.closesQuoted]
    split
    · next hb => simp only [hb]
    · next hb => simp [hb]

theorem lineFeeds_quoted {quote : UInt8} (hquote : quote ∈ quotes) (inside : List UInt8) :
    lineFeeds (quote :: inside ++ [quote]) = lineFeeds inside := by
  have hne : quote ≠ lineFeed := fun heq => absurd (heq ▸ hquote) (by decide)
  rw [List.cons_append, lineFeeds_cons hne, lineFeeds_append, lineFeeds_cons hne]
  rfl

theorem readToken_of_lexeme {c : Cursor} {written rest : List UInt8} {value : String}
    {quoted : Bool} (h : Lexeme written value quoted) (hc : c.rest = written ++ rest)
    (hrest : Follows rest) :
    readToken c = (.ok ⟨value, c.line, quoted⟩, c.moved written rest) := by
  cases h with
  | @word b written _ hquote hhash hunits =>
    have hread : c.readWord = (.ok ⟨value, c.line, false⟩, c.moved (b :: written) rest) := by
      rw [Cursor.readWord, hc, splitWord_append hunits hrest.stopsWord]
      simp only [token_of_units hunits]
    rw [← isQuote_iff] at hquote
    simp only [readToken, hc, List.cons_append, if_neg hquote, hread]
  | @quoted quote inside _ hquote hunits =>
    have hread : c.readQuoted quote (inside ++ quote :: rest) =
        (.ok ⟨value, c.line, true⟩, c.moved (quote :: inside ++ [quote]) rest) := by
      rw [Cursor.readQuoted, splitQuoted?_append hquote hunits]
      simp only [token_of_units hunits, closesQuoted_eq_ok.mpr hrest]
      simp only [Cursor.moved, lineFeeds_quoted hquote]
    rw [← isQuote_iff] at hquote
    rw [readToken, hc]
    simpa [hquote] using hread

def Between (c : Cursor) (t : Token) (d : Cursor) : Prop :=
  ∃ written value quoted, Lexeme written value quoted ∧ c.rest = written ++ d.rest ∧
    t = ⟨value, c.line, quoted⟩ ∧ d = c.moved written d.rest

theorem between_of_readQuoted {c d : Cursor} {quote : UInt8} {bs : List UInt8} {t : Token}
    (hquote : quote ∈ quotes) (hc : c.rest = quote :: bs)
    (h : c.readQuoted quote bs = (.ok t, d)) : Between c t d ∧ Follows d.rest := by
  unfold Cursor.readQuoted at h
  split at h
  · simp at h
  · next inside rest hsplit =>
    obtain ⟨⟨meaning, hunits⟩, rfl⟩ := units_of_splitQuoted? hsplit
    simp only at h
    split at h
    · simp at h
    · next t' htoken =>
      split at h
      · simp at h
      · next hcloses =>
        obtain ⟨ht, rfl⟩ := Prod.mk.inj h
        obtain rfl := Except.ok.inj ht
        obtain ⟨value, hunits, rfl⟩ := exists_value_of_token hunits htoken
        refine ⟨⟨quote :: inside ++ [quote], value, true, .quoted hquote hunits, ?_, rfl, ?_⟩,
          closesQuoted_eq_ok.mp hcloses⟩
        · simp [hc, Cursor.moved]
        · simp only [Cursor.moved, lineFeeds_quoted hquote]

theorem between_of_readWord {c d : Cursor} {b : UInt8} {bs : List UInt8} {t : Token}
    (hquote : b ∉ quotes) (hhash : b ≠ Scan.hash) (hstop : b ∉ wordStops) (hc : c.rest = b :: bs)
    (h : c.readWord = (.ok t, d)) (hd : d.rest ≠ []) :
    Between c t d ∧ StopsWord d.rest := by
  unfold Cursor.readWord at h
  cases hsplit : splitWord c.rest with
  | mk word rest =>
    rw [hsplit] at h
    obtain ⟨htoken, rfl⟩ := Prod.mk.inj h
    obtain ⟨⟨meaning, hunits⟩, hword, hhead⟩ := units_of_splitWord hsplit hd
    obtain ⟨value, hunits, rfl⟩ := exists_value_of_token hunits htoken
    rw [hc] at hword
    cases word with
    | nil =>
      obtain rfl := hword
      exact absurd (stopsWord_cons.mp hhead) hstop
    | cons b' word =>
      obtain ⟨rfl, rfl⟩ := List.cons.inj hword
      exact ⟨⟨b :: word, value, false, .word hquote hhash hunits, hc, rfl, rfl⟩, hhead⟩

theorem between_of_readToken {c d : Cursor} {b : UInt8} {bs : List UInt8} {t : Token}
    (hhash : b ≠ Scan.hash) (hstop : b ∉ wordStops) (hc : c.rest = b :: bs)
    (h : readToken c = (.ok t, d)) (hd : d.rest ≠ []) :
    Between c t d ∧ StopsWord d.rest := by
  simp only [readToken, hc] at h
  split at h
  · next hquote =>
    obtain ⟨hbetween, hfollows⟩ := between_of_readQuoted (isQuote_iff.mp hquote) hc h
    exact ⟨hbetween, hfollows.stopsWord⟩
  · next hquote =>
    rw [isQuote_iff] at hquote
    exact between_of_readWord hquote hhash hstop hc h hd

end ScopedConf.Grammar
