import ScopedConf.Proofs.Forms

/-! Where a reading that fails points: into the bytes that the reader had in front of it. A quoted
token that is never closed is blamed on its opening quote. -/

namespace ScopedConf

open Scan Grammar

variable {c d last : Cursor} {f : Failure} {args : List Token}

namespace Cursor

def MovesTo (c d : Cursor) : Prop :=
  ∃ passed, c.rest = passed ++ d.rest ∧ d = c.moved passed d.rest

/-- The failure is blamed on one of the lines that the cursor has in front of it. -/
def Within (c : Cursor) (f : Failure) : Prop :=
  ∃ line, f.location = some ⟨c.file, line⟩ ∧ c.line ≤ line ∧ line ≤ c.line + lineFeeds c.rest

theorem MovesTo.refl (c : Cursor) : c.MovesTo c := ⟨[], rfl, rfl⟩

theorem MovesTo.trans (h : c.MovesTo d) (hlast : d.MovesTo last) : c.MovesTo last := by
  obtain ⟨first, hc, hd⟩ := h
  obtain ⟨later, hrest, hmoved⟩ := hlast
  refine ⟨first ++ later, ?_, ?_⟩
  · rw [hc, hrest, List.append_assoc]
  · rw [hd, moved_moved] at hmoved
    exact hmoved

theorem MovesTo.file (h : c.MovesTo d) : d.file = c.file := by
  obtain ⟨passed, -, hd⟩ := h
  rw [hd]
  rfl

theorem MovesTo.within (h : c.MovesTo d) (hf : d.Within f) : c.Within f := by
  have hfile := h.file
  obtain ⟨passed, hc, hd⟩ := h
  obtain ⟨line, hlocation, hlow, hhigh⟩ := hf
  have hline : d.line = c.line + lineFeeds passed := by rw [hd]; rfl
  have htotal : lineFeeds c.rest = lineFeeds passed + lineFeeds d.rest := by
    rw [hc, lineFeeds_append]
  exact ⟨line, hfile ▸ hlocation, by omega, by omega⟩

theorem within_located (c : Cursor) (cause : Cause) : c.Within (.located cause c.location) :=
  ⟨c.line, rfl, Nat.le_refl _, Nat.le_add_right _ _⟩

theorem movesTo_skipGap (c : Cursor) : c.MovesTo c.skipGap := by
  obtain ⟨gap, hrest, hmoved, -, -⟩ := exists_gap c
  exact ⟨gap, hrest, hmoved⟩

theorem movesTo_readWord (c : Cursor) : c.MovesTo c.readWord.2 := by
  obtain ⟨word, rest, hsplit⟩ : ∃ word rest, splitWord c.rest = (word, rest) := ⟨_, _, rfl⟩
  have hmoved : c.readWord.2 = c.moved word rest := by rw [readWord, hsplit]
  rw [hmoved]
  exact ⟨word, (wordIn_of_splitWord hsplit).1, rfl⟩

theorem movesTo_quoted {quote : UInt8} {bs inside rest : List UInt8} (hquote : quote ∈ quotes)
    (hc : c.rest = quote :: bs) (h : splitQuoted? quote bs = some (inside, rest)) :
    c.MovesTo (c.moved inside rest) := by
  have hbs := (units_of_splitQuoted? h).2
  refine ⟨quote :: inside ++ [quote], ?_, ?_⟩
  · rw [hc, hbs, List.append_assoc]
    rfl
  · rw [moved, moved, lineFeeds_quoted hquote]

theorem eq_of_token {written : List UInt8} {quoted : Bool} (h : c.token written quoted = .error f) :
    f = .located .invalidUtf8 c.location := by
  unfold token at h
  split at h
  · simp at h
  · exact (Except.error.inj h).symm

theorem movesTo_readQuoted {quote : UInt8} {bs : List UInt8} (hquote : quote ∈ quotes)
    (hc : c.rest = quote :: bs) : c.MovesTo (c.readQuoted quote bs).2 := by
  unfold readQuoted
  split
  · have hne : quote ≠ lineFeed := fun heq => absurd (heq ▸ hquote) (by decide)
    refine ⟨quote :: bs, ?_, ?_⟩
    · rw [hc]
      exact (List.append_nil _).symm
    · rw [moved, moved, lineFeeds_cons hne]
  · next inside rest hsplit =>
    have hmoves := movesTo_quoted hquote hc hsplit
    split
    · exact hmoves
    · split
      · exact hmoves
      · exact hmoves

theorem within_of_readQuoted {quote : UInt8} {bs : List UInt8} (hquote : quote ∈ quotes)
    (hc : c.rest = quote :: bs) (h : c.readQuoted quote bs = (.error f, d)) : c.Within f := by
  unfold readQuoted at h
  split at h
  · obtain ⟨hf, -⟩ := Prod.mk.inj h
    obtain rfl := Except.error.inj hf
    exact c.within_located _
  · next inside rest hsplit =>
    have hmoves := movesTo_quoted hquote hc hsplit
    split at h
    · next htoken =>
      obtain ⟨hf, -⟩ := Prod.mk.inj h
      obtain rfl := Except.error.inj hf
      rw [eq_of_token htoken]
      exact c.within_located _
    · split at h
      · obtain ⟨hf, -⟩ := Prod.mk.inj h
        obtain rfl := Except.error.inj hf
        exact hmoves.within (within_located _ _)
      · simp at h

theorem within_of_readWord (h : c.readWord = (.error f, d)) : c.Within f := by
  have htoken : c.token (splitWord c.rest).1 false = .error f := (Prod.mk.inj h).1
  rw [eq_of_token htoken]
  exact c.within_located _

theorem movesTo_readToken {b : UInt8} {bs : List UInt8} (hc : c.rest = b :: bs) :
    c.MovesTo (readToken c).2 := by
  simp only [readToken, hc]
  split
  · next hquote => exact movesTo_readQuoted (isQuote_iff.mp hquote) hc
  · exact c.movesTo_readWord

theorem within_of_readToken {b : UInt8} {bs : List UInt8} (hc : c.rest = b :: bs)
    (h : readToken c = (.error f, d)) : c.Within f := by
  simp only [readToken, hc] at h
  split at h
  · next hquote => exact within_of_readQuoted (isQuote_iff.mp hquote) hc h
  · exact within_of_readWord h

theorem within_of_readFrom (h : c.readFrom args = (.error f, d)) : c.Within f := by
  -- Every token takes bytes, so the induction is on how many there are left.
  induction hlength : c.rest.length using Nat.strongRecOn generalizing c args with
  | ind length ih =>
    have hgap := c.movesTo_skipGap
    rcases readFrom_eq_error h with rfl | ⟨b, rfl⟩ | ⟨b, bs, hstart, -, hfirst | hlater⟩
    · exact hgap.within (within_located _ _)
    · exact hgap.within (within_located _ _)
    · exact hgap.within (within_of_readToken hstart hfirst)
    · obtain ⟨t, next, hlt, hread, hlater⟩ := hlater
      have hmoves := movesTo_readToken hstart
      rw [hread] at hmoves
      exact (hgap.trans hmoves).within (ih _ (hlength ▸ hlt) hlater rfl)

/-- What gaps, tokens and the byte that ends a statement preserve, a call preserves, whether it
succeeds or not. -/
theorem readFrom_preserves {P : Cursor → Prop} (hgap : ∀ c, P c → P c.skipGap)
    (htake : ∀ c b bs, c.rest = b :: bs → b ∈ wordStops → P c → P (c.moved [b] bs))
    (htoken : ∀ c b bs, c.rest = b :: bs → b ∉ wordStops → P c → P (readToken c).2) (h : P c) :
    P (c.readFrom args).2 := by
  induction hlength : c.rest.length using Nat.strongRecOn generalizing c args with
  | ind length ih =>
    have hskipped : P c.skipGap := hgap c h
    obtain ⟨-, -, -, hstands, -⟩ := exists_gap c
    rw [readFrom_eq]
    cases hstart : c.skipGap.rest with
    | nil =>
      simp only
      split
      · exact hskipped
      · exact hskipped
    | cons b bs =>
      rw [hstart] at hstands
      simp only
      by_cases hends : b = semicolon ∨ b = openBrace
      · rw [if_pos hends]
        split
        · exact hskipped
        · exact htake _ b bs hstart (by rcases hends with rfl | rfl <;> decide) hskipped
      · rw [if_neg hends]
        by_cases hclose : b = closeBrace
        · rw [if_pos hclose]
          split
          · exact htake _ b bs hstart (by rw [hclose]; decide) hskipped
          · exact hskipped
        · rw [if_neg hclose]
          have hread := htoken _ b bs hstart (not_mem_wordStops hstands hends hclose) hskipped
          cases htokens : readToken c.skipGap with
          | mk read d =>
            rw [htokens] at hread
            cases read with
            | error f => exact hread
            | ok t =>
              have hlt := rest_readToken_length_lt hstart hends hclose htokens
              exact ih _ (hlength ▸ hlt) hread rfl

theorem movesTo_readFrom (c : Cursor) (args : List Token) : c.MovesTo (c.readFrom args).2 :=
  readFrom_preserves (fun d h => h.trans d.movesTo_skipGap)
    (fun _ b _ hc _ h => h.trans ⟨[b], hc, rfl⟩)
    (fun _ _ _ hc _ h => h.trans (movesTo_readToken hc)) (.refl c)

theorem movesTo_of_next {s? : Option Statement} (h : c.next = (.ok s?, d)) : c.MovesTo d := by
  have hmoves := c.movesTo_readFrom []
  rw [← next, h] at hmoves
  exact hmoves

end Cursor

namespace Grammar

theorem exists_gap_of_form {file : String} {line : Nat} {written : List UInt8} {s : Statement}
    (h : Form file line written s) :
    ∃ gap body, written = gap ++ body ∧ Gap false gap ∧ Stands body ∧ body ≠ [] ∧
      s.location = ⟨file, line + lineFeeds gap⟩ := by
  cases h with
  | closing hgap => exact ⟨_, _, rfl, hgap, stands_closeBrace [], by simp, rfl⟩
  | @group gap written rest value quoted args b terminator hgap hlexeme hargs hend =>
    refine ⟨gap, written ++ rest ++ [b], by simp, hgap, ?_, by simp, rfl⟩
    rw [List.append_assoc]
    exact hlexeme.stands _

/-- What may stand in front of a token: nothing but a gap, or other tokens of its statement. -/
inductive Begun : List UInt8 → Prop
  | first {gap : List UInt8} (hgap : Gap false gap) : Begun gap
  | behind {line : Nat} {gap written rest later : List UInt8} {value : String} {quoted : Bool}
    {args : List Token} (hgap : Gap false gap) (hlexeme : Lexeme written value quoted)
    (hargs : Arguments line rest args) (hlater : Separator later) :
    Begun (gap ++ written ++ rest ++ later)

def Unclosed (quote : UInt8) (bs : List UInt8) : Prop :=
  ∀ inside rest meaning, Units [quote] inside meaning → bs ≠ inside ++ quote :: rest

theorem splitQuoted?_eq_none {quote : UInt8} {bs : List UInt8} (h : Unclosed quote bs) :
    splitQuoted? quote bs = none := by
  cases hsplit : splitQuoted? quote bs with
  | none => rfl
  | some split =>
    obtain ⟨inside, rest⟩ := split
    obtain ⟨⟨meaning, hunits⟩, hbs⟩ := units_of_splitQuoted? hsplit
    exact absurd hbs (h inside rest meaning hunits)

theorem Gap.append {atEnd : Bool} {first later : List UInt8} (h : Gap false first)
    (hlater : Gap atEnd later) : Gap atEnd (first ++ later) := by
  induction h with
  | nil => exact hlater
  | blank hb _ ih => exact .blank hb ih
  | @comment text gap htext _ ih =>
    rw [List.append_assoc]
    exact .comment htext ih
  | unended hend => simp at hend

theorem Arguments.follows_separator {line : Nat} {bs later : List UInt8} {more : List Token}
    (h : Arguments line bs more) (hlater : Separator later) (rest : List UInt8) :
    Follows (bs ++ (later ++ rest)) := by
  cases h with
  | nil => exact hlater.follows rest
  | gap _ hgap => exact hgap.follows _
  | cons hgap => simpa only [List.append_assoc] using hgap.follows _

theorem exists_gap_of_arguments {line : Nat} {bs later : List UInt8} {more : List Token}
    (h : Arguments line bs more) (hlater : Separator later) (file : String) (start : Nat)
    (args : List Token) :
    ∃ gap args' line, Gap false gap ∧ line + lineFeeds gap = start + lineFeeds (bs ++ later) ∧
      ∀ rest, Cursor.readFrom ⟨file, start, bs ++ (later ++ rest)⟩ args =
        Cursor.readFrom ⟨file, line, gap ++ rest⟩ args' := by
  induction h generalizing start args with
  | nil => exact ⟨later, args, start, hlater.1, rfl, fun _ => rfl⟩
  | gap _ hgap =>
    refine ⟨_, args, start, hgap.1.append hlater.1, rfl, fun rest => ?_⟩
    rw [List.append_assoc]
  | @cons line gap written bs value quoted more hgap hlexeme hmore ih =>
    let t : Token := ⟨value, start + lineFeeds gap, quoted⟩
    obtain ⟨last, args', line', hlast, hline, hread⟩ :=
      ih (start + lineFeeds (gap ++ written)) (t :: args)
    refine ⟨last, args', line', hlast, ?_, fun rest => ?_⟩
    · rw [hline]
      simp only [lineFeeds_append, Nat.add_assoc]
    · have hfollows := hmore.follows_separator hlater rest
      rw [← hread, List.append_assoc]
      exact readFrom_lexeme hgap.1 hlexeme rfl hfollows

theorem exists_gap_of_begun {front : List UInt8} (h : Begun front) (file : String) (start : Nat) :
    ∃ gap args line, Gap false gap ∧ line + lineFeeds gap = start + lineFeeds front ∧
      ∀ rest, Cursor.next ⟨file, start, front ++ rest⟩ =
        Cursor.readFrom ⟨file, line, gap ++ rest⟩ args := by
  cases h with
  | first hgap => exact ⟨front, [], start, hgap, rfl, fun _ => rfl⟩
  | @behind line gap written bs later value quoted more hgap hlexeme hargs hlater =>
    let t : Token := ⟨value, start + lineFeeds gap, quoted⟩
    obtain ⟨last, args, line', hlast, hline, hread⟩ := exists_gap_of_arguments hargs hlater file
      (start + lineFeeds (gap ++ written)) [t]
    refine ⟨last, args, line', hlast, ?_, fun rest => ?_⟩
    · rw [hline]
      simp only [lineFeeds_append, Nat.add_assoc]
    · have hfollows := hargs.follows_separator hlater rest
      rw [← hread, List.append_assoc, List.append_assoc]
      exact readFrom_lexeme hgap hlexeme rfl hfollows

theorem not_mem_wordStops_of_quote {quote : UInt8} (hquote : quote ∈ quotes) :
    quote ∉ wordStops := by
  simp only [quotes, List.mem_cons, List.not_mem_nil, or_false] at hquote
  rcases hquote with rfl | rfl <;> decide

theorem stands_quote {quote : UInt8} (hquote : quote ∈ quotes) (rest : List UInt8) :
    Stands (quote :: rest) := by
  simp only [quotes, List.mem_cons, List.not_mem_nil, or_false] at hquote
  rw [stands_cons]
  rcases hquote with rfl | rfl <;> decide

theorem next_unclosed {front inside : List UInt8} {quote : UInt8} (hfront : Begun front)
    (hquote : quote ∈ quotes) (hinside : Unclosed quote inside)
    (hc : c.rest = front ++ quote :: inside) :
    c.next.1 = .error (.located .unexpectedEnd ⟨c.file, c.line + lineFeeds front⟩) := by
  obtain ⟨gap, args, line, hgap, hline, hnext⟩ := exists_gap_of_begun hfront c.file c.line
  let d : Cursor := ⟨c.file, line, gap ++ quote :: inside⟩
  have hskip : d.skipGap = d.moved gap (quote :: inside) :=
    skipGap_of_gap hgap rfl (by simp) (stands_quote hquote inside)
  have hstart : d.skipGap.rest = quote :: inside := by rw [hskip]; rfl
  have hread : readToken d.skipGap =
      (.error (.located .unexpectedEnd d.skipGap.location), d.skipGap.moved inside []) := by
    simp only [readToken, hstart, if_pos (isQuote_iff.mpr hquote), Cursor.readQuoted,
      splitQuoted?_eq_none hinside]
  have hfailed : d.readFrom args =
      (.error (.located .unexpectedEnd d.skipGap.location), d.skipGap.moved inside []) := by
    rw [readFrom_token hstart (not_mem_wordStops_of_quote hquote), hread]
  have hc' : c = ⟨c.file, c.line, front ++ quote :: inside⟩ := by rw [← hc]
  rw [hc', hnext, hfailed, hskip, ← hline]
  rfl

end Grammar

end ScopedConf
