import ScopedConf.Proofs.Lexemes
import ScopedConf.Proofs.Streams

/-! Reading statements, against the grammar. A call of the reader passes over exactly one form, and
calls until the end or a failure pass over the longest sequence of forms that a source begins
with. -/

namespace ScopedConf.Grammar

open Scan

variable {c d : Cursor}

theorem moved_moved (c : Cursor) (first later bs rest : List UInt8) :
    (c.moved first bs).moved later rest = c.moved (first ++ later) rest := by
  simp only [Cursor.moved, lineFeeds_append, Nat.add_assoc]

theorem exists_gap (c : Cursor) :
    ∃ gap, c.rest = gap ++ c.skipGap.rest ∧ c.skipGap = c.moved gap c.skipGap.rest ∧
      Stands c.skipGap.rest ∧ Gap c.skipGap.rest.isEmpty gap := by
  obtain ⟨gap, hrest, hline, hstands, hgap⟩ :=
    gap_of_skipGap (show skipGap false c.line c.rest = (c.skipGap.line, c.skipGap.rest) from rfl)
  refine ⟨gap, hrest, ?_, hstands, hgap⟩
  simp only [Cursor.moved, ← hline]
  rfl

theorem skipGap_of_gap {atEnd : Bool} {gap rest : List UInt8} (h : Gap atEnd gap)
    (hc : c.rest = gap ++ rest) (hend : atEnd = true → rest = []) (hrest : Stands rest) :
    c.skipGap = c.moved gap rest := by
  unfold Cursor.skipGap
  rw [hc, h.skipGap_append hend hrest]
  rfl

theorem readFrom_eq (c : Cursor) (args : List Token) :
    c.readFrom args =
      match c.skipGap.rest with
      | [] =>
        if args.isEmpty then (.ok none, c.skipGap)
        else (.error (.located .unexpectedEnd c.skipGap.location), c.skipGap)
      | b :: bs =>
        if b = semicolon ∨ b = openBrace then
          if args.isEmpty then
            (.error (.located (.unexpectedByte b) c.skipGap.location), c.skipGap)
          else
            (.ok (some (c.skipGap.close args (if b = semicolon then .semicolon else .openBrace))),
              c.skipGap.moved [b] bs)
        else if b = closeBrace then
          if args.isEmpty then
            (.ok (some (c.skipGap.close [] .closeBrace)), c.skipGap.moved [b] bs)
          else (.error (.located (.unexpectedByte b) c.skipGap.location), c.skipGap)
        else
          match readToken c.skipGap with
          | (.error f, next) => (.error f, next)
          | (.ok t, next) => next.readFrom (t :: args) := by
  rw [Cursor.readFrom]
  split
  · next hrest => rw [hrest]
  · next b bs hrest =>
    simp only [hrest, readToken]
    by_cases hends : b = semicolon ∨ b = openBrace
    · rw [dif_pos hends, if_pos hends]
    · rw [dif_neg hends, if_neg hends]
      by_cases hclose : b = closeBrace
      · rw [dif_pos hclose, if_pos hclose]
      · rw [dif_neg hclose, if_neg hclose]
        by_cases hquote : isQuote b = true
        · simp only [if_pos hquote]
          split <;> simp_all
        · simp only [if_neg hquote]
          split <;> simp_all

theorem rest_readToken_length_lt {b : UInt8} {bs : List UInt8} {t : Token}
    (hstart : c.skipGap.rest = b :: bs) (hends : ¬(b = semicolon ∨ b = openBrace))
    (hclose : b ≠ closeBrace) (hread : readToken c.skipGap = (.ok t, d)) :
    d.rest.length < c.rest.length := by
  simp only [readToken, hstart] at hread
  split at hread
  · exact Cursor.rest_readQuoted_skipGap_length_lt hstart hread
  · exact Cursor.rest_readWord_skipGap_length_lt hstart hends hclose hread

section

variable {args : List Token} {b : UInt8} {bs : List UInt8}

theorem readFrom_end (h : c.skipGap.rest = []) : c.readFrom [] = (.ok none, c.skipGap) := by
  rw [readFrom_eq, h]
  rfl

theorem readFrom_closeBrace (h : c.skipGap.rest = closeBrace :: bs) :
    c.readFrom [] = (.ok (some (c.skipGap.close [] .closeBrace)),
      c.skipGap.moved [closeBrace] bs) := by
  rw [readFrom_eq, h]
  rfl

theorem readFrom_ends {terminator : Terminator} (h : c.skipGap.rest = b :: bs)
    (hb : (b, terminator) ∈ ends) (hargs : args ≠ []) :
    c.readFrom args = (.ok (some (c.skipGap.close args terminator)), c.skipGap.moved [b] bs) := by
  have hempty : ¬args.isEmpty = true := by simpa using hargs
  simp only [ends, List.mem_cons, Prod.mk.injEq, List.not_mem_nil, or_false] at hb
  rw [readFrom_eq, h]
  rcases hb with ⟨rfl, rfl⟩ | ⟨rfl, rfl⟩
  · simp only [true_or, if_true, if_neg hempty]
  · simp only [or_true, if_true, if_neg hempty]
    rfl

theorem readFrom_token (h : c.skipGap.rest = b :: bs) (hstop : b ∉ wordStops) :
    c.readFrom args =
      match readToken c.skipGap with
      | (.error f, next) => (.error f, next)
      | (.ok t, next) => next.readFrom (t :: args) := by
  simp only [wordStops, List.mem_append, List.mem_cons, List.not_mem_nil, or_false, not_or] at hstop
  have hends : ¬(b = semicolon ∨ b = openBrace) := by simp [hstop]
  rw [readFrom_eq, h]
  simp only [if_neg hends, if_neg hstop.2.2.2]

end

theorem close_eq {args earlier : List Token} {first : Token} (h : args.reverse = first :: earlier)
    (c : Cursor) (terminator : Terminator) :
    c.close args terminator = ⟨first :: earlier, terminator, ⟨c.file, first.line⟩⟩ := by
  simp [Cursor.close, h]

theorem Lexeme.exists_cons {written : List UInt8} {value : String} {quoted : Bool}
    (h : Lexeme written value quoted) :
    ∃ b bs, written = b :: bs ∧ b ≠ Scan.hash ∧ b ∉ wordStops := by
  cases h with
  | @word b bs _ hquote hhash hunits =>
    refine ⟨b, bs, rfl, hhash, ?_⟩
    generalize Utf8.encode value.toList = meaning at hunits
    cases hunits with
    | plain hstop => exact hstop
    | pair => decide
  | @quoted quote inside _ hquote hunits =>
    refine ⟨quote, inside ++ [quote], rfl, ?_⟩
    simp only [quotes, List.mem_cons, List.not_mem_nil, or_false] at hquote
    rcases hquote with rfl | rfl <;> decide

theorem Lexeme.stands {written : List UInt8} {value : String} {quoted : Bool}
    (h : Lexeme written value quoted) (rest : List UInt8) : Stands (written ++ rest) := by
  obtain ⟨b, bs, rfl, hhash, hstop⟩ := h.exists_cons
  exact stands_cons.mpr ⟨fun hblank => hstop (List.mem_append_left _ hblank), hhash⟩

theorem stands_of_ends {b : UInt8} {terminator : Terminator} (h : (b, terminator) ∈ ends)
    (rest : List UInt8) : Stands (b :: rest) := by
  rw [stands_cons]
  simp only [ends, List.mem_cons, Prod.mk.injEq, List.not_mem_nil, or_false] at h
  rcases h with ⟨rfl, -⟩ | ⟨rfl, -⟩ <;> decide

theorem stands_closeBrace (rest : List UInt8) : Stands (closeBrace :: rest) :=
  stands_cons.mpr (by decide)

theorem follows_of_ends {b : UInt8} {terminator : Terminator} (h : (b, terminator) ∈ ends)
    (rest : List UInt8) : Follows (b :: rest) := by
  rw [follows_cons]
  simp only [ends, List.mem_cons, Prod.mk.injEq, List.not_mem_nil, or_false] at h
  rcases h with ⟨rfl, -⟩ | ⟨rfl, -⟩ <;> decide

theorem Separator.follows {gap : List UInt8} (h : Separator gap) (rest : List UInt8) :
    Follows (gap ++ rest) := by
  obtain ⟨hgap, b, hb, hblank⟩ := h
  intro b' hb'
  rw [List.head?_append, Option.mem_def.mp hb] at hb'
  obtain rfl : b = b' := Option.some.inj hb'
  exact .inl hblank

theorem Arguments.follows {line : Nat} {bs : List UInt8} {args : List Token}
    (h : Arguments line bs args) {b : UInt8} {terminator : Terminator}
    (hb : (b, terminator) ∈ ends) (rest : List UInt8) : Follows (bs ++ b :: rest) := by
  cases h with
  | nil => exact follows_of_ends hb rest
  | gap _ hgap => exact hgap.follows _
  | cons hgap => simpa only [List.append_assoc] using hgap.follows _

theorem readFrom_lexeme {args : List Token} {gap written rest : List UInt8} {value : String}
    {quoted : Bool} (hgap : Gap false gap) (hlexeme : Lexeme written value quoted)
    (hc : c.rest = gap ++ written ++ rest) (hrest : Follows rest) :
    c.readFrom args = (c.moved (gap ++ written) rest).readFrom
      (⟨value, c.line + lineFeeds gap, quoted⟩ :: args) := by
  rw [List.append_assoc] at hc
  have hskip := skipGap_of_gap hgap hc (by simp) (hlexeme.stands rest)
  obtain ⟨b, bs, rfl, -, hstop⟩ := hlexeme.exists_cons
  have hstart : c.skipGap.rest = b :: (bs ++ rest) := by rw [hskip]; rfl
  have hread := readToken_of_lexeme (c := c.skipGap) hlexeme hstart hrest
  rw [readFrom_token hstart hstop, hread, hskip, moved_moved]
  rfl

section

variable {b : UInt8} {terminator : Terminator} {rest : List UInt8} {args earlier : List Token}
  {first : Token}

theorem readFrom_gap {gap : List UInt8} (hgap : Gap false gap) (hb : (b, terminator) ∈ ends)
    (hargs : args.reverse = first :: earlier) (hc : c.rest = gap ++ b :: rest) :
    c.readFrom args = (.ok (some ⟨first :: earlier, terminator, ⟨c.file, first.line⟩⟩),
      c.moved (gap ++ [b]) rest) := by
  have hskip := skipGap_of_gap hgap hc (by simp) (stands_of_ends hb rest)
  have hne : args ≠ [] := by
    rintro rfl
    simp at hargs
  have hstart : c.skipGap.rest = b :: rest := by rw [hskip]; rfl
  rw [readFrom_ends hstart hb hne, close_eq hargs, hskip, moved_moved]
  rfl

theorem readFrom_of_arguments {line : Nat} {bs : List UInt8} {more : List Token}
    (h : Arguments line bs more) (hb : (b, terminator) ∈ ends)
    (hargs : args.reverse = first :: earlier) (hline : c.line = line)
    (hc : c.rest = bs ++ b :: rest) :
    c.readFrom args =
      (.ok (some ⟨first :: (earlier ++ more), terminator, ⟨c.file, first.line⟩⟩),
        c.moved (bs ++ [b]) rest) := by
  induction h generalizing c args earlier with
  | nil line => rw [readFrom_gap .nil hb hargs hc, List.append_nil]
  | gap line hgap => rw [readFrom_gap hgap.1 hb hargs hc, List.append_nil]
  | @cons line gap written bs value quoted more hgap hlexeme hrest ih =>
    rw [List.append_assoc] at hc
    have hargs' : ((⟨value, c.line + lineFeeds gap, quoted⟩ : Token) :: args).reverse =
        first :: (earlier ++ [⟨value, c.line + lineFeeds gap, quoted⟩]) := by
      rw [List.reverse_cons, hargs, List.cons_append]
    rw [readFrom_lexeme hgap.1 hlexeme hc (hrest.follows hb rest),
      ih hargs' (by simp only [Cursor.moved, hline]) rfl, moved_moved]
    simp only [List.append_assoc, List.cons_append, hline]
    rfl

end

/-- A form is read as the statement that it denotes, whatever the source holds behind it. -/
theorem next_of_form {written rest : List UInt8} {s : Statement}
    (h : Form c.file c.line written s) (hc : c.rest = written ++ rest) :
    c.next = (.ok (some s), c.moved written rest) := by
  unfold Cursor.next
  cases h with
  | @closing gap hgap =>
    rw [List.append_assoc] at hc
    have hskip := skipGap_of_gap hgap hc (by simp) (stands_closeBrace rest)
    have hstart : c.skipGap.rest = closeBrace :: rest := by rw [hskip]; rfl
    rw [readFrom_closeBrace hstart, hskip, moved_moved]
    rfl
  | @group gap written bs value quoted args b terminator hgap hlexeme hargs hend =>
    rw [List.append_assoc, List.append_assoc, List.singleton_append] at hc
    rw [readFrom_lexeme hgap hlexeme hc (hargs.follows hend rest),
      readFrom_of_arguments hargs hend rfl rfl rfl, moved_moved, ← List.append_assoc]
    rfl

theorem next_of_gap (h : Gap true c.rest) : c.next = (.ok none, c.moved c.rest []) := by
  have hskip := skipGap_of_gap h (List.append_nil c.rest).symm (fun _ => rfl) (by simp [Stands])
  have hstart : c.skipGap.rest = [] := by rw [hskip]; rfl
  rw [Cursor.next, readFrom_end hstart, hskip]

theorem mem_ends {b : UInt8} (h : b = semicolon ∨ b = openBrace) :
    (b, if b = semicolon then Terminator.semicolon else .openBrace) ∈ ends := by
  rcases h with rfl | rfl <;> decide

theorem not_mem_wordStops {b : UInt8} {bs : List UInt8} (hstands : Stands (b :: bs))
    (hends : ¬(b = semicolon ∨ b = openBrace)) (hclose : b ≠ closeBrace) : b ∉ wordStops := by
  have hblank := (stands_cons.mp hstands).1
  rw [not_or] at hends
  simp [wordStops, hblank, hends, hclose]

theorem readFrom_eq_some {args : List Token} {s : Statement}
    (h : c.readFrom args = (.ok (some s), d)) :
    (∃ b bs terminator, c.skipGap.rest = b :: bs ∧ (b, terminator) ∈ ends ∧ args ≠ [] ∧
      s = c.skipGap.close args terminator ∧ d = c.skipGap.moved [b] bs) ∨
    (∃ bs, c.skipGap.rest = closeBrace :: bs ∧ args = [] ∧
      s = c.skipGap.close [] .closeBrace ∧ d = c.skipGap.moved [closeBrace] bs) ∨
    ∃ b bs t next, c.skipGap.rest = b :: bs ∧ b ∉ wordStops ∧
      readToken c.skipGap = (.ok t, next) ∧ next.readFrom (t :: args) = (.ok (some s), d) := by
  obtain ⟨gap, -, -, hstands, -⟩ := exists_gap c
  rw [readFrom_eq] at h
  split at h
  · split at h <;> simp at h
  · next b bs hstart =>
    rw [hstart] at hstands
    split at h
    · next hb =>
      split at h
      · simp at h
      · next hne =>
        obtain ⟨hs, rfl⟩ := Prod.mk.inj h
        obtain rfl := Option.some.inj (Except.ok.inj hs)
        exact .inl ⟨b, bs, _, hstart, mem_ends hb, by simpa using hne, rfl, rfl⟩
    · next hb =>
      split at h
      · next hclose =>
        subst hclose
        split at h
        · next hempty =>
          obtain ⟨hs, rfl⟩ := Prod.mk.inj h
          obtain rfl := Option.some.inj (Except.ok.inj hs)
          exact .inr (.inl ⟨bs, hstart, by simpa using hempty, rfl, rfl⟩)
        · simp at h
      · next hclose =>
        have hstop := not_mem_wordStops hstands hb hclose
        split at h
        · simp at h
        · next t next hread => exact .inr (.inr ⟨b, bs, t, next, hstart, hstop, hread, h⟩)

theorem readFrom_eq_error {args : List Token} {f : Failure}
    (h : c.readFrom args = (.error f, d)) :
    f = .located .unexpectedEnd c.skipGap.location ∨
    (∃ b, f = .located (.unexpectedByte b) c.skipGap.location) ∨
    ∃ b bs, c.skipGap.rest = b :: bs ∧ b ∉ wordStops ∧
      (readToken c.skipGap = (.error f, d) ∨ ∃ t next, next.rest.length < c.rest.length ∧
        readToken c.skipGap = (.ok t, next) ∧ next.readFrom (t :: args) = (.error f, d)) := by
  obtain ⟨gap, -, -, hstands, -⟩ := exists_gap c
  rw [readFrom_eq] at h
  split at h
  · split at h
    · simp at h
    · exact .inl (Except.error.inj (Prod.mk.inj h).1).symm
  · next b bs hstart =>
    rw [hstart] at hstands
    split at h
    · split at h
      · exact .inr (.inl ⟨b, (Except.error.inj (Prod.mk.inj h).1).symm⟩)
      · simp at h
    · next hends =>
      split at h
      · split at h
        · simp at h
        · exact .inr (.inl ⟨b, (Except.error.inj (Prod.mk.inj h).1).symm⟩)
      · next hclose =>
        have hstop := not_mem_wordStops hstands hends hclose
        split at h
        · next g next hread =>
          obtain ⟨hg, rfl⟩ := Prod.mk.inj h
          obtain rfl := Except.error.inj hg
          exact .inr (.inr ⟨b, bs, hstart, hstop, .inl hread⟩)
        · next t next hread =>
          have hlt := rest_readToken_length_lt hstart hends hclose hread
          exact .inr (.inr ⟨b, bs, hstart, hstop, .inr ⟨t, next, hlt, hread, h⟩⟩)

theorem rest_ne_nil_of_readFrom {args : List Token} {s : Statement}
    (h : c.readFrom args = (.ok (some s), d)) : c.rest ≠ [] :=
  List.ne_nil_of_length_pos (Nat.zero_lt_of_lt (Cursor.rest_readFrom_length_lt h))

theorem exists_lexeme {b : UInt8} {bs : List UInt8} {t : Token} {next : Cursor}
    (hstart : c.skipGap.rest = b :: bs) (hstop : b ∉ wordStops)
    (hread : readToken c.skipGap = (.ok t, next)) (hne : next.rest ≠ []) :
    ∃ gap written value quoted, Gap false gap ∧ Lexeme written value quoted ∧
      c.rest = gap ++ written ++ next.rest ∧ next = c.moved (gap ++ written) next.rest ∧
      t = ⟨value, c.line + lineFeeds gap, quoted⟩ ∧ StopsWord next.rest := by
  obtain ⟨gap, hrest, hmoved, hstands, hgap⟩ := exists_gap c
  rw [hstart] at hstands hgap
  obtain ⟨⟨written, value, quoted, hlexeme, hwritten, ht, hnext⟩, hhead⟩ :=
    between_of_readToken (stands_cons.mp hstands).2 hstop hstart hread hne
  refine ⟨gap, written, value, quoted, hgap, hlexeme, ?_, ?_, ?_, hhead⟩
  · rw [hrest, hwritten, List.append_assoc]
  · rw [hmoved, moved_moved] at hnext
    exact hnext
  · rw [hmoved] at ht
    exact ht

theorem Separator.of_gap {b : UInt8} {gap : List UInt8} (h : Gap false (b :: gap))
    (hb : b ∈ wordStops) : Separator (b :: gap) := by
  refine ⟨h, b, rfl, ?_⟩
  generalize hwritten : b :: gap = written at h
  cases h with
  | nil => simp at hwritten
  | blank hblank =>
    obtain ⟨rfl, -⟩ := List.cons.inj hwritten
    exact hblank
  | comment =>
    obtain ⟨rfl, -⟩ := List.cons.inj hwritten
    exact absurd hb (by decide)
  | unended hend => simp at hend

theorem arguments_of_gap {gap rest : List UInt8} (h : Gap false gap)
    (hhead : StopsWord (gap ++ rest)) (line : Nat) : Arguments line gap [] := by
  cases gap with
  | nil => exact .nil line
  | cons b gap => exact .gap line (.of_gap h (stopsWord_cons.mp hhead))

theorem separator_of_gap {b : UInt8} {gap rest : List UInt8} (h : Gap false gap)
    (hstop : b ∉ wordStops) (hhead : StopsWord (gap ++ b :: rest)) : Separator gap := by
  cases gap with
  | nil => exact absurd (stopsWord_cons.mp hhead) hstop
  | cons b gap => exact .of_gap h (stopsWord_cons.mp hhead)

theorem separator_of_lexeme {gap written rest : List UInt8} {value : String} {quoted : Bool}
    (h : Gap false gap) (hlexeme : Lexeme written value quoted)
    (hhead : StopsWord (gap ++ written ++ rest)) : Separator gap := by
  obtain ⟨b, bs, rfl, -, hstop⟩ := hlexeme.exists_cons
  rw [List.append_assoc] at hhead
  exact separator_of_gap h hstop hhead

theorem arguments_of_readFrom {args earlier : List Token} {first : Token} {s : Statement}
    (h : c.readFrom args = (.ok (some s), d)) (hargs : args.reverse = first :: earlier)
    (hhead : StopsWord c.rest) :
    ∃ bs more b terminator, Arguments c.line bs more ∧ (b, terminator) ∈ ends ∧
      c.rest = bs ++ b :: d.rest ∧ d = c.moved (bs ++ [b]) d.rest ∧
      s = ⟨first :: (earlier ++ more), terminator, ⟨c.file, first.line⟩⟩ := by
  induction hlength : c.rest.length using Nat.strongRecOn generalizing c args earlier with
  | ind length ih =>
    rcases readFrom_eq_some h with ⟨b, bs, terminator, hstart, hb, -, rfl, rfl⟩ |
      ⟨bs, -, rfl, -⟩ | ⟨b, bs, t, next, hstart, hstop, hread, hlater⟩
    · obtain ⟨gap, hrest, hmoved, -, hgap⟩ := exists_gap c
      rw [hstart] at hrest hmoved hgap
      refine ⟨gap, [], b, terminator, ?_, hb, hrest, ?_, ?_⟩
      · exact arguments_of_gap hgap (hrest ▸ hhead) c.line
      · rw [hmoved, moved_moved]
        rfl
      · rw [close_eq hargs, List.append_nil, hmoved]
        rfl
    · simp at hargs
    · obtain ⟨gap, written, value, quoted, hgap, hlexeme, hrest, hnext, rfl, hhead'⟩ :=
        exists_lexeme hstart hstop hread (rest_ne_nil_of_readFrom hlater)
      have hsep := separator_of_lexeme hgap hlexeme (hrest ▸ hhead)
      have hlt : next.rest.length < length := by
        obtain ⟨b, bs, rfl, -, -⟩ := hlexeme.exists_cons
        rw [← hlength, hrest]
        simp
        omega
      have hargs' : ((⟨value, c.line + lineFeeds gap, quoted⟩ : Token) :: args).reverse =
          first :: (earlier ++ [⟨value, c.line + lineFeeds gap, quoted⟩]) := by
        rw [List.reverse_cons, hargs, List.cons_append]
      obtain ⟨bs, more, b, terminator, harguments, hb, hrest', hd, rfl⟩ :=
        ih next.rest.length hlt hlater hargs' hhead' rfl
      have hline : next.line = c.line + lineFeeds (gap ++ written) := by rw [hnext]; rfl
      have hfile : next.file = c.file := by rw [hnext]; rfl
      refine ⟨gap ++ written ++ bs, _, b, terminator, .cons hsep hlexeme (hline ▸ harguments), hb,
        ?_, ?_, ?_⟩
      · rw [hrest, hrest']
        simp only [List.append_assoc]
      · rw [hnext, moved_moved] at hd
        rw [hd]
        simp only [List.append_assoc]
        rfl
      · rw [hfile, List.append_assoc, List.singleton_append]

theorem form_of_next {s : Statement} (h : c.next = (.ok (some s), d)) :
    ∃ written, Form c.file c.line written s ∧ c.rest = written ++ d.rest ∧
      d = c.moved written d.rest := by
  rcases readFrom_eq_some h with ⟨b, bs, terminator, -, -, hne, -⟩ |
    ⟨bs, hstart, -, rfl, rfl⟩ | ⟨b, bs, t, next, hstart, hstop, hread, hlater⟩
  · exact absurd rfl hne
  · obtain ⟨gap, hrest, hmoved, -, hgap⟩ := exists_gap c
    rw [hstart] at hrest hmoved hgap
    refine ⟨gap ++ [closeBrace], ?_, ?_, ?_⟩
    · rw [hmoved]
      exact .closing hgap
    · rw [hrest, List.append_assoc]
      rfl
    · rw [hmoved, moved_moved]
      rfl
  · obtain ⟨gap, written, value, quoted, hgap, hlexeme, hrest, hnext, rfl, hhead⟩ :=
      exists_lexeme hstart hstop hread (rest_ne_nil_of_readFrom hlater)
    obtain ⟨bs, more, b, terminator, harguments, hb, hrest', hd, rfl⟩ :=
      arguments_of_readFrom hlater rfl hhead
    have hline : next.line = c.line + lineFeeds (gap ++ written) := by rw [hnext]; rfl
    have hfile : next.file = c.file := by rw [hnext]; rfl
    rw [hline] at harguments
    refine ⟨gap ++ written ++ bs ++ [b], ?_, ?_, ?_⟩
    · rw [hfile]
      exact .group hgap hlexeme harguments hb
    · rw [hrest, hrest']
      simp only [List.append_assoc]
      rfl
    · rw [hnext, moved_moved] at hd
      rw [hd]
      simp only [List.append_assoc]
      rfl

theorem args_of_readFrom_none {args : List Token} (h : c.readFrom args = (.ok none, d)) :
    args = [] ∧ c.skipGap.rest = [] ∧ d = c.skipGap := by
  fun_induction Cursor.readFrom c args with
  | case1 c args start hstart hempty =>
    obtain ⟨-, rfl⟩ := Prod.mk.inj h
    exact ⟨by simpa using hempty, hstart, rfl⟩
  | case8 c args start b bs hstart hends hclose hquote t next hread ih =>
    exact absurd (ih h).1 (List.cons_ne_nil t args)
  | case10 c args start b bs hstart hends hclose hquote t next hread ih =>
    exact absurd (ih h).1 (List.cons_ne_nil t args)
  | _ => simp at h

theorem gap_of_next (h : c.next = (.ok none, d)) : Gap true c.rest ∧ d = c.moved c.rest [] := by
  obtain ⟨-, hstart, rfl⟩ := args_of_readFrom_none h
  obtain ⟨gap, hrest, hmoved, -, hgap⟩ := exists_gap c
  rw [hstart, List.append_nil] at hrest
  rw [hstart] at hmoved hgap
  rw [hrest]
  exact ⟨hgap, hmoved⟩

theorem stream_of_forms {file : String} {line : Nat} {front rest : List UInt8}
    {ss : List Statement} (h : Forms file line front ss) (hfile : c.file = file)
    (hline : c.line = line) (hc : c.rest = front ++ rest) :
    c.stream = ⟨ss ++ (c.moved front rest).stream.statements,
      (c.moved front rest).stream.ending⟩ := by
  induction h generalizing c with
  | nil line =>
    obtain rfl : c.rest = rest := hc
    rfl
  | @cons line written front s ss hform _ ih =>
    rw [List.append_assoc] at hc
    subst hfile hline
    have hlater := ih (c := c.moved written (front ++ rest)) rfl rfl rfl
    rw [Cursor.stream_of_statement (next_of_form hform hc), hlater, moved_moved]
    rfl

theorem exists_forms (c : Cursor) :
    ∃ front rest, c.rest = front ++ rest ∧ Forms c.file c.line front c.stream.statements ∧
      ∀ finish, c.stream.ending = .ok finish →
        Gap true rest ∧ finish = ⟨c.file, c.line + lineFeeds c.rest⟩ := by
  induction hlength : c.rest.length using Nat.strongRecOn generalizing c with
  | ind length ih =>
    cases hnext : c.next with
    | mk result d =>
      match result with
      | .error f =>
        rw [Cursor.stream_of_error hnext]
        exact ⟨[], c.rest, rfl, .nil c.line, by simp⟩
      | .ok none =>
        obtain ⟨hgap, rfl⟩ := gap_of_next hnext
        rw [Cursor.stream_of_end hnext]
        refine ⟨[], c.rest, rfl, .nil c.line, fun finish hfinish => ⟨hgap, ?_⟩⟩
        exact (Except.ok.inj hfinish).symm
      | .ok (some s) =>
        have hlt := Cursor.rest_next_length_lt hnext
        obtain ⟨written, hform, hrest, hd⟩ := form_of_next hnext
        obtain ⟨front, rest, hfront, hforms, hend⟩ := ih d.rest.length (hlength ▸ hlt) d rfl
        have hline : d.line = c.line + lineFeeds written := by rw [hd]; rfl
        have hfile : d.file = c.file := by rw [hd]; rfl
        rw [hline, hfile] at hforms hend
        rw [Cursor.stream_of_statement hnext]
        refine ⟨written ++ front, rest, ?_, .cons hform hforms, fun finish hfinish => ?_⟩
        · rw [hrest, hfront, List.append_assoc]
        · obtain ⟨hgap, rfl⟩ := hend finish hfinish
          rw [hrest, lineFeeds_append, Nat.add_assoc]
          exact ⟨hgap, rfl⟩

theorem Units.of_plain {stops bs : List UInt8} (h : ∀ b ∈ bs, b ∉ stops ∧ b ≠ backslash) :
    Units stops bs bs := by
  induction bs with
  | nil => exact .nil
  | cons b bs ih =>
    obtain ⟨⟨hstop, hb⟩, hrest⟩ := List.forall_mem_cons.mp h
    exact .plain hstop hb (ih hrest)

/-- A source is read to its end exactly if it consists of forms and a last gap. In any case, the
statements of the longest sequence of forms that it begins with are delivered. -/
theorem reads_exactly_forms (file : String) (bytes : List UInt8) :
    (∀ ss finish, (Cursor.ofBytes file bytes).stream = ⟨ss, .ok finish⟩ ↔
      (∃ front gap, bytes = front ++ gap ∧ Forms file 1 front ss ∧ Gap true gap) ∧
        finish = ⟨file, 1 + lineFeeds bytes⟩) ∧
    (∃ front rest, bytes = front ++ rest ∧
      Forms file 1 front (Cursor.ofBytes file bytes).stream.statements) ∧
    ∀ front rest ss, bytes = front ++ rest → Forms file 1 front ss →
      ss <+: (Cursor.ofBytes file bytes).stream.statements := by
  obtain ⟨front, rest, hbytes, hforms, hend⟩ := exists_forms (.ofBytes file bytes)
  refine ⟨fun ss finish => ⟨fun h => ?_, fun h => ?_⟩, ⟨front, rest, hbytes, hforms⟩,
    fun front' rest' ss hbytes' hforms' => ?_⟩
  · rw [h] at hforms hend
    obtain ⟨hgap, hfinish⟩ := hend finish rfl
    exact ⟨⟨front, rest, hbytes, hforms, hgap⟩, hfinish⟩
  · obtain ⟨⟨front, gap, hbytes, hforms, hgap⟩, rfl⟩ := h
    have hstream := stream_of_forms hforms (c := .ofBytes file bytes) rfl rfl hbytes
    have hnext := next_of_gap (c := (Cursor.ofBytes file bytes).moved front gap) hgap
    rw [hstream, Cursor.stream_of_end hnext, List.append_nil, hbytes, lineFeeds_append,
      ← Nat.add_assoc]
    rfl
  · have hstream := stream_of_forms hforms' (c := .ofBytes file bytes) rfl rfl hbytes'
    rw [hstream]
    exact List.prefix_append ss _

theorem reads_exactly_forms_two_lines :
    (Cursor.ofBytes "server.conf" (Utf8.encode "# c\nuser\n\"a\\tb\";# end".toList)).stream =
      ⟨[⟨[⟨"user", 2, false⟩, ⟨"a\tb", 3, true⟩], .semicolon, ⟨"server.conf", 2⟩⟩],
        .ok ⟨"server.conf", 3⟩⟩ := by
  have hgap : Gap false (Utf8.encode "# c\n".toList) :=
    .comment (show lineFeed ∉ Utf8.encode " c".toList by decide) .nil
  have hword : Lexeme (Utf8.encode "user".toList) "user" false :=
    .word (by decide) (by decide) (.of_plain (by decide +kernel))
  have hline : Separator (Utf8.encode "\n".toList) :=
    ⟨.blank lineFeed_mem_blanks .nil, lineFeed, rfl, lineFeed_mem_blanks⟩
  have hunits : Units [doubleQuote] (Utf8.encode "a\\tb".toList) (Utf8.encode "a\tb".toList) :=
    .plain (by decide) (by decide) (.pair 0x74 (.of_plain (by decide +kernel)))
  have hquoted := Lexeme.quoted (show doubleQuote ∈ quotes by decide) hunits
  have hend : (semicolon, Terminator.semicolon) ∈ ends := by decide
  have hforms := @Forms.cons "server.conf" 1 _ _ _ _
    (.group hgap hword (.cons hline hquoted (.nil _)) hend) (.nil _)
  have hlast : Gap true (Utf8.encode "# end".toList) :=
    .unended rfl (show lineFeed ∉ Utf8.encode " end".toList by decide)
  refine ((reads_exactly_forms _ _).1 _ _).mpr ⟨⟨_, _, ?_, hforms, hlast⟩, ?_⟩
  · decide +kernel
  · decide +kernel

end ScopedConf.Grammar
