import ScopedConf.Proofs.Calls

/-! Lines. Whatever is called and whether it succeeds, the cursor only moves on, and the line that
it counts is that of the byte in front of it; a token carries the line of its first byte. -/

namespace ScopedConf

open Scan Grammar

namespace Grammar

/-- Tokens in the bytes from the end of `before` to the end of `last`. Each carries the line of the
byte that it begins with. -/
inductive Laid : List UInt8 → List Token → List UInt8 → Prop
  | nil (before : List UInt8) : Laid before [] before
  | cons {before gap written last : List UInt8} {t : Token} {ts : List Token}
    (hgap : Gap false gap) (hlexeme : Lexeme written t.value t.quoted)
    (hline : t.line = 1 + lineFeeds (before ++ gap))
    (hrest : Laid (before ++ gap ++ written) ts last) : Laid before (t :: ts) last

variable {before last : List UInt8} {ts : List Token}

theorem Lexeme.ne_empty {written : List UInt8} {value : String}
    (h : Lexeme written value false) : value ≠ "" := by
  cases h with
  | word _ _ hunits =>
    rintro rfl
    change Units wordStops _ [] at hunits
    generalize hmeaning : ([] : List UInt8) = meaning at hunits
    cases hunits with
    | plain => simp at hmeaning
    | pair b =>
      unfold escaped at hmeaning
      split at hmeaning <;> simp at hmeaning

namespace Laid

theorem line_le (h : Laid before ts last) : ∀ t ∈ ts, 1 + lineFeeds before ≤ t.line := by
  induction h with
  | nil => simp
  | @cons before gap written last t ts _ _ hline _ ih =>
    rw [List.forall_mem_cons]
    rw [lineFeeds_append] at hline
    refine ⟨by omega, fun u hu => ?_⟩
    have hle := ih u hu
    rw [lineFeeds_append, lineFeeds_append] at hle
    omega

theorem pairwise (h : Laid before ts last) : ts.Pairwise fun t u => t.line ≤ u.line := by
  induction h with
  | nil => exact .nil
  | @cons before gap written last t ts _ _ hline hrest ih =>
    refine List.pairwise_cons.mpr ⟨fun u hu => ?_, ih⟩
    have hle := hrest.line_le u hu
    rw [lineFeeds_append] at hle
    omega

theorem ne_empty (h : Laid before ts last) : ∀ t ∈ ts, t.quoted = false → t.value ≠ "" := by
  induction h with
  | nil => simp
  | cons _ hlexeme _ _ ih =>
    rw [List.forall_mem_cons]
    refine ⟨fun hquoted => ?_, ih⟩
    rw [hquoted] at hlexeme
    exact hlexeme.ne_empty

end Laid

theorem laid_of_arguments {line : Nat} {bs : List UInt8} (h : Arguments line bs ts)
    (hline : line = 1 + lineFeeds before) :
    ∃ last gap, Laid before ts last ∧ Gap false gap ∧ before ++ bs = last ++ gap := by
  induction h generalizing before with
  | nil => exact ⟨before, [], .nil before, .nil, rfl⟩
  | gap line hgap => exact ⟨before, _, .nil before, hgap.1, rfl⟩
  | @cons line gap written rest value quoted args hgap hlexeme hrest ih =>
    have hbehind : line + lineFeeds (gap ++ written) =
        1 + lineFeeds (before ++ gap ++ written) := by
      rw [List.append_assoc, lineFeeds_append before, hline, Nat.add_assoc]
    obtain ⟨last, later, hlaid, hlater, hbytes⟩ := ih hbehind
    refine ⟨last, later, .cons hgap.1 hlexeme ?_ hlaid, hlater, ?_⟩
    · rw [lineFeeds_append, hline, Nat.add_assoc]
    · rw [← hbytes]
      simp only [List.append_assoc]

end Grammar

/-- The statement was read from `taken`, with `before` in front of it: its tokens, and the byte that
ends it. A closing brace is blamed on its own line, any other statement on that of its first
token. -/
structure Statement.Placed (s : Statement) (file : String) (before taken : List UInt8) : Prop where
  bytes : ∃ last gap b, before ++ taken = last ++ gap ++ [b] ∧ Laid before s.args last ∧
    Gap false gap ∧ (b, s.terminator) ∈ (closeBrace, .closeBrace) :: Grammar.ends ∧
      (s.terminator = .closeBrace →
        s.args = [] ∧ s.location = ⟨file, 1 + lineFeeds (last ++ gap)⟩)
  first : s.terminator ≠ .closeBrace → ∃ t ts, s.args = t :: ts ∧ s.location = ⟨file, t.line⟩
  ascending : s.args.Pairwise fun t u => t.line ≤ u.line
  nonempty : ∀ t ∈ s.args, t.quoted = false → t.value ≠ ""

namespace Grammar

theorem ne_closeBrace_of_ends {b : UInt8} {terminator : Terminator}
    (h : (b, terminator) ∈ Grammar.ends) : terminator ≠ .closeBrace := by
  simp only [Grammar.ends, List.mem_cons, Prod.mk.injEq, List.not_mem_nil, or_false] at h
  rcases h with ⟨-, rfl⟩ | ⟨-, rfl⟩ <;> decide

theorem placed_of_form {file : String} {line : Nat} {before taken : List UInt8} {s : Statement}
    (h : Form file line taken s) (hline : line = 1 + lineFeeds before) :
    s.Placed file before taken := by
  cases h with
  | @closing gap hgap =>
    have hbrace : (⟨file, line + lineFeeds gap⟩ : Location) =
        ⟨file, 1 + lineFeeds (before ++ gap)⟩ := by
      rw [lineFeeds_append, hline, Nat.add_assoc]
    refine ⟨⟨before, gap, closeBrace, ?_, .nil before, hgap, List.mem_cons_self, fun _ => ?_⟩,
      fun hne => absurd rfl hne, .nil, by simp⟩
    · rw [List.append_assoc]
    · exact ⟨rfl, hbrace⟩
  | @group gap written rest value quoted args b terminator hgap hlexeme hargs hend =>
    have hfirst : line + lineFeeds gap = 1 + lineFeeds (before ++ gap) := by
      rw [lineFeeds_append, hline, Nat.add_assoc]
    have hbehind : line + lineFeeds (gap ++ written) =
        1 + lineFeeds (before ++ gap ++ written) := by
      rw [List.append_assoc, lineFeeds_append before, hline, Nat.add_assoc]
    obtain ⟨last, later, hrest, hlater, hbytes⟩ := laid_of_arguments hargs hbehind
    have hlaid : Laid before (⟨value, line + lineFeeds gap, quoted⟩ :: args) last :=
      .cons hgap hlexeme hfirst hrest
    have hne := ne_closeBrace_of_ends hend
    refine ⟨⟨last, later, b, ?_, hlaid, hlater, List.mem_cons_of_mem _ hend, fun heq => ?_⟩,
      fun _ => ⟨_, _, rfl, rfl⟩, hlaid.pairwise, hlaid.ne_empty⟩
    · rw [← hbytes]
      simp only [List.append_assoc]
    · exact absurd heq hne

end Grammar

namespace Cursor

/-- After any calls on a source, some bytes are passed and the cursor counts their line feeds. The
next call takes some of the bytes that are left, and if it returns a statement, that is where it
stands. -/
theorem lines_tracked (file : String) (bytes : List UInt8) (n : Nat) :
    let c := (ofBytes file bytes).behind n
    let next := (ofBytes file bytes).behind (n + 1)
    ∃ before taken, bytes = before ++ c.rest ∧ c.rest = taken ++ next.rest ∧
      c.location = ⟨file, 1 + lineFeeds before⟩ ∧
      next.location = ⟨file, 1 + lineFeeds (before ++ taken)⟩ ∧
      ∀ s, c.next.1 = .ok (some s) → s.Placed file before taken := by
  intro c next
  obtain ⟨before, hbytes, hc⟩ := (ofBytes file bytes).movesTo_behind n
  change bytes = before ++ c.rest at hbytes
  change c = (ofBytes file bytes).moved before c.rest at hc
  have hfile : c.file = file := by
    rw [hc]
    rfl
  have hline : c.line = 1 + lineFeeds before := by
    rw [hc]
    rfl
  have hnext : next = c.next.2 := behind_succ _ n
  obtain ⟨taken, hrest, hmoved⟩ := c.movesTo_readFrom []
  rw [← Cursor.next, ← hnext] at hrest hmoved
  refine ⟨before, taken, hbytes, hrest, ?_, ?_, fun s hs => ?_⟩
  · rw [location, hfile, hline]
  · rw [hmoved, location, moved, hfile, hline, lineFeeds_append, Nat.add_assoc]
  · obtain ⟨written, hform, hwritten, -⟩ := form_of_next (Prod.ext hs rfl : c.next = (_, c.next.2))
    rw [← hnext, hrest] at hwritten
    obtain rfl := List.append_cancel_right hwritten
    rw [hfile] at hform
    exact placed_of_form hform hline

/-- The first call fails behind the quoted token; the next one reads on from there. -/
theorem lines_tracked_behind_failure :
    let bytes := Utf8.encode "'a\n'x\n\"b\n\" c;".toList
    let s : Statement :=
      ⟨[⟨"x", 2, false⟩, ⟨"b\n", 3, true⟩, ⟨"c", 4, false⟩], .semicolon, ⟨"server.conf", 2⟩⟩
    ((ofBytes "server.conf" bytes).replies 2) =
      [.error (.located (.byteAfterQuoted 0x78) ⟨"server.conf", 2⟩), .ok (some s)] ∧
    ∃ before taken, bytes = before ++ taken ∧ s.Placed "server.conf" before taken := by
  intro bytes s
  have hreplies : (ofBytes "server.conf" bytes).replies 2 =
      [.error (.located (.byteAfterQuoted 0x78) ⟨"server.conf", 2⟩), .ok (some s)] := by
    decide +kernel
  have hsecond : ((ofBytes "server.conf" bytes).behind 1).next.1 = .ok (some s) := by
    decide +kernel
  have hend : ((ofBytes "server.conf" bytes).behind 2).rest = [] := by decide +kernel
  obtain ⟨before, taken, hbefore, htaken, -, -, hplaced⟩ := lines_tracked "server.conf" bytes 1
  rw [hend, List.append_nil] at htaken
  exact ⟨hreplies, before, taken, htaken ▸ hbefore, hplaced s hsecond⟩

end Cursor

end ScopedConf
