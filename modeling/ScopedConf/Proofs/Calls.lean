import Mathlib.Control.Monad.Basic
import ScopedConf.Proofs.Faults

/-! Calls of the reader, one after the other. A call knows nothing of the calls before it but where
the cursor stands, and nothing of the bytes behind the statement that it returns. -/

namespace ScopedConf

open Scan Grammar

/-- What a call replies: a statement, the end of the input, or a failure. -/
abbrev Reply := Except Failure (Option Statement)

section

variable (k : Nat)

def Location.down (l : Location) : Location := ⟨l.file, l.line + k⟩

def Token.down (t : Token) : Token := { t with line := t.line + k }

def Statement.down (s : Statement) : Statement :=
  ⟨s.args.map (Token.down k), s.terminator, s.location.down k⟩

def Failure.down (f : Failure) : Failure := { f with location := f.location.map (Location.down k) }

/-- A result `k` lines further down, where `lower` does this to a value. -/
def lowered {α : Type} (lower : α → α) : Except Failure α → Except Failure α
  | .error f => .error (f.down k)
  | .ok a => .ok (lower a)

def Reply.down : Reply → Reply :=
  lowered k (Option.map (Statement.down k))

def Cursor.down (c : Cursor) : Cursor := { c with line := c.line + k }

end

namespace Cursor

variable {c d : Cursor} {args : List Token}

/-- The cursor behind `n` calls. A call that fails leaves it where the failure was seen. -/
def behind (c : Cursor) : Nat → Cursor
  | 0 => c
  | n + 1 => c.next.2.behind n

def replies (c : Cursor) : Nat → List Reply
  | 0 => []
  | n + 1 => c.next.1 :: c.next.2.replies n

theorem behind_add (c : Cursor) (m n : Nat) : c.behind (m + n) = (c.behind m).behind n := by
  induction m generalizing c with
  | zero => rw [Nat.zero_add, behind]
  | succ m ih => rw [Nat.add_right_comm, behind, behind, ih]

theorem behind_succ (c : Cursor) (n : Nat) : c.behind (n + 1) = (c.behind n).next.2 :=
  c.behind_add n 1

theorem replies_add (c : Cursor) (m n : Nat) :
    c.replies (m + n) = c.replies m ++ (c.behind m).replies n := by
  induction m generalizing c with
  | zero => rw [Nat.zero_add, behind, replies, List.nil_append]
  | succ m ih => rw [Nat.add_right_comm, replies, replies, behind, ih, List.cons_append]

theorem movesTo_behind (c : Cursor) (n : Nat) : c.MovesTo (c.behind n) := by
  induction n generalizing c with
  | zero => exact .refl c
  | succ n ih => exact (c.movesTo_readFrom []).trans (ih c.next.2)

section

variable (k : Nat)

theorem down_moved (c : Cursor) (passed rest : List UInt8) :
    (c.down k).moved passed rest = (c.moved passed rest).down k := by
  simp only [moved, down, Nat.add_right_comm]

theorem skipGap_down (c : Cursor) : (c.down k).skipGap = c.skipGap.down k := by
  obtain ⟨gap, hrest, hmoved, hstands, hgap⟩ := exists_gap c
  have hskip := skipGap_of_gap (c := c.down k) hgap hrest (by simp) hstands
  rw [hskip, down_moved, ← hmoved]

theorem token_down (c : Cursor) (written : List UInt8) (quoted : Bool) :
    (c.down k).token written quoted = lowered k (Token.down k) (c.token written quoted) := by
  unfold token
  split <;> rfl

theorem readQuoted_down (c : Cursor) (quote : UInt8) (bs : List UInt8) :
    (c.down k).readQuoted quote bs =
      (lowered k (Token.down k) (c.readQuoted quote bs).1, (c.readQuoted quote bs).2.down k) := by
  unfold readQuoted
  cases splitQuoted? quote bs with
  | none =>
    simp only [down_moved]
    rfl
  | some split =>
    obtain ⟨inside, rest⟩ := split
    simp only [token_down, down_moved]
    cases c.token inside true with
    | error f => rfl
    | ok t =>
      cases closesQuoted rest with
      | error cause => rfl
      | ok done => rfl

theorem readToken_down (c : Cursor) :
    readToken (c.down k) = (lowered k (Token.down k) (readToken c).1, (readToken c).2.down k) := by
  have hword : (c.down k).readWord =
      (lowered k (Token.down k) c.readWord.1, c.readWord.2.down k) := by
    unfold readWord
    simp only [token_down, down_moved]
    rfl
  have hrest : (c.down k).rest = c.rest := rfl
  cases hc : c.rest with
  | nil =>
    simp only [readToken, hrest, hc]
    exact hword
  | cons b bs =>
    simp only [readToken, hrest, hc]
    split
    · exact c.readQuoted_down k b bs
    · exact hword

theorem close_down (c : Cursor) (args : List Token) (terminator : Terminator) :
    (c.down k).close (args.map (Token.down k)) terminator =
      (c.close args terminator).down k := by
  unfold close Statement.down
  rw [← List.map_reverse]
  cases args.reverse <;> rfl

theorem readFrom_down (c : Cursor) (args : List Token) :
    (c.down k).readFrom (args.map (Token.down k)) =
      (Reply.down k (c.readFrom args).1, (c.readFrom args).2.down k) := by
  induction hlength : c.rest.length using Nat.strongRecOn generalizing c args with
  | ind length ih =>
    have hrest : (c.skipGap.down k).rest = c.skipGap.rest := rfl
    rw [readFrom_eq, readFrom_eq c args, skipGap_down, hrest]
    simp only [List.isEmpty_map, down_moved]
    cases hstart : c.skipGap.rest with
    | nil =>
      simp only
      split <;> rfl
    | cons b bs =>
      simp only
      by_cases hends : b = semicolon ∨ b = openBrace
      · simp only [if_pos hends, close_down]
        split <;> rfl
      · by_cases hclose : b = closeBrace
        · simp only [if_neg hends, if_pos hclose]
          split <;> rfl
        · simp only [if_neg hends, if_neg hclose, readToken_down]
          cases hread : readToken c.skipGap with
          | mk read d =>
            cases read with
            | error f => rfl
            | ok t =>
              have hlt : d.rest.length < c.rest.length :=
                rest_readToken_length_lt hstart hends hclose hread
              exact ih _ (hlength ▸ hlt) d (t :: args) rfl

theorem next_down (c : Cursor) :
    (c.down k).next = (Reply.down k c.next.1, c.next.2.down k) :=
  c.readFrom_down k []

theorem behind_down (c : Cursor) (n : Nat) : (c.down k).behind n = (c.behind n).down k := by
  induction n generalizing c with
  | zero => rfl
  | succ n ih => rw [behind, behind, next_down, ih]

theorem replies_down (c : Cursor) (n : Nat) :
    (c.down k).replies n = (c.replies n).map (Reply.down k) := by
  induction n generalizing c with
  | zero => rfl
  | succ n ih => rw [replies, replies, next_down, ih, List.map_cons]

end

theorem replies_append {front : List UInt8} {ss : List Statement} (hc : c.rest = front)
    (hreplies : c.replies ss.length = ss.map fun s => .ok (some s))
    (hend : (c.behind ss.length).rest = []) (back : List UInt8) :
    let longer : Cursor := { c with rest := front ++ back }
    longer.replies ss.length = c.replies ss.length ∧
      longer.behind ss.length = c.moved front back := by
  induction ss generalizing c front with
  | nil =>
    obtain rfl : front = [] := hc.symm.trans hend
    exact ⟨rfl, rfl⟩
  | cons s ss ih =>
    obtain ⟨hfirst, hlater⟩ := List.cons.inj hreplies
    have hnext : c.next = (.ok (some s), c.next.2) := Prod.ext hfirst rfl
    obtain ⟨written, hform, hrest, hmoved⟩ := form_of_next hnext
    have hlonger : Cursor.next { c with rest := front ++ back } =
        (.ok (some s), c.moved written (c.next.2.rest ++ back)) := by
      refine next_of_form hform ?_
      rw [← hc, hrest, List.append_assoc]
    have hsame : ({ c.next.2 with rest := c.next.2.rest ++ back } : Cursor) =
        c.moved written (c.next.2.rest ++ back) := by
      rw [hmoved]
      rfl
    obtain ⟨hreplies', hbehind⟩ := ih rfl hlater hend
    rw [hsame] at hreplies' hbehind
    refine ⟨?_, ?_⟩
    · rw [List.length_cons, replies, replies, hlonger, hreplies', hfirst]
    · have hback : c.next.2.moved c.next.2.rest back = c.moved (written ++ c.next.2.rest) back := by
        rw [← moved_moved, ← hmoved]
      rw [List.length_cons, behind, hlonger, hbehind, hback, ← hrest, hc]

/-- If a source consists of statements, of which the last one ends with its last byte, then these
are read in the same way with any other bytes behind them. The calls after them reply what they
would reply on the other bytes alone, on lines further down by as many as the source ended. -/
theorem reading_is_local (file : String) (front back : List UInt8) (ss : List Statement)
    (hreplies : (ofBytes file front).replies ss.length = ss.map fun s => .ok (some s))
    (hend : ((ofBytes file front).behind ss.length).rest = []) :
    let whole := ofBytes file (front ++ back)
    whole.replies ss.length = (ss.map fun s => .ok (some s)) ∧
    whole.behind ss.length = ⟨file, 1 + lineFeeds front, back⟩ ∧
    ∀ n, whole.replies (ss.length + n) = (ss.map fun s => .ok (some s)) ++
        ((ofBytes file back).replies n).map (Reply.down (lineFeeds front)) ∧
      whole.behind (ss.length + n) = ((ofBytes file back).behind n).down (lineFeeds front) := by
  intro whole
  obtain ⟨hsame, hbehind⟩ := replies_append rfl hreplies hend back
  have hfront : whole.replies ss.length = ss.map fun s => .ok (some s) := hsame.trans hreplies
  have hseam : whole.behind ss.length = (ofBytes file back).down (lineFeeds front) := hbehind
  refine ⟨hfront, hseam, fun n => ⟨?_, ?_⟩⟩
  · rw [replies_add, hfront, hseam, replies_down]
  · rw [behind_add, hseam, behind_down]

/-- The other bytes may hold a token that is never closed. -/
theorem reading_is_local_unclosed :
    let front := Utf8.encode "user a;\nhttp \x7b".toList
    let back := Utf8.encode "\n\n 'b".toList
    let ss : List Statement :=
      [⟨[⟨"user", 1, false⟩, ⟨"a", 1, false⟩], .semicolon, ⟨"server.conf", 1⟩⟩,
        ⟨[⟨"http", 2, false⟩], .openBrace, ⟨"server.conf", 2⟩⟩]
    (ofBytes "server.conf" (front ++ back)).replies 3 =
      (ss.map fun s => .ok (some s)) ++ [.error (.located .unexpectedEnd ⟨"server.conf", 4⟩)] := by
  intro front back ss
  have hreplies : (ofBytes "server.conf" front).replies ss.length =
      ss.map fun s => .ok (some s) := by decide +kernel
  have hend : ((ofBytes "server.conf" front).behind ss.length).rest = [] := by decide +kernel
  have hback : (ofBytes "server.conf" back).replies 1 =
      [.error (.located .unexpectedEnd ⟨"server.conf", 3⟩)] := by decide +kernel
  have hlines : lineFeeds front = 1 := by decide
  obtain ⟨-, -, hlater⟩ := reading_is_local "server.conf" front back ss hreplies hend
  have hthree := (hlater 1).1
  rw [hback, hlines] at hthree
  exact hthree

end Cursor

end ScopedConf
