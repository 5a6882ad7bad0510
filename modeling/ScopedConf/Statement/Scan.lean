import ScopedConf.Failure

/-! Statements read from bytes. A cursor holds the bytes yet to be read and the line they start on;
one call reads one statement, and after a failure the cursor stands where the failure was seen. -/

namespace ScopedConf

namespace Scan

def lineFeed : UInt8 := 0x0A
def hash : UInt8 := 0x23
def doubleQuote : UInt8 := 0x22
def singleQuote : UInt8 := 0x27
def backslash : UInt8 := 0x5C
def semicolon : UInt8 := 0x3B
def openBrace : UInt8 := 0x7B
def closeBrace : UInt8 := 0x7D

/-- Space, tab, line feed, form feed and carriage return. -/
def isBlank (b : UInt8) : Bool :=
  b == 0x20 || b == 0x09 || b == 0x0A || b == 0x0C || b == 0x0D

/-- Whether an unquoted word stops in front of the byte. -/
def endsWord (b : UInt8) : Bool :=
  isBlank b || b == semicolon || b == openBrace || b == closeBrace

def isQuote (b : UInt8) : Bool :=
  b == doubleQuote || b == singleQuote

def lineFeeds (bs : List UInt8) : Nat :=
  bs.count lineFeed

/-- Passes over blanks and comments, counting lines. A comment ends in front of a line feed. -/
def skipGap (inComment : Bool) (line : Nat) : List UInt8 → Nat × List UInt8
  | [] => (line, [])
  | b :: bs =>
    if b = lineFeed then skipGap false (line + 1) bs
    else if inComment then skipGap true line bs
    else if b = hash then skipGap true line bs
    else if isBlank b then skipGap false line bs
    else (line, b :: bs)

/-- An unquoted word as it is written, and the bytes after it. A backslash takes the next byte
with it, whatever it is. -/
def splitWord : List UInt8 → List UInt8 × List UInt8
  | [] => ([], [])
  | [b] => if endsWord b then ([], [b]) else ([b], [])
  | b :: c :: bs =>
    if endsWord b then ([], b :: c :: bs)
    else if b = backslash then
      let (word, rest) := splitWord bs
      (b :: c :: word, rest)
    else
      let (word, rest) := splitWord (c :: bs)
      (b :: word, rest)

/-- The inside of a quoted token as it is written, and the bytes after the closing quote. -/
def splitQuoted? (quote : UInt8) : List UInt8 → Option (List UInt8 × List UInt8)
  | [] => none
  | [b] => if b = quote then some ([], []) else none
  | b :: c :: bs =>
    if b = quote then some ([], c :: bs)
    else if b = backslash then
      (splitQuoted? quote bs).map fun (inside, rest) => (b :: c :: inside, rest)
    else (splitQuoted? quote (c :: bs)).map fun (inside, rest) => (b :: inside, rest)

/-- What a backslash and the byte after it stand for. -/
def unescapeByte (b : UInt8) : List UInt8 :=
  if b = doubleQuote ∨ b = singleQuote ∨ b = backslash then [b]
  else if b = 0x74 then [0x09]
  else if b = 0x72 then [0x0D]
  else if b = 0x6E then [0x0A]
  else [backslash, b]

/-- The bytes that a written word or inside of a quoted token stands for. -/
def unescape : List UInt8 → List UInt8
  | [] => []
  | [b] => [b]
  | b :: c :: bs =>
    if b = backslash then unescapeByte c ++ unescape bs else b :: unescape (c :: bs)

theorem skipGap_length_le (inComment : Bool) (line : Nat) (bs : List UInt8) :
    (skipGap inComment line bs).2.length ≤ bs.length := by
  induction bs generalizing inComment line with
  | nil => simp [skipGap]
  | cons b bs ih =>
    unfold skipGap
    repeat' split
    all_goals simp only [List.length_cons]
    · exact Nat.le_succ_of_le (ih _ _)
    · exact Nat.le_succ_of_le (ih _ _)
    · exact Nat.le_succ_of_le (ih _ _)
    · exact Nat.le_succ_of_le (ih _ _)
    · exact Nat.le_refl _

theorem isBlank_head_skipGap {inComment : Bool} {line : Nat} {bs rest : List UInt8} {b : UInt8}
    (h : (skipGap inComment line bs).2 = b :: rest) : isBlank b = false := by
  induction bs generalizing inComment line with
  | nil => simp [skipGap] at h
  | cons c cs ih =>
    unfold skipGap at h
    split at h
    · exact ih h
    · split at h
      · exact ih h
      · split at h
        · exact ih h
        · split at h
          · exact ih h
          · next hb =>
            simp only [List.cons.injEq] at h
            simpa only [h.1, Bool.not_eq_true] using hb

theorem splitWord_length_le (bs : List UInt8) : (splitWord bs).2.length ≤ bs.length := by
  fun_induction splitWord bs with
  | case1 => simp
  | case2 => simp
  | case3 => simp
  | case4 => simp
  | case5 c bs word rest h _ ih =>
    rw [h] at ih
    simp only [List.length_cons]
    exact Nat.le_succ_of_le (Nat.le_succ_of_le ih)
  | case6 b c bs _ _ word rest h ih =>
    rw [h] at ih
    simp only [List.length_cons] at ih ⊢
    exact Nat.le_succ_of_le ih

theorem splitWord_length_lt {b : UInt8} {bs : List UInt8} (h : endsWord b = false) :
    (splitWord (b :: bs)).2.length < (b :: bs).length := by
  cases bs with
  | nil => simp [splitWord, h]
  | cons c bs =>
    unfold splitWord
    have h₁ := splitWord_length_le bs
    have h₂ := splitWord_length_le (c :: bs)
    simp only [h, Bool.false_eq_true, if_false, List.length_cons] at h₂ ⊢
    split
    · simp only
      omega
    · simp only
      omega

theorem splitQuoted?_length_lt {quote : UInt8} {bs inside rest : List UInt8}
    (h : splitQuoted? quote bs = some (inside, rest)) : rest.length < bs.length := by
  fun_induction splitQuoted? quote bs generalizing inside with
  | case1 => simp at h
  | case2 => simp_all
  | case3 => simp at h
  | case4 => simp_all
  | case5 c bs _ ih =>
    obtain ⟨⟨i, r⟩, hq, heq⟩ := Option.map_eq_some_iff.mp h
    simp only [Prod.mk.injEq] at heq
    have := ih (heq.2 ▸ hq)
    simp only [List.length_cons]
    omega
  | case6 b c bs _ _ ih =>
    obtain ⟨⟨i, r⟩, hq, heq⟩ := Option.map_eq_some_iff.mp h
    simp only [Prod.mk.injEq] at heq
    have := ih (heq.2 ▸ hq)
    simp only [List.length_cons] at this ⊢
    omega

end Scan

/-- The bytes of a source that are yet to be read, and the line on which they start. -/
structure Cursor where
  file : String
  line : Nat
  rest : List UInt8

namespace Cursor

open Scan

def ofBytes (file : String) (bytes : List UInt8) : Cursor := ⟨file, 1, bytes⟩

def location (c : Cursor) : Location := ⟨c.file, c.line⟩

/-- The cursor behind `passed`, with `rest` in front of it. -/
def moved (c : Cursor) (passed rest : List UInt8) : Cursor :=
  { c with line := c.line + lineFeeds passed, rest := rest }

def skipGap (c : Cursor) : Cursor :=
  let (line, rest) := Scan.skipGap false c.line c.rest
  { c with line := line, rest := rest }

def token (c : Cursor) (written : List UInt8) (quoted : Bool) : Except Failure Token :=
  match Utf8.decode? (unescape written) with
  | some value => .ok ⟨value, c.line, quoted⟩
  | none => .error (.located .invalidUtf8 c.location)

/-- Whether a quoted token may stand directly in front of the bytes. -/
def closesQuoted : List UInt8 → Except Cause Unit
  | [] => .ok ()
  | b :: _ =>
    if isBlank b || b == semicolon || b == openBrace then .ok () else .error (.byteAfterQuoted b)

/-- Reads a quoted token; the cursor stands on its opening quote, and `bs` follows. -/
def readQuoted (c : Cursor) (quote : UInt8) (bs : List UInt8) : Except Failure Token × Cursor :=
  match splitQuoted? quote bs with
  | none => (.error (.located .unexpectedEnd c.location), c.moved bs [])
  | some (inside, rest) =>
    let next := c.moved inside rest
    match c.token inside true with
    | .error f => (.error f, next)
    | .ok t =>
      match closesQuoted rest with
      | .error cause => (.error (.located cause next.location), next)
      | .ok () => (.ok t, next)

def readWord (c : Cursor) : Except Failure Token × Cursor :=
  let (word, rest) := splitWord c.rest
  (c.token word false, c.moved word rest)

theorem rest_skipGap_length_le (c : Cursor) : c.skipGap.rest.length ≤ c.rest.length :=
  skipGap_length_le _ _ _

theorem rest_readQuoted_length_lt {c next : Cursor} {quote : UInt8} {bs : List UInt8} {t : Token}
    (h : c.readQuoted quote bs = (.ok t, next)) : next.rest.length < bs.length := by
  unfold readQuoted at h
  split at h
  · simp at h
  · next inside rest hq =>
    have hlt := splitQuoted?_length_lt hq
    split at h
    · simp at h
    · split at h
      · simp at h
      · simp only [Prod.mk.injEq] at h
        rw [← h.2]
        exact hlt

theorem rest_readWord_length_lt {c : Cursor} {b : UInt8} {bs : List UInt8} (hr : c.rest = b :: bs)
    (hb : endsWord b = false) : c.readWord.2.rest.length < c.rest.length := by
  unfold readWord
  rw [hr]
  exact splitWord_length_lt hb

def close (c : Cursor) (args : List Token) (terminator : Terminator) : Statement :=
  let args := args.reverse
  ⟨args, terminator, ⟨c.file, (args.head?.map Token.line).getD c.line⟩⟩

theorem length_lt_of_rest_skipGap {c : Cursor} {b : UInt8} {bs : List UInt8}
    (hr : c.skipGap.rest = b :: bs) : bs.length < c.rest.length := by
  have hle := rest_skipGap_length_le c
  rwa [hr, List.length_cons] at hle

theorem rest_readWord_skipGap_length_lt {c next : Cursor} {b : UInt8} {bs : List UInt8} {t : Token}
    (hr : c.skipGap.rest = b :: bs) (hs : ¬(b = semicolon ∨ b = openBrace)) (hc : b ≠ closeBrace)
    (h : c.skipGap.readWord = (.ok t, next)) : next.rest.length < c.rest.length := by
  have hb : endsWord b = false := by
    have hblank : isBlank b = false := isBlank_head_skipGap hr
    rw [not_or] at hs
    simp [endsWord, hblank, hs.1, hs.2, hc]
  have hlt := rest_readWord_length_lt hr hb
  rw [h] at hlt
  exact Nat.lt_of_lt_of_le hlt (rest_skipGap_length_le c)

theorem rest_readQuoted_skipGap_length_lt {c next : Cursor} {b : UInt8} {bs : List UInt8}
    {t : Token} (hr : c.skipGap.rest = b :: bs) (h : c.skipGap.readQuoted b bs = (.ok t, next)) :
    next.rest.length < c.rest.length :=
  Nat.lt_trans (rest_readQuoted_length_lt h) (length_lt_of_rest_skipGap hr)

/-- Reads on to the end of a statement whose arguments so far are `args`, last one first. The end
of the input is no statement; it is a failure if there are arguments. -/
def readFrom (c : Cursor) (args : List Token) : Except Failure (Option Statement) × Cursor :=
  let start := c.skipGap
  match _ : start.rest with
  | [] =>
    if args.isEmpty then (.ok none, start)
    else (.error (.located .unexpectedEnd start.location), start)
  | b :: bs =>
    if _ : b = semicolon ∨ b = openBrace then
      if args.isEmpty then (.error (.located (.unexpectedByte b) start.location), start)
      else
        let terminator := if b = semicolon then Terminator.semicolon else .openBrace
        (.ok (some (start.close args terminator)), start.moved [b] bs)
    else if _ : b = closeBrace then
      if args.isEmpty then (.ok (some (start.close [] .closeBrace)), start.moved [b] bs)
      else (.error (.located (.unexpectedByte b) start.location), start)
    else if isQuote b then
      match _ : start.readQuoted b bs with
      | (.error f, next) => (.error f, next)
      | (.ok t, next) => readFrom next (t :: args)
    else
      match _ : start.readWord with
      | (.error f, next) => (.error f, next)
      | (.ok t, next) => readFrom next (t :: args)
termination_by c.rest.length
decreasing_by
  · exact rest_readQuoted_skipGap_length_lt (by assumption) (by assumption)
  · exact rest_readWord_skipGap_length_lt (by assumption) (by assumption) (by assumption)
      (by assumption)

/-- Reads the next statement; `none` is a clean end of the input. -/
def next (c : Cursor) : Except Failure (Option Statement) × Cursor :=
  c.readFrom []

theorem rest_readFrom_length_lt {c d : Cursor} {args : List Token} {s : Statement}
    (h : c.readFrom args = (.ok (some s), d)) : d.rest.length < c.rest.length := by
  fun_induction readFrom c args with
  | case1 => simp at h
  | case2 => simp at h
  | case3 => simp at h
  | case4 c args start b bs hr =>
    simp only [Prod.mk.injEq] at h
    exact h.2 ▸ length_lt_of_rest_skipGap hr
  | case5 c args start hempty bs hr =>
    simp only [Prod.mk.injEq] at h
    exact h.2 ▸ length_lt_of_rest_skipGap hr
  | case6 => simp at h
  | case7 => simp at h
  | case8 c args start b bs hr hs hc hq t next ht ih =>
    exact Nat.lt_trans (ih h) (rest_readQuoted_skipGap_length_lt hr ht)
  | case9 => simp at h
  | case10 c args start b bs hr hs hc hq t next ht ih =>
    exact Nat.lt_trans (ih h) (rest_readWord_skipGap_length_lt hr hs hc ht)

theorem rest_next_length_lt {c d : Cursor} {s : Statement} (h : c.next = (.ok (some s), d)) :
    d.rest.length < c.rest.length :=
  rest_readFrom_length_lt h

end Cursor

end ScopedConf
