import ScopedConf.Proofs.Encoding
import ScopedConf.Statement.Scan

/-! The grammar of statements, over the bytes of a source. Every form is related to what it denotes;
lines are counted from the line that the form begins on. -/

namespace ScopedConf.Grammar

open Scan

def blanks : List UInt8 := [0x20, 0x09, 0x0A, 0x0C, 0x0D]

def quotes : List UInt8 := [doubleQuote, singleQuote]

def wordStops : List UInt8 := blanks ++ [semicolon, openBrace, closeBrace]

/-- The bytes that mean something else behind a backslash: a tab, a carriage return, a line feed,
and the three that stand for themselves. -/
def escapes : List (UInt8 × UInt8) :=
  [(doubleQuote, doubleQuote), (singleQuote, singleQuote), (backslash, backslash),
    (0x74, 0x09), (0x72, 0x0D), (0x6E, 0x0A)]

def escaped (b : UInt8) : List UInt8 :=
  match escapes.lookup b with
  | some c => [c]
  | none => [backslash, b]

/-- Blanks and comments. A comment that no line feed ends has to end the input. -/
inductive Gap (atEnd : Bool) : List UInt8 → Prop
  | nil : Gap atEnd []
  | blank {b : UInt8} {gap : List UInt8} (hb : b ∈ blanks) (hgap : Gap atEnd gap) :
    Gap atEnd (b :: gap)
  | comment {text gap : List UInt8} (htext : lineFeed ∉ text) (hgap : Gap atEnd gap) :
    Gap atEnd (Scan.hash :: text ++ lineFeed :: gap)
  | unended {text : List UInt8} (hend : atEnd = true) (htext : lineFeed ∉ text) :
    Gap atEnd (Scan.hash :: text)

/-- Units of a token, with the bytes that they denote. A backslash takes any byte with it. -/
inductive Units (stops : List UInt8) : List UInt8 → List UInt8 → Prop
  | nil : Units stops [] []
  | plain {b : UInt8} {written meaning : List UInt8} (hstop : b ∉ stops) (hb : b ≠ backslash)
    (hrest : Units stops written meaning) : Units stops (b :: written) (b :: meaning)
  | pair (b : UInt8) {written meaning : List UInt8} (hrest : Units stops written meaning) :
    Units stops (backslash :: b :: written) (escaped b ++ meaning)

/-- Words and quoted tokens, with their values. -/
inductive Lexeme : List UInt8 → String → Bool → Prop
  | word {b : UInt8} {written : List UInt8} {value : String} (hquote : b ∉ quotes)
    (hhash : b ≠ hash) (hunits : Units wordStops (b :: written) (Utf8.encode value.toList)) :
    Lexeme (b :: written) value false
  | quoted {quote : UInt8} {inside : List UInt8} {value : String} (hquote : quote ∈ quotes)
    (hunits : Units [quote] inside (Utf8.encode value.toList)) :
    Lexeme (quote :: inside ++ [quote]) value true

def ends : List (UInt8 × Terminator) :=
  [(semicolon, .semicolon), (openBrace, .openBrace)]

def Separator (gap : List UInt8) : Prop :=
  Gap false gap ∧ ∃ b ∈ gap.head?, b ∈ blanks

/-- What stands between the first token of a statement and its end. -/
inductive Arguments : Nat → List UInt8 → List Token → Prop
  | nil (line : Nat) : Arguments line [] []
  | gap (line : Nat) {gap : List UInt8} (hgap : Separator gap) : Arguments line gap []
  | cons {line : Nat} {gap written rest : List UInt8} {value : String} {quoted : Bool}
    {args : List Token} (hgap : Separator gap) (hlexeme : Lexeme written value quoted)
    (hrest : Arguments (line + lineFeeds (gap ++ written)) rest args) :
    Arguments line (gap ++ written ++ rest) (⟨value, line + lineFeeds gap, quoted⟩ :: args)

/-- A closing brace, or a group of tokens that a semicolon or an opening brace ends. -/
inductive Form (file : String) : Nat → List UInt8 → Statement → Prop
  | closing {line : Nat} {gap : List UInt8} (hgap : Gap false gap) :
    Form file line (gap ++ [closeBrace]) ⟨[], .closeBrace, ⟨file, line + lineFeeds gap⟩⟩
  | group {line : Nat} {gap written rest : List UInt8} {value : String} {quoted : Bool}
    {args : List Token} {b : UInt8} {terminator : Terminator} (hgap : Gap false gap)
    (hlexeme : Lexeme written value quoted)
    (hargs : Arguments (line + lineFeeds (gap ++ written)) rest args)
    (hend : (b, terminator) ∈ ends) :
    Form file line (gap ++ written ++ rest ++ [b])
      ⟨⟨value, line + lineFeeds gap, quoted⟩ :: args, terminator, ⟨file, line + lineFeeds gap⟩⟩

inductive Forms (file : String) : Nat → List UInt8 → List Statement → Prop
  | nil (line : Nat) : Forms file line [] []
  | cons {line : Nat} {written rest : List UInt8} {s : Statement} {ss : List Statement}
    (hform : Form file line written s) (hrest : Forms file (line + lineFeeds written) rest ss) :
    Forms file line (written ++ rest) (s :: ss)

end ScopedConf.Grammar
