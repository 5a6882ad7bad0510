import ScopedConf.Text.Decimal

/-! Settings files: values, and what reading their text has to build on. Texts, whole numbers and
switches are kept; of other numbers and of dates only that they are there. -/

namespace ScopedConf

inductive Toml
  | text (s : String)
  | int (n : Int)
  | float
  | moment
  | bool (b : Bool)
  | list (items : List Toml)
  | table (members : List (String × Toml))

namespace Toml

abbrev Reader (α : Type) := List Char → Option (α × List Char)

def isSpace (c : Char) : Bool :=
  c == ' ' || c == '\t'

def skipSpaces (cs : List Char) : List Char :=
  cs.dropWhile isSpace

/-- Whether a character may stand for itself in texts and comments: a tab, or no control. -/
def isPlain (c : Char) : Bool :=
  c == '\t' || (' ' ≤ c && c ≠ '\x7f')

def newline? : List Char → Option (List Char)
  | '\n' :: cs => some cs
  | '\r' :: '\n' :: cs => some cs
  | _ => none

def skipComment : List Char → List Char
  | '#' :: cs => cs.dropWhile isPlain
  | cs => cs

def endLine? (cs : List Char) : Option (List Char) :=
  match skipComment (skipSpaces cs) with
  | [] => some []
  | rest => newline? rest

theorem tail_length_lt {cs rest : List Char} {mark : Char}
    (h : rest.head? = some mark ∧ rest.length ≤ cs.length) : rest.tail.length < cs.length := by
  obtain ⟨hmark, hle⟩ := h
  cases rest with
  | nil => simp at hmark
  | cons _ rest => exact Nat.lt_of_succ_le hle

/-- One item or more with a mark between them. A mark without an item behind it is left. -/
def separated {α : Type} (mark : Char) (item : Reader α) (cs : List Char) :
    Option (List α × List Char) :=
  match item cs with
  | none => none
  | some (a, rest) =>
    if _ : rest.head? = some mark ∧ rest.length ≤ cs.length then
      match separated mark item rest.tail with
      | some (as, last) => some (a :: as, last)
      | none => some ([a], rest)
    else some ([a], rest)
termination_by cs.length
decreasing_by exact tail_length_lt (by assumption)

theorem skipSpaces_length_le (cs : List Char) : (skipSpaces cs).length ≤ cs.length :=
  (List.dropWhile_suffix isSpace).length_le

theorem skipComment_length_le (cs : List Char) : (skipComment cs).length ≤ cs.length := by
  unfold skipComment
  split
  · exact Nat.le_succ_of_le (List.dropWhile_suffix isPlain).length_le
  · exact Nat.le_refl _

theorem newline?_length_lt {cs rest : List Char} (h : newline? cs = some rest) :
    rest.length < cs.length := by
  unfold newline? at h
  split at h
  · simp_all
  · simp only [Option.some.injEq] at h
    subst h
    simp only [List.length_cons]
    omega
  · simp at h

end Toml

end ScopedConf
