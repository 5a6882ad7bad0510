import ScopedConf.Text.Hexadecimal
import ScopedConf.Toml.Basic

/-! Texts in settings files, between quotes or apostrophes, on one line or several; and keys. -/

namespace ScopedConf.Toml

def escape? : List Char → Option (Char × Nat)
  | 'b' :: _ => some ('\x08', 1)
  | 't' :: _ => some ('\t', 1)
  | 'n' :: _ => some ('\n', 1)
  | 'f' :: _ => some ('\x0c', 1)
  | 'r' :: _ => some ('\r', 1)
  | '"' :: _ => some ('"', 1)
  | '\\' :: _ => some ('\\', 1)
  | 'u' :: cs => (Text.codePoint? 4 cs).map fun c => (c, 5)
  | 'U' :: cs => (Text.codePoint? 8 cs).map fun c => (c, 9)
  | _ => none

/-- The rest of a text on one line, up to its closing mark. Only between quotes does a backslash
make escapes. -/
def lineBody (mark : Char) : Reader (List Char)
  | [] => none
  | c :: cs =>
    if c = mark then some ([], cs)
    else if c = '\\' ∧ mark = '"' then
      match escape? cs with
      | none => none
      | some (e, taken) => (lineBody mark (cs.drop taken)).map fun (body, rest) => (e :: body, rest)
    else if isPlain c then (lineBody mark cs).map fun (body, rest) => (c :: body, rest)
    else none
termination_by cs => cs.length
decreasing_by
  · simp only [List.length_drop, List.length_cons]
    omega
  · simp

/-- Three closing marks, in front of which one or two more belong to the text. -/
def closeBody? (mark : Char) (cs : List Char) : Option (List Char × List Char) :=
  let marks := (cs.take 5).takeWhile (· == mark)
  if marks.length < 3 then none else some (marks.drop 3, cs.drop marks.length)

def skipLines : List Char → List Char
  | '\r' :: '\n' :: cs => skipLines cs
  | c :: cs => if isSpace c || c == '\n' then skipLines cs else c :: cs
  | [] => []

/-- The text after a backslash at the end of a line, without the blanks and lines that follow. -/
def continued? (cs : List Char) : Option (List Char) :=
  (newline? (skipSpaces cs)).map skipLines

theorem skipLines_length_le (cs : List Char) : (skipLines cs).length ≤ cs.length := by
  fun_induction skipLines cs with
  | case1 cs ih =>
    simp only [List.length_cons]
    omega
  | case2 c cs _ _ ih =>
    simp only [List.length_cons]
    omega
  | case3 => exact Nat.le_refl _
  | case4 => exact Nat.le_refl _

theorem continued?_length_lt {cs rest : List Char} (h : continued? cs = some rest) :
    rest.length < cs.length := by
  obtain ⟨r, hr, rfl⟩ := Option.map_eq_some_iff.mp h
  have h₁ := skipLines_length_le r
  have h₂ := newline?_length_lt hr
  have h₃ := skipSpaces_length_le cs
  omega

def multiBody (mark : Char) (cs : List Char) : Option (List Char × List Char) :=
  match closeBody? mark cs with
  | some closed => some closed
  | none =>
    match _ : newline? cs with
    | some rest => (multiBody mark rest).map fun (body, rest) => ('\n' :: body, rest)
    | none =>
      match cs with
      | [] => none
      | c :: cs =>
        if c = '\\' ∧ mark = '"' then
          match _ : continued? cs with
          | some rest => multiBody mark rest
          | none =>
            match escape? cs with
            | none => none
            | some (e, taken) =>
              (multiBody mark (cs.drop taken)).map fun (body, rest) => (e :: body, rest)
        else if isPlain c then (multiBody mark cs).map fun (body, rest) => (c :: body, rest)
        else none
termination_by cs.length
decreasing_by
  · exact newline?_length_lt (by assumption)
  · exact Nat.lt_succ_of_lt (continued?_length_lt (by assumption))
  · simp only [List.length_drop, List.length_cons]
    omega
  · simp

/-- A text: three marks open several lines, of which an empty first one does not count. -/
def readText : Reader String
  | '"' :: '"' :: '"' :: cs => finish (multiBody '"' ((newline? cs).getD cs))
  | '\'' :: '\'' :: '\'' :: cs => finish (multiBody '\'' ((newline? cs).getD cs))
  | '"' :: cs => finish (lineBody '"' cs)
  | '\'' :: cs => finish (lineBody '\'' cs)
  | _ => none
where
  finish (r : Option (List Char × List Char)) : Option (String × List Char) :=
    r.map fun (body, rest) => (String.ofList body, rest)

def isBare (c : Char) : Bool :=
  Text.isDigit c || ('a' ≤ c && c ≤ 'z') || ('A' ≤ c && c ≤ 'Z') || c == '-' || c == '_'

def readKeyPart (cs : List Char) : Option (String × List Char) :=
  let part :=
    match skipSpaces cs with
    | '"' :: cs => lineBody '"' cs
    | '\'' :: cs => lineBody '\'' cs
    | cs =>
      if (cs.takeWhile isBare).isEmpty then none
      else some (cs.takeWhile isBare, cs.dropWhile isBare)
  part.map fun (body, rest) => (String.ofList body, skipSpaces rest)

/-- Keys and values lie below this many levels. -/
def maxDepth : Nat := 80

def readKey (cs : List Char) : Option (List String × List Char) :=
  (separated '.' readKeyPart cs).filter fun (parts, _) => parts.length < maxDepth

end ScopedConf.Toml
