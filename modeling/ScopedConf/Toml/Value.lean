import ScopedConf.Toml.Moment
import ScopedConf.Toml.Number
import ScopedConf.Toml.Tree

/-! Values in settings files. -/

namespace ScopedConf.Toml

def skipGap (cs : List Char) : List Char :=
  match _ : newline? (skipComment (skipSpaces cs)) with
  | some rest => skipGap rest
  | none => skipSpaces cs
termination_by cs.length
decreasing_by
  have h₁ := newline?_length_lt (by assumption)
  have h₂ := skipComment_length_le (skipSpaces cs)
  have h₃ := skipSpaces_length_le cs
  omega

/-- A number, a date or a time; what can be read as a date is none of the others. -/
def readNumber (cs : List Char) : Option (Toml × List Char) :=
  (readMoment cs).map (fun (_, rest) => (moment, rest)) <|>
    (readFloat cs).map (fun (_, rest) => (float, rest)) <|>
      (readFloatWord cs).map (fun (_, rest) => (float, rest)) <|>
        (readInt cs).map fun (n, rest) => (int n, rest)

def readItems (item : Reader Toml) (cs : List Char) : Option (Toml × List Char) :=
  let spaced (cs : List Char) : Option (Toml × List Char) :=
    (item (skipGap cs)).map fun (v, rest) => (v, skipGap rest)
  let (items, rest) := (separated ',' spaced cs).getD ([], cs)
  let rest :=
    match items, rest with
    | _ :: _, ',' :: rest => rest
    | _, rest => rest
  match skipGap rest with
  | ']' :: rest => some (list items, rest)
  | _ => none

def readPair (item : Reader Toml) (cs : List Char) : Option ((List String × Toml) × List Char) := do
  let (key, rest) ← readKey cs
  match rest with
  | '=' :: rest => do
    let (v, rest) ← item (skipSpaces rest)
    return ((key, v), skipSpaces rest)
  | _ => none

def readMembers (item : Reader Toml) (cs : List Char) : Option (Toml × List Char) := do
  let (pairs, rest) := (separated ',' (readPair item) cs).getD ([], cs)
  match skipSpaces rest with
  | '\x7d' :: rest => do
    let tree ← pairs.foldlM (fun tree (key, v) => tree.define key v) Tree.empty
    return (tree.toToml, rest)
  | _ => none

/-- A value, in which lists and tables nest below `levels`. -/
def readValue : Nat → Reader Toml
  | levels, '[' :: cs =>
    match levels with
    | 0 => none
    | levels + 1 => readItems (readValue levels) cs
  | levels, '\x7b' :: cs =>
    match levels with
    | 0 => none
    | levels + 1 => readMembers (readValue levels) cs
  | _, 't' :: 'r' :: 'u' :: 'e' :: rest => some (bool true, rest)
  | _, 'f' :: 'a' :: 'l' :: 's' :: 'e' :: rest => some (bool false, rest)
  | _, cs =>
    (readText cs).map (fun (s, rest) => (text s, rest)) <|> readNumber cs

end ScopedConf.Toml
