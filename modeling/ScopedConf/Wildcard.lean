/-! Wildcard patterns. `?` stands for one character, a bracket for one out of a set, `*` for any
text, and two stars for any number of whole parts of a path. -/

namespace ScopedConf

namespace Wildcard

inductive Item
  | char (c : Char)
  | one
  | set (negated : Bool) (ranges : List (Char × Char))
  | many
  | deep
  deriving DecidableEq

/-- Why a text is no pattern; positions count characters from 0. -/
inductive Fault
  | stars (position : Nat)
  | deepInPart (position : Nat)
  | range (position : Nat)
  deriving DecidableEq

def Fault.position : Fault → Nat
  | stars n => n
  | deepInPart n => n
  | range n => n

def Fault.reason : Fault → String
  | stars _ => "wildcards are either regular `*` or recursive `**`"
  | deepInPart _ => "recursive wildcards must form a single path component"
  | range _ => "invalid range pattern"

def Fault.message (f : Fault) : String :=
  s!"Pattern syntax error near position {f.position}: {f.reason}"

def ranges : List Char → List (Char × Char)
  | a :: '-' :: b :: cs => (a, b) :: ranges cs
  | a :: cs => (a, a) :: ranges cs
  | [] => []

/-- The inside of a bracket, which holds at least one character, and the text after it. -/
def splitSet? : List Char → Option (List Char × List Char)
  | [] => none
  | c :: cs =>
    match cs.dropWhile (· ≠ ']') with
    | [] => none
    | _ :: rest => some (c :: cs.takeWhile (· ≠ ']'), rest)

theorem splitSet?_length_lt {cs inside rest : List Char}
    (h : splitSet? cs = some (inside, rest)) : rest.length < cs.length := by
  cases cs with
  | nil => simp [splitSet?] at h
  | cons c cs =>
    simp only [splitSet?] at h
    split at h
    · simp at h
    · next d rest' hd =>
      simp only [Option.some.injEq, Prod.mk.injEq] at h
      have hle := (List.dropWhile_suffix (· ≠ ']') (l := cs)).length_le
      rw [hd] at hle
      simp only [List.length_cons] at hle ⊢
      rw [← h.2]
      omega

/-- The items of the text `cs`, which ends a pattern of `total` characters; `opens` says whether
a part of a path starts here. -/
def compile (total : Nat) (opens : Bool) (cs : List Char) : Except Fault (List Item) :=
  let position := total - cs.length
  match cs with
  | [] => .ok []
  | '?' :: cs => (compile total false cs).map (.one :: ·)
  | '*' :: '*' :: '*' :: _ => .error (.stars (position + 2))
  | '*' :: '*' :: cs =>
    if opens then
      match cs with
      | [] => .ok [.deep]
      | '/' :: cs => (compile total true cs).map (.deep :: ·)
      | _ => .error (.deepInPart (position + 2))
    else .error (.deepInPart (position - 1))
  | '*' :: cs => (compile total false cs).map (.many :: ·)
  | '[' :: '!' :: cs =>
    match _ : splitSet? cs with
    | none => .error (.range position)
    | some (inside, rest) => (compile total false rest).map (.set true (ranges inside) :: ·)
  | '[' :: cs =>
    match _ : splitSet? cs with
    | none => .error (.range position)
    | some (inside, rest) => (compile total false rest).map (.set false (ranges inside) :: ·)
  | c :: cs => (compile total (c == '/') cs).map (.char c :: ·)
termination_by cs.length
decreasing_by
  · simp
  · simp only [List.length_cons]
    omega
  · simp
  · exact Nat.lt_succ_of_lt (Nat.lt_succ_of_lt (splitSet?_length_lt (by assumption)))
  · exact Nat.lt_succ_of_lt (splitSet?_length_lt (by assumption))
  · simp

end Wildcard

structure Wildcard where
  items : List Wildcard.Item

namespace Wildcard

def ofText (s : String) : Except Fault Wildcard :=
  (compile s.length true s.toList).map Wildcard.mk

def Item.accepts (c : Char) : Item → Bool
  | char d => c == d
  | one => true
  | set negated ranges => (ranges.any fun (low, high) => low ≤ c && c ≤ high) != negated
  | many => false
  | deep => false

def suffixes : List Char → List (List Char)
  | [] => [[]]
  | c :: cs => (c :: cs) :: suffixes cs

def afterSlashes : List Char → List (List Char)
  | [] => []
  | c :: cs => if c = '/' then cs :: afterSlashes cs else afterSlashes cs

/-- Two stars match nothing, a text that ends in a slash, or all that is left. -/
def matchItems : List Item → List Char → Bool
  | [], cs => cs.isEmpty
  | .many :: items, cs => (suffixes cs).any fun rest => matchItems items rest
  | .deep :: items, cs =>
    matchItems items cs || (afterSlashes cs).any (fun rest => matchItems items rest) ||
      matchItems items []
  | item :: items, c :: cs => item.accepts c && matchItems items cs
  | _ :: _, [] => false

/-- At each place, whether something holds there or later. -/
def orLater : List Bool → List Bool
  | [] => []
  | here :: rest =>
    let later := orLater rest
    (here || later.headD false) :: later

/-- At each place of a text, whether something holds behind a later slash or at the end. -/
def behindSlash : List Char → List Bool → List Bool
  | c :: cs, _ :: rest =>
    let later := behindSlash cs rest
    (c == '/' && rest.headD false || later.headD false) :: later
  | _, rest => rest

/-- At each place of a text, whether an item and all behind it match what is left there, by whether
all behind it do. -/
def Item.before (cs : List Char) (behind : List Bool) : Item → List Bool
  | many => orLater behind
  | deep => List.zipWith (· || ·) behind (behindSlash cs behind)
  | item => List.zipWith (fun c next => item.accepts c && next) cs behind.tail ++ [false]

/-- At each place of a text, whether the items match what is left there. -/
def matchSuffixes (items : List Item) (cs : List Char) : List Bool :=
  items.foldr (fun item behind => item.before cs behind) (cs.map (fun _ => false) ++ [true])

theorem suffixes_cons (c : Char) (cs : List Char) :
    suffixes (c :: cs) = (c :: cs) :: suffixes cs := rfl

theorem head?_suffixes (cs : List Char) : (suffixes cs).head? = some cs := by
  cases cs <;> rfl

theorem headD_map_suffixes (p : List Char → Bool) (cs : List Char) :
    ((suffixes cs).map p).headD false = p cs := by
  simp [List.headD_eq_head?_getD, head?_suffixes]

theorem orLater_map_suffixes (p : List Char → Bool) (cs : List Char) :
    orLater ((suffixes cs).map p) = (suffixes cs).map fun rest => (suffixes rest).any p := by
  induction cs with
  | nil => simp [suffixes, orLater]
  | cons c cs ih =>
    simp only [suffixes, List.map_cons, orLater, ih, headD_map_suffixes, List.any_cons]

theorem behindSlash_map_suffixes (p : List Char → Bool) (cs : List Char) :
    behindSlash cs ((suffixes cs).map p) =
      (suffixes cs).map fun rest => (afterSlashes rest).any p || p [] := by
  induction cs with
  | nil => simp [suffixes, behindSlash, afterSlashes]
  | cons c cs ih =>
    simp only [suffixes, List.map_cons, behindSlash, ih, headD_map_suffixes, afterSlashes]
    by_cases h : c = '/' <;> simp [h, Bool.or_assoc]

theorem zipWith_tail_map_suffixes (f : Char → Bool) (p : List Char → Bool) (cs : List Char) :
    List.zipWith (fun c next => f c && next) cs ((suffixes cs).map p).tail ++ [false] =
      (suffixes cs).map fun rest =>
        match rest with
        | [] => false
        | c :: rest => f c && p rest := by
  induction cs with
  | nil => rfl
  | cons c cs ih =>
    cases cs with
    | nil => rfl
    | cons d cs => simpa [suffixes] using ih

theorem before_map_suffixes (item : Item) (items : List Item) (cs : List Char) :
    item.before cs ((suffixes cs).map (matchItems items)) =
      (suffixes cs).map (matchItems (item :: items)) := by
  cases item with
  | many => simpa [Item.before, matchItems] using orLater_map_suffixes (matchItems items) cs
  | deep =>
    simp only [Item.before, behindSlash_map_suffixes, List.zipWith_map, List.zipWith_self]
    simp [matchItems, Bool.or_assoc]
  | _ =>
    simp only [Item.before, zipWith_tail_map_suffixes]
    refine List.map_congr_left fun rest _ => ?_
    cases rest <;> simp [matchItems]

theorem matchSuffixes_eq (items : List Item) (cs : List Char) :
    matchSuffixes items cs = (suffixes cs).map (matchItems items) := by
  induction items with
  | nil =>
    simp only [matchSuffixes, List.foldr_nil]
    induction cs with
    | nil => rfl
    | cons c cs ih =>
      rw [suffixes_cons, List.map_cons, List.map_cons, List.cons_append, ih]
      rfl
  | cons item items ih =>
    rw [← before_map_suffixes, ← ih]
    rfl

def accepts (w : Wildcard) (s : String) : Bool :=
  (matchSuffixes w.items s.toList).headD false

theorem accepts_eq (w : Wildcard) (s : String) : w.accepts s = matchItems w.items s.toList := by
  rw [accepts, matchSuffixes_eq, headD_map_suffixes]

def Item.char? : Item → Option Char
  | char c => some c
  | _ => none

def literal? (w : Wildcard) : Option String :=
  (w.items.mapM Item.char?).map String.ofList

/-- Whether the pattern stands for any number of whole parts. -/
def isDeep (w : Wildcard) : Bool :=
  w.items == [.deep]

def isWild (s : String) : Bool :=
  s.toList.any fun c => c == '*' || c == '?' || c == '['

end Wildcard

end ScopedConf
