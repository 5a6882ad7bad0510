import ScopedConf.Options.Basic

/-! What settings may say. Every problem is reported, in the order of the settings. -/

namespace ScopedConf

inductive Limit
  | includeDepth
  | blockDepth
  deriving DecidableEq

namespace Limit

def name : Limit → String
  | includeDepth => "max_include_depth"
  | blockDepth => "max_block_depth"

/-- The largest value of the limit; the smallest is 1. -/
def highest : Limit → Nat
  | includeDepth => 128
  | blockDepth => 1024

def value (o : ParseOptions) : Limit → Nat
  | includeDepth => o.maxIncludeDepth
  | blockDepth => o.maxBlockDepth

def all : List Limit := [includeDepth, blockDepth]

end Limit

inductive Problem
  | outOfRange (limit : Limit) (value : Nat)
  | unknownLevel (level : String)
  deriving DecidableEq

def Problem.message : Problem → String
  | .outOfRange limit value =>
    s!"parser.{limit.name} must be between 1 and {limit.highest}, got {value}"
  | .unknownLevel level =>
    s!"logging.level \"{level}\" is not one of error, warn, info, debug, trace"

def Level.ofName? (name : String) : Option Level :=
  [Level.error, .warn, .info, .debug, .trace].find? fun l => l.text == name.map Char.toUpper

def Options.problems (o : Options) : List Problem :=
  (Limit.all.filter fun l => !(1 ≤ l.value o.parser && l.value o.parser ≤ l.highest)).map
      (fun l => .outOfRange l (l.value o.parser)) ++
    if (Level.ofName? o.logging.level).isSome then [] else [.unknownLevel o.logging.level]

end ScopedConf
