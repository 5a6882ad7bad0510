import ScopedConf.Event

/-! The settings of the library itself: limits, the rule for names declared twice, and logging. -/

namespace ScopedConf

/-- What happens when several modules declare a directive for one context. -/
inductive Ambiguity
  | refuse
  | firstRegistered
  deriving DecidableEq

structure ParseOptions where
  maxIncludeDepth : Nat := 16
  maxBlockDepth : Nat := 64
  ambiguity : Ambiguity := .refuse
  deriving DecidableEq

inductive LogFormat
  | pretty
  | json
  deriving DecidableEq

/-- The level is kept as it was written. -/
structure LogOptions where
  level : String := "info"
  format : LogFormat := .pretty
  deriving DecidableEq

structure Options where
  parser : ParseOptions := {}
  logging : LogOptions := {}
  deriving DecidableEq

end ScopedConf
