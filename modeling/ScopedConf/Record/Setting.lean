/-! Settings: fields that remember whether they were ever set. Unset differs from every value, so
a field set to zero is not taken for one that was left out. -/

namespace ScopedConf

structure Setting (α : Type) where
  value? : Option α
  deriving DecidableEq

namespace Setting

variable {α : Type}

def unset : Setting α := ⟨none⟩

def of (a : α) : Setting α := ⟨some a⟩

def isSet (s : Setting α) : Bool :=
  s.value?.isSome

def valueOr (s : Setting α) (fallback : α) : α :=
  s.value?.getD fallback

def update (s : Setting α) (f : α → α) : Setting α :=
  ⟨s.value?.map f⟩

/-- Keeps the own value; an unset field takes that of the parent, if there is one. -/
def inherit (s : Setting α) (parent : Option (Setting α)) : Setting α :=
  ⟨s.value? <|> parent.bind value?⟩

/-- As `inherit`, with a default where neither has a value. -/
def merge (s : Setting α) (parent : Option (Setting α)) (default : α) : Setting α :=
  of ((s.inherit parent).valueOr default)

@[simp] theorem value?_inherit (s : Setting α) (parent : Option (Setting α)) :
    (s.inherit parent).value? = (s.value? <|> parent.bind value?) := rfl

@[simp] theorem value?_merge (s : Setting α) (parent : Option (Setting α)) (default : α) :
    (s.merge parent default).value? = some ((s.inherit parent).valueOr default) := rfl

theorem inherit_of_isSet {s : Setting α} (h : s.isSet = true) (parent : Option (Setting α)) :
    s.inherit parent = s := by
  obtain ⟨a, ha⟩ := Option.isSome_iff_exists.mp h
  cases s
  simp_all [inherit]

theorem merge_of_isSet {s : Setting α} (h : s.isSet = true) (parent : Option (Setting α))
    (default : α) : s.merge parent default = s := by
  obtain ⟨a, ha⟩ := Option.isSome_iff_exists.mp h
  cases s
  simp_all [merge, inherit, of, valueOr]

end Setting

end ScopedConf
