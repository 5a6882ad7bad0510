/-! Values under names, kept in the order of the names. -/

namespace ScopedConf

abbrev Named (α : Type) := List (String × α)

namespace Named

variable {α : Type}

/-- Puts a value at its place; the value of a name that is there already is replaced. -/
def insert (name : String) (value : α) : Named α → Named α
  | [] => [(name, value)]
  | (other, old) :: rest =>
    if name = other then (name, value) :: rest
    else if name < other then (name, value) :: (other, old) :: rest
    else (other, old) :: insert name value rest

def get? (name : String) (m : Named α) : Option α :=
  (m.find? fun entry => entry.1 == name).map Prod.snd

/-- Inserts the entries one after the other, so that of several with one name the last counts. -/
def ofList (entries : List (String × α)) : Named α :=
  entries.foldl (fun m entry => m.insert entry.1 entry.2) []

theorem get?_insert (name other : String) (value : α) (m : Named α) :
    (m.insert name value).get? other = if name = other then some value else m.get? other := by
  induction m with
  | nil => by_cases h : name = other <;> simp [insert, get?, h]
  | cons entry rest ih =>
    obtain ⟨n, old⟩ := entry
    simp only [get?] at ih ⊢
    unfold insert
    split
    · next h =>
      subst h
      by_cases h' : name = other <;> simp [h']
    · split
      · by_cases h' : name = other <;> simp [h']
      · next hne _ =>
        by_cases hn : n = other
        · subst hn
          simp [hne]
        · simp [hn, ih]

end Named

end ScopedConf
