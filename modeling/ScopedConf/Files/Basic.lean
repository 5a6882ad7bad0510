import ScopedConf.Failure
import ScopedConf.Path

/-! Where configurations come from: a path leads to bytes, and a pattern to the paths it stands
for. -/

namespace ScopedConf

structure Files where
  read : Path → Except Failure (List UInt8)
  /-- The paths a pattern stands for, in the order in which they are read. -/
  expand : Path → Except Failure (List Path)

namespace Files

/-- A path without wildcards stands for itself; any other is looked up among what there is. -/
def expandBy (find : Path → Except Wildcard.Fault (List Path)) (p : Path) :
    Except Cause (List Path) :=
  if Wildcard.isWild p.text then (find p).mapError (Cause.badPattern p.text) else .ok [p]

/-- Files whose failures carry no location. -/
def ofCauses (read : Path → Except Cause (List UInt8)) (expand : Path → Except Cause (List Path)) :
    Files where
  read p := (read p).mapError .of
  expand p := (expand p).mapError .of

/-- The failures to read or to expand a path leave it to the caller to say where. -/
structure Unlocated (files : Files) : Prop where
  read : ∀ p f, files.read p = .error f → f.location = none
  expand : ∀ p f, files.expand p = .error f → f.location = none

theorem unlocated_ofCauses (read : Path → Except Cause (List UInt8))
    (expand : Path → Except Cause (List Path)) : (ofCauses read expand).Unlocated :=
  ⟨fun _ _ h => Failure.location_of_mapError h, fun _ _ h => Failure.location_of_mapError h⟩

end Files

end ScopedConf
