/-! Work that is still to be done, as a stack of amounts. A step takes the topmost amount off and
may put any number of smaller ones in its place; such steps come to an end. -/

namespace ScopedConf

variable {α : Type}

/-- `new ++ rest` comes after `a :: rest` when everything in `new` is smaller than `a`. -/
inductive Replaces (r : α → α → Prop) : List α → List α → Prop
  | head (a : α) (new rest : List α) (smaller : ∀ n ∈ new, r n a) :
    Replaces r (new ++ rest) (a :: rest)

namespace Replaces

variable {r : α → α → Prop}

theorem acc_append {new rest : List α} (hrest : Acc (Replaces r) rest)
    (h : ∀ n ∈ new, ∀ l, Acc (Replaces r) l → Acc (Replaces r) (n :: l)) :
    Acc (Replaces r) (new ++ rest) := by
  induction new with
  | nil => exact hrest
  | cons n new ih =>
    exact h n List.mem_cons_self _ (ih fun m hm => h m (List.mem_cons_of_mem n hm))

theorem acc_cons (hr : WellFounded r) (a : α) :
    ∀ l, Acc (Replaces r) l → Acc (Replaces r) (a :: l) := by
  induction a using hr.induction with
  | _ a ih =>
    intro l hl
    refine Acc.intro _ fun l' h => ?_
    cases h with
    | head _ new _ smaller => exact acc_append hl fun n hn => ih n (smaller n hn)

theorem wellFounded (hr : WellFounded r) : WellFounded (Replaces r) := by
  refine ⟨fun l => ?_⟩
  induction l with
  | nil => exact Acc.intro _ fun _ h => by cases h
  | cons a l ih => exact acc_cons hr a l ih

end Replaces

/-- Amounts of work, the topmost in front. An amount is a number of levels and a length; fewer
levels outweigh any length. -/
structure Pending where
  amounts : List (Nat × Nat)

instance : WellFoundedRelation Pending where
  rel := InvImage (Replaces (Prod.Lex (· < ·) (· < ·))) Pending.amounts
  wf := InvImage.wf _ (Replaces.wellFounded (Prod.lex Nat.lt_wfRel Nat.lt_wfRel).wf)

end ScopedConf
