import ScopedConf.Text.Named
import Mathlib.Data.List.Induction
import Mathlib.Data.String.Basic

/-! The entries of values under names. They stand in the order of the names, so a name occurs once,
and entries of which no two have one name are all kept. -/

namespace ScopedConf

namespace Named

variable {α : Type} {name other : String} {value : α} {m : Named α}

def Ordered (m : Named α) : Prop :=
  m.Pairwise fun first second => first.1 < second.1

theorem fst_of_mem_insert {entry : String × α} (h : entry ∈ m.insert name value) :
    entry.1 = name ∨ entry ∈ m := by
  induction m with
  | nil => exact .inl (congrArg Prod.fst (List.mem_singleton.mp h))
  | cons first rest ih =>
    unfold insert at h
    split at h
    · rcases List.mem_cons.mp h with rfl | hrest
      · exact .inl rfl
      · exact .inr (List.mem_cons_of_mem _ hrest)
    · split at h
      · rcases List.mem_cons.mp h with rfl | hm
        · exact .inl rfl
        · exact .inr hm
      · rcases List.mem_cons.mp h with rfl | hlater
        · exact .inr List.mem_cons_self
        · exact (ih hlater).imp_right (List.mem_cons_of_mem _)

theorem Ordered.insert (h : m.Ordered) (name : String) (value : α) :
    (m.insert name value).Ordered := by
  induction m with
  | nil => exact List.pairwise_singleton _ _
  | cons first rest ih =>
    obtain ⟨hfirst, hrest⟩ := List.pairwise_cons.mp h
    unfold Named.insert
    split
    · next heq =>
      subst heq
      exact List.pairwise_cons.mpr ⟨hfirst, hrest⟩
    · next hne =>
      split
      · next hlt =>
        refine List.pairwise_cons.mpr ⟨fun entry hentry => ?_, h⟩
        rcases List.mem_cons.mp hentry with rfl | hlater
        · exact hlt
        · exact hlt.trans (hfirst entry hlater)
      · next hnot =>
        have hlt : first.1 < name := (le_of_not_gt hnot).lt_of_ne fun heq => hne heq.symm
        refine List.pairwise_cons.mpr ⟨fun entry hentry => ?_, ih hrest⟩
        rcases fst_of_mem_insert hentry with hname | hlater
        · exact hname ▸ hlt
        · exact hfirst entry hlater

theorem ordered_ofList (entries : List (String × α)) : (ofList entries).Ordered :=
  List.foldlRecOn entries _ List.Pairwise.nil fun _ h entry _ => h.insert entry.1 entry.2

theorem mem_iff_get? (h : m.Ordered) : (name, value) ∈ m ↔ m.get? name = some value := by
  induction m with
  | nil => simp [get?]
  | cons first rest ih =>
    obtain ⟨hfirst, hrest⟩ := List.pairwise_cons.mp h
    rw [List.mem_cons]
    by_cases hname : first.1 = name
    · have hget : get? name (first :: rest) = some first.2 := by simp [get?, hname]
      have hlater : (name, value) ∉ rest := fun hv => (hfirst _ hv).ne hname
      rw [hget, Option.some.injEq, or_iff_left hlater, Prod.ext_iff, and_iff_right hname.symm]
      exact eq_comm
    · have hget : get? name (first :: rest) = get? name rest := by simp [get?, hname]
      have hne : (name, value) ≠ first := fun heq => hname (heq ▸ rfl)
      rw [hget, or_iff_right hne, ih hrest]

theorem Ordered.nodup_names (h : m.Ordered) : (m.map Prod.fst).Nodup :=
  List.pairwise_map.mpr (h.imp fun hlt => hlt.ne)

theorem insert_perm (hname : name ∉ m.map Prod.fst) :
    (m.insert name value).Perm ((name, value) :: m) := by
  induction m with
  | nil => exact .refl _
  | cons first rest ih =>
    obtain ⟨hfirst, hrest⟩ := not_or.mp (mt List.mem_cons.mpr hname)
    unfold insert
    rw [if_neg hfirst]
    split
    · exact .refl _
    · exact ((ih hrest).cons first).trans (.swap (name, value) first rest)

theorem perm_ofList {entries : List (String × α)} (h : (entries.map Prod.fst).Nodup) :
    (ofList entries).Perm entries := by
  induction entries using List.reverseRecOn with
  | nil => exact .refl _
  | append_singleton entries entry ih =>
    rw [List.map_append, List.nodup_append] at h
    obtain ⟨hbefore, -, hapart⟩ := h
    have hkept := ih hbefore
    have hnew : entry.1 ∉ (ofList entries).map Prod.fst := by
      rw [(hkept.map Prod.fst).mem_iff]
      exact fun hmem => hapart _ hmem _ List.mem_cons_self rfl
    have hlast : ofList (entries ++ [entry]) = (ofList entries).insert entry.1 entry.2 := by
      rw [ofList, List.foldl_append]
      rfl
    rw [hlast]
    exact (insert_perm hnew).trans ((hkept.cons entry).trans (List.perm_append_singleton _ _).symm)

end Named

end ScopedConf
