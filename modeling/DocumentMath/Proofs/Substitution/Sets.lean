import DocumentMath.Substitution
import Mathlib.Data.List.Nodup

/-!
# Sets in canonical order

A set of substitutions is meant to have each member once and in canonical order. Then its members
increase (`SubstitutionSet.IsIncreasing`), and they are what is left of all substitutions when the
others are taken out (`filter_all`). So such a set is told by what it contains
(`eq_iff_contains_eq`), and to apply it is to go once through all substitutions and to carry out
those that belong to it (`apply_eq_foldl_all`).
-/

namespace DocumentMath

namespace Substitution

/-- The place in canonical order. -/
def place (sub : Substitution) : Nat :=
  all.idxOf sub

theorem mem_all (sub : Substitution) : sub ∈ all := by
  cases sub <;> decide

theorem pairwise_place_all : all.Pairwise (·.place < ·.place) := by decide

end Substitution

namespace SubstitutionSet

open Substitution

variable {s t : SubstitutionSet} {sub : Substitution}

/-- Each member of the set stands in front of those that come after it in canonical order. -/
def IsIncreasing (s : SubstitutionSet) : Prop :=
  s.members.Pairwise (·.place < ·.place)

instance : DecidablePred IsIncreasing := fun s ↦
  inferInstanceAs (Decidable (s.members.Pairwise (·.place < ·.place)))

theorem contains_iff : s.contains sub = true ↔ sub ∈ s.members :=
  List.contains_iff_mem

/-- Members that increase do not repeat. -/
theorem IsIncreasing.nodup (h : s.IsIncreasing) : s.members.Nodup :=
  h.imp fun hlt heq ↦ absurd (heq ▸ hlt) (Nat.lt_irrefl _)

/-- The members of a set are what is left of all substitutions. -/
theorem IsIncreasing.filter_all (h : s.IsIncreasing) : all.filter s.contains = s.members := by
  have hall : (all.filter s.contains).Pairwise (·.place < ·.place) :=
    pairwise_place_all.sublist List.filter_sublist
  have hnodup : (all.filter s.contains).Nodup := IsIncreasing.nodup (s := ⟨_⟩) hall
  refine List.Perm.eq_of_pairwise (fun a b _ _ hab hba ↦ ?_) hall h ?_
  · exact absurd (Nat.lt_trans hab hba) (Nat.lt_irrefl _)
  · rw [List.perm_ext_iff_of_nodup hnodup h.nodup]
    intro sub
    rw [List.mem_filter, contains_iff]
    exact and_iff_right (mem_all sub)

theorem isIncreasing_iff_sublist : s.IsIncreasing ↔ s.members.Sublist all :=
  ⟨fun h ↦ h.filter_all ▸ List.filter_sublist, fun h ↦ pairwise_place_all.sublist h⟩

/-- Sets whose members increase are the same if they contain the same. -/
theorem eq_iff_contains_eq (hs : s.IsIncreasing) (ht : t.IsIncreasing) :
    s = t ↔ ∀ sub, s.contains sub = t.contains sub := by
  refine ⟨fun h sub ↦ h ▸ rfl, fun h ↦ ?_⟩
  have hmembers : s.members = t.members := by
    rw [← hs.filter_all, ← ht.filter_all, funext h]
  cases s
  cases t
  exact congrArg mk hmembers

/-- To apply a set whose members increase is to go once through all substitutions in canonical
order and to carry out those that belong to it. -/
theorem IsIncreasing.apply_eq_foldl_all (h : s.IsIncreasing) (attributes? : Option Attributes)
    (text : String) :
    s.apply attributes? text = String.ofList (all.foldl
      (fun cs sub ↦ if s.contains sub then sub.apply attributes? cs else cs) text.toList) := by
  rw [apply, ← h.filter_all, List.foldl_filter]

/-! ### Sets that are put together -/

theorem isIncreasing_ofList (subs : List Substitution) : (ofList subs).IsIncreasing :=
  isIncreasing_iff_sublist.mpr List.filter_sublist

theorem isIncreasing_resolve (list : String) : (resolve list).IsIncreasing :=
  isIncreasing_ofList _

theorem contains_ofList {subs : List Substitution} :
    (ofList subs).contains sub = true ↔ sub ∈ subs := by
  rw [contains_iff, ofList, List.mem_filter, decide_eq_true_iff]
  exact and_iff_right (mem_all sub)

end SubstitutionSet

end DocumentMath
