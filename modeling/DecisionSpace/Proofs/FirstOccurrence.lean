import Mathlib.Data.List.Induction
import Mathlib.Data.List.Nodup

/-!
# First occurrences

The list of the first occurrences in a list, read from its end.  What follows can only
add to it, so that the beginning of a list has the first occurrences that the whole
list begins with.
-/

set_option autoImplicit false

namespace DecisionSpace.FirstOccurrence

variable {α : Type}

section
variable [BEq α] [LawfulBEq α]

theorem eraseDups_concat (seen : List α) (v : α) :
    (seen ++ [v]).eraseDups =
      if v ∈ seen.eraseDups then seen.eraseDups else seen.eraseDups ++ [v] := by
  rw [List.eraseDups_append]
  by_cases known : v ∈ seen
  · simp [List.removeAll, known]
  · simp [List.removeAll, known, List.eraseDups_cons]

theorem nodup_eraseDups (all : List α) : all.eraseDups.Nodup := by
  induction all using List.reverseRecOn with
  | nil => exact List.nodup_nil
  | append_singleton seen v ih =>
      rw [eraseDups_concat]
      split
      · exact ih
      · rename_i new
        exact List.Nodup.append ih (List.nodup_singleton v) (by simpa using new)

theorem eraseDups_eq_nil_iff {all : List α} : all.eraseDups = [] ↔ all = [] := by
  constructor
  · intro none
    apply List.eq_nil_iff_forall_not_mem.mpr
    intro a member
    have kept : a ∈ all.eraseDups := List.mem_eraseDups.mpr member
    rw [none] at kept
    exact absurd kept List.not_mem_nil
  · intro none
    rw [none, List.eraseDups_nil]

theorem eraseDups_of_nodup {all : List α} (distinct : all.Nodup) : all.eraseDups = all := by
  induction all using List.reverseRecOn with
  | nil => rfl
  | append_singleton seen v ih =>
      obtain ⟨earlier, _, apart⟩ := List.nodup_append.mp distinct
      have new : v ∉ seen := fun listed => apart v listed v List.mem_cons_self rfl
      rw [eraseDups_concat, ih earlier, if_neg new]

theorem eraseDups_prefix_append (all more : List α) :
    all.eraseDups <+: (all ++ more).eraseDups := by
  induction more using List.reverseRecOn with
  | nil => simp
  | append_singleton more a ih =>
      rw [← List.append_assoc, eraseDups_concat]
      split
      · exact ih
      · exact ih.trans (List.prefix_append _ [a])

end

theorem take_prefix_take {all whole : List α} (begins : all <+: whole) {n k : Nat}
    (fewer : n ≤ k) : all.take n <+: whole.take k := by
  obtain ⟨rest, rfl⟩ := begins
  apply (List.take_prefix_take_left fewer).trans
  rw [List.take_append]
  exact List.prefix_append _ _

end DecisionSpace.FirstOccurrence
