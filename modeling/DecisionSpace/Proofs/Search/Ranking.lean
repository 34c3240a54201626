import DecisionSpace.Proofs.Domain
import DecisionSpace.Search.Enumeration
import Mathlib.Data.List.Sublists

/-!
# The order of the values of a domain

`rank` numbers the values of a domain: `false` before `true`, the elements as
they are listed, a subset by the number whose lowest binary digit stands for the
first element.  What a walk tries for a variable are the canonical values of its
domain, each once, by ascending rank.
-/

set_option autoImplicit false

namespace DecisionSpace

/-- The number whose binary digits say which elements are chosen. -/
def mask : List Value → List Value → Nat
  | [], _ => 0
  | v :: rest, items => (if v ∈ items then 1 else 0) + 2 * mask rest items

def Domain.rank : Domain → Value → Nat
  | .boolean, .bool b => b.toNat
  | .nominal elements, v => elements.idxOf v
  | .multiSelect elements _ _, .selection items => mask elements items
  | _, _ => 0

/-! ## Masks -/

theorem testBit_mask (elements items : List Value) (i : Nat) :
    (mask elements items).testBit i = elements[i]?.any (· ∈ items) := by
  induction elements generalizing i with
  | nil => simp [mask]
  | cons v rest ih =>
      cases i with
      | zero =>
          rw [Nat.testBit_zero, mask]
          by_cases chosen : v ∈ items
          · simp [chosen]
          · simp [chosen]
      | succ i =>
          rw [Nat.testBit_succ, List.getElem?_cons_succ, ← ih i, mask]
          congr 1
          split
          · omega
          · omega

theorem mask_congr {elements items others : List Value}
    (same : ∀ v ∈ elements, v ∈ items ↔ v ∈ others) : mask elements items = mask elements others := by
  induction elements with
  | nil => rfl
  | cons v rest ih =>
      obtain ⟨head, tail⟩ := List.forall_mem_cons.mp same
      simp only [mask, head, ih tail]

namespace Search

theorem subsets_eq_sublists (elements : List Value) : subsets elements = elements.sublists := by
  induction elements with
  | nil => rfl
  | cons v rest ih =>
      rw [subsets, ih, List.sublists_cons]
      rfl

theorem mem_subsets {elements items : List Value} :
    items ∈ subsets elements ↔ items.Sublist elements := by
  rw [subsets_eq_sublists, List.mem_sublists]

theorem subsets_ascending {elements : List Value} (nodup : elements.Nodup) :
    (subsets elements).Pairwise fun s t => mask elements s < mask elements t := by
  induction elements with
  | nil => exact List.pairwise_singleton _ _
  | cons v rest ih =>
      obtain ⟨new, nodup⟩ := List.nodup_cons.mp nodup
      have without : ∀ s ∈ subsets rest, mask (v :: rest) s = 2 * mask rest s := by
        intro s member
        have absent : v ∉ s := fun inside => new ((mem_subsets.mp member).subset inside)
        simp [mask, absent]
      have withFirst : ∀ s ∈ subsets rest, mask (v :: rest) (v :: s) = 2 * mask rest s + 1 := by
        intro s member
        have unchanged : mask rest (v :: s) = mask rest s := by
          apply mask_congr
          intro w inRest
          have different : w ≠ v := fun same => new (same ▸ inRest)
          simp [different]
        simp only [mask, List.mem_cons_self, if_true, unchanged]
        omega
      rw [subsets, List.pairwise_flatMap]
      constructor
      · intro s member
        refine List.pairwise_pair.mpr ?_
        rw [without s member, withFirst s member]
        omega
      · refine (ih nodup).imp_of_mem ?_
        intro s t inS inT less x xMember y yMember
        have low : mask (v :: rest) x ≤ 2 * mask rest s + 1 := by
          rcases List.mem_pair.mp xMember with rfl | rfl
          · rw [without x inS]
            omega
          · rw [withFirst s inS]
        have high : 2 * mask rest t ≤ mask (v :: rest) y := by
          rcases List.mem_pair.mp yMember with rfl | rfl
          · rw [without y inT]
          · rw [withFirst t inT]
            omega
        omega

/-! ## Candidate values -/

theorem mem_candidateValues (d : Domain) (x : Value) :
    x ∈ candidateValues d ↔ d.Canonical x := by
  cases d with
  | boolean =>
      constructor
      · intro member
        rcases List.mem_pair.mp member with rfl | rfl
        · exact .boolean false
        · exact .boolean true
      · rintro ⟨b⟩
        cases b with
        | false => exact List.mem_cons_self
        | true => exact List.mem_cons_of_mem _ List.mem_cons_self
  | constant value =>
      constructor
      · intro member
        obtain rfl := List.mem_singleton.mp member
        exact .constant x
      · rintro ⟨⟩
        exact List.mem_singleton_self x
  | nominal elements =>
      constructor
      · exact fun member => .nominal member
      · rintro (_ | _ | member)
        exact member
  | multiSelect elements min max =>
      simp only [candidateValues, List.mem_map, List.mem_filter, mem_subsets, decide_eq_true_eq]
      constructor
      · rintro ⟨items, ⟨sub, atLeast, atMost⟩, rfl⟩
        exact .multiSelect sub atLeast atMost
      · rintro (_ | _ | _ | ⟨sub, atLeast, atMost⟩)
        exact ⟨_, ⟨sub, atLeast, atMost⟩, rfl⟩

theorem candidateValues_ascending {d : Domain} (sound : d.Sound) :
    (candidateValues d).Pairwise fun x y => d.rank x < d.rank y := by
  cases d with
  | boolean => exact List.pairwise_pair.mpr (by decide)
  | constant value => exact List.pairwise_singleton _ _
  | nominal elements =>
      refine List.pairwise_iff_getElem.mpr fun i j inI inJ less => ?_
      change i < elements.length at inI
      change j < elements.length at inJ
      simp only [candidateValues, Domain.rank]
      rw [sound.nodup.idxOf_getElem i inI, sound.nodup.idxOf_getElem j inJ]
      exact less
  | multiSelect elements min max =>
      refine List.pairwise_map.mpr ?_
      exact (subsets_ascending sound.1.nodup).filter _

end Search

end DecisionSpace
