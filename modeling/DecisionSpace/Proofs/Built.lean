import DecisionSpace.Proofs.Acceptance

/-!
# Built models

What `build` promises about a model: every domain is sound, and every constraint
lists variables of the model, each once.
-/

set_option autoImplicit false

namespace DecisionSpace

open Fallible

/-- What the searches rely on. -/
structure Model.WellFormed (m : Model) : Prop where
  sound : ∀ v ∈ m.vars, v.domain.Sound
  nodup : ∀ k ∈ m.constraints, k.vars.Nodup
  inRange : ∀ k ∈ m.constraints, ∀ id ∈ k.vars, id < m.vars.length
  root : m.root.subtree = List.range m.vars.length

theorem Declaration.build_wellFormed {serial : Nat} {d : Declaration} {m : Model}
    (built : d.build serial = .ok m) : m.WellFormed := by
  have laid := build_laid built
  have declared : ∀ k ∈ m.constraints, ∃ entry : Nat × AtMost,
      AtMost.Becomes m entry.1 entry.2 k := by
    intro k member
    obtain ⟨entry, _, becomes⟩ := exists_of_forall₂ (build_constraints built).flip member
    exact ⟨entry, becomes⟩
  refine ⟨laid.domain_sound, fun k member => ?_, fun k member v listed => ?_, laid.root_subtree⟩
  · obtain ⟨_, becomes⟩ := declared k member
    exact becomes.nodup
  · obtain ⟨_, becomes⟩ := declared k member
    exact (becomes.inside v listed).1

end DecisionSpace
