import DecisionSpace.Proofs.Search.Witness

/-!
# Distinct witnesses

Several witnesses come from runs on consecutive seeds.  They are the first different
ones among what the runs find, in the order of the seeds.  A larger limit asks for more
runs, so what it finds begins with what a smaller one has found.
-/

set_option autoImplicit false

namespace DecisionSpace

deriving instance DecidableEq for Model
deriving instance DecidableEq for Assignment

namespace Solver

open Fallible
open FirstOccurrence
open Sampling
open Search

def findings (solver : Solver) (c : Context) (seed : UInt64) (runs : Nat) : List Assignment :=
  (List.range runs).filterMap fun i =>
    (solver.witnessSeeded c (seed + i.toUInt64)).result.toOption

section
variable {solver : Solver} {c : Context} {seed : UInt64}

theorem mem_findings {runs : Nat} {a : Assignment} :
    a ∈ solver.findings c seed runs ↔
      ∃ i < runs, (solver.witnessSeeded c (seed + i.toUInt64)).result = .ok a := by
  simp only [findings, List.mem_filterMap, List.mem_range, toOption_eq_some_iff]

variable (solver c seed) in
theorem findings_prefix {runs more : Nat} (fewer : runs ≤ more) :
    solver.findings c seed runs <+: solver.findings c seed more := by
  obtain ⟨k, rfl⟩ := Nat.exists_eq_add_of_le fewer
  simp only [findings, List.range_add, List.filterMap_append]
  exact List.prefix_append _ _

theorem isSolution_of_mem_findings (wellFormed : solver.model.WellFormed) {runs : Nat}
    {a : Assignment} (member : a ∈ solver.findings c seed runs) : a.IsSolution solver.model c := by
  obtain ⟨i, _, found⟩ := mem_findings.mp member
  obtain ⟨values, solves, rfl⟩ := exists_solves_of_witness wellFormed found
  exact Assignment.isSolution_ofValues wellFormed solves

end

theorem any_alike_iff {m : Model} {kept : List Assignment} (own : ∀ a ∈ kept, a.model = m)
    {a : Assignment} (ownLast : a.model = m) : kept.any a.alike = true ↔ a ∈ kept := by
  rw [List.any_eq_true]
  constructor
  · intro some
    obtain ⟨b, member, alike⟩ := some
    rwa [(Assignment.alike_iff_eq (ownLast.trans (own b member).symm)).mp alike]
  · intro member
    exact ⟨a, member, (Assignment.alike_iff_eq rfl).mpr rfl⟩

/-- Among assignments of one model, what is collected are the first occurrences. -/
theorem collect_eraseDups {m : Model} {limit : Nat} {found seen : List Assignment}
    (own : ∀ a ∈ seen ++ found, a.model = m) (few : seen.eraseDups.length ≤ limit) :
    collect limit found seen.eraseDups = (seen ++ found).eraseDups.take limit := by
  induction found generalizing seen with
  | nil => rw [collect, List.append_nil, List.take_of_length_le few]
  | cons a rest ih =>
      rw [collect]
      split
      · rename_i full
        have begins := eraseDups_prefix_append seen (a :: rest)
        rw [← full]
        exact List.prefix_iff_eq_take.mp begins
      · rename_i room
        obtain ⟨ownSeen, ownRest⟩ := List.forall_mem_append.mp own
        have ownKept : ∀ b ∈ seen.eraseDups, b.model = m :=
          fun b kept => ownSeen b (List.mem_eraseDups.mp kept)
        have met := any_alike_iff ownKept (List.forall_mem_cons.mp ownRest).1
        have kept : (if seen.eraseDups.any a.alike then seen.eraseDups else seen.eraseDups ++ [a]) =
            (seen ++ [a]).eraseDups := by
          rw [eraseDups_concat]
          exact if_congr met rfl rfl
        have still : (seen ++ [a]).eraseDups.length ≤ limit := by
          rw [eraseDups_concat]
          split
          · exact few
          · rw [List.length_append, List.length_singleton]
            omega
        rw [List.append_cons] at own
        rw [kept, List.append_cons seen a rest]
        exact ih own still

theorem collect_eq {m : Model} {limit : Nat} {found : List Assignment}
    (own : ∀ a ∈ found, a.model = m) : collect limit found [] = found.eraseDups.take limit := by
  have none : ([] : List Assignment).eraseDups = [] := List.eraseDups_nil
  rw [← none]
  exact collect_eraseDups own (Nat.zero_le limit)

theorem dedup_eq {m : Model} {found : List Assignment} (own : ∀ a ∈ found, a.model = m) :
    dedup found = found.eraseDups := by
  have few : found.eraseDups.length ≤ found.length :=
    (nodup_eraseDups found).length_le_of_subset fun _ => List.mem_eraseDups.mp
  rw [dedup, collect_eq own, List.take_of_length_le few]

def attempts (limit : Nat) : Nat := min (2 * limit) maxAttempts

theorem attempts_eq {limit : Nat} (counted : 2 * limit ≤ maxAttempts) :
    attempts limit = 2 * limit := Nat.min_eq_left counted

section
variable {solver : Solver} (wellFormed : solver.model.WellFormed) {c : Context}
  (checked : checkContext solver.model c = .ok ()) {seed : UInt64} {limit : Nat}

include wellFormed checked

theorem result_distinctWitnesses (seed : UInt64) (positive : 0 < limit) :
    (solver.distinctWitnesses c limit seed).result =
      if solver.findings c seed (attempts limit) = [] then
        .error (.unsatisfiable (.noWitness solver.model.name (attempts limit)))
      else .ok ((solver.findings c seed (attempts limit)).eraseDups.take limit) := by
  have own : ∀ a ∈ solver.findings c seed (attempts limit), a.model = solver.model := by
    intro a member
    exact (isSolution_of_mem_findings wellFormed member).model
  have kept : collect limit (solver.findings c seed (attempts limit)) [] = _ := collect_eq own
  have none : ((solver.findings c seed (attempts limit)).eraseDups.take limit).isEmpty = true ↔
      solver.findings c seed (attempts limit) = [] := by
    rw [List.isEmpty_iff, List.take_eq_nil_iff, eraseDups_eq_nil_iff]
    exact or_iff_right (Nat.ne_of_gt positive)
  have runs : ((List.range (attempts limit)).map fun i =>
      solver.witnessSeeded c (seed + i.toUInt64)).filterMap (·.result.toOption) =
        solver.findings c seed (attempts limit) := by
    rw [List.filterMap_map]
    rfl
  have tries : min (2 * limit) maxAttempts = attempts limit := rfl
  rw [distinctWitnesses, if_neg (Nat.ne_of_gt positive)]
  simp only [checked, tries, runs, kept, none]
  split
  · rfl
  · rfl

theorem of_distinctWitnesses (positive : 0 < limit) {found : List Assignment}
    (run : (solver.distinctWitnesses c limit seed).result = .ok found) :
    found ≠ [] ∧ found.Nodup ∧ found.length ≤ limit ∧
      ∀ a ∈ found, a.IsSolution solver.model c := by
  rw [result_distinctWitnesses wellFormed checked seed positive] at run
  split at run
  · simp at run
  · rename_i some
    obtain rfl := Except.ok.inj run
    refine ⟨?_, (nodup_eraseDups _).sublist (List.take_sublist _ _), List.length_take_le _ _, ?_⟩
    · rw [Ne, List.take_eq_nil_iff, eraseDups_eq_nil_iff]
      intro empty
      exact empty.elim (Nat.ne_of_gt positive) some
    · intro a member
      exact isSolution_of_mem_findings wellFormed
        (List.mem_eraseDups.mp (List.mem_of_mem_take member))

theorem distinctWitnesses_of_le {more : Nat} (positive : 0 < limit) (larger : limit ≤ more)
    {found : List Assignment}
    (run : (solver.distinctWitnesses c limit seed).result = .ok found) :
    ∃ found', (solver.distinctWitnesses c more seed).result = .ok found' ∧ found <+: found' := by
  rw [result_distinctWitnesses wellFormed checked seed positive] at run
  rw [result_distinctWitnesses wellFormed checked seed (by omega)]
  have longer : attempts limit ≤ attempts more := by
    unfold attempts
    omega
  obtain ⟨rest, whole⟩ := findings_prefix solver c seed longer
  split at run
  · simp at run
  · rename_i some
    obtain rfl := Except.ok.inj run
    have someMore : solver.findings c seed (attempts more) ≠ [] := by
      rw [← whole]
      exact List.append_ne_nil_of_left_ne_nil some rest
    refine ⟨_, if_neg someMore, ?_⟩
    apply take_prefix_take _ larger
    rw [← whole]
    exact eraseDups_prefix_append _ rest

end

/-- With a context that passes the check, the result for a limit is the list of the first
different assignments among those found on twice as many consecutive seeds, or a failure
when none of them finds anything.  Its members are different solutions, and a larger limit
only adds to its end. -/
theorem distinctWitnesses_sequential {serial : Nat} {d : Declaration} {solver : Solver}
    (built : d.build serial = .ok solver.model) {c : Context}
    (checked : checkContext solver.model c = .ok ()) (seed : UInt64) {limit : Nat}
    (positive : 0 < limit) (counted : 2 * limit ≤ maxAttempts) :
    ((∃ cause, (solver.distinctWitnesses c limit seed).result = .error (.unsatisfiable cause)) ↔
      ∀ i < 2 * limit, ∀ a, (solver.witnessSeeded c (seed + i.toUInt64)).result ≠ .ok a) ∧
    (∀ e, (solver.distinctWitnesses c limit seed).result = .error e →
      e = .unsatisfiable (.noWitness solver.model.name (2 * limit))) ∧
    ((∃ i < 2 * limit, ∃ a, (solver.witnessSeeded c (seed + i.toUInt64)).result = .ok a) →
      (solver.distinctWitnesses c limit seed).result =
        .ok (((List.range (2 * limit)).filterMap fun i =>
          (solver.witnessSeeded c (seed + i.toUInt64)).result.toOption).eraseDups.take limit)) ∧
    ∀ found, (solver.distinctWitnesses c limit seed).result = .ok found →
      found.Nodup ∧ found.length ≤ limit ∧ (∀ a ∈ found, a.IsSolution solver.model c) ∧
      ∀ more, limit ≤ more → 2 * more ≤ maxAttempts →
        ∃ found', (solver.distinctWitnesses c more seed).result = .ok found' ∧
          found <+: found' := by
  have wellFormed := Declaration.build_wellFormed built
  have result := result_distinctWitnesses wellFormed checked seed positive
  rw [attempts_eq counted] at result
  have nothing : solver.findings c seed (2 * limit) = [] ↔
      ∀ i < 2 * limit, ∀ a, (solver.witnessSeeded c (seed + i.toUInt64)).result ≠ .ok a := by
    rw [List.eq_nil_iff_forall_not_mem]
    constructor
    · intro none i early a single
      exact none a (mem_findings.mpr ⟨i, early, single⟩)
    · intro none a member
      obtain ⟨i, early, single⟩ := mem_findings.mp member
      exact none i early a single
  refine ⟨?_, ?_, ?_, ?_⟩
  · rw [result, ← nothing]
    constructor
    · intro failed
      by_contra some
      rw [if_neg some] at failed
      simp at failed
    · intro none
      exact ⟨_, if_pos none⟩
  · intro e failed
    rw [result] at failed
    split at failed
    · exact (Except.error.inj failed).symm
    · simp at failed
  · intro some
    obtain ⟨i, early, a, single⟩ := some
    rw [result, if_neg]
    · rfl
    · intro none
      exact nothing.mp none i early a single
  · intro found run
    obtain ⟨_, distinct, few, solutions⟩ := of_distinctWitnesses wellFormed checked positive run
    refine ⟨distinct, few, solutions, ?_⟩
    intro more larger _
    exact distinctWitnesses_of_le wellFormed checked positive larger run

theorem distinctWitnesses_sequential_overlapping :
    let solver : Solver := ⟨Examples.overlappingModel, {}⟩
    let c : Context := .ofFact ⟨1, .bool true⟩
    let held (tags : List String) : List Value :=
      [.bool false, .bool true, .selection (tags.map .text), .int 1]
    Examples.overlapping.build 0 = .ok solver.model ∧ checkContext solver.model c = .ok () ∧
      2 * 3 ≤ maxAttempts ∧
      (∃ a, (solver.witnessSeeded c (0xffffffffffffffff + Nat.toUInt64 3)).result = .ok a) ∧
      ∃ found, (solver.distinctWitnesses c 2 0xffffffffffffffff).result = .ok found ∧
        found = [.ofValues solver.model (held ["x", "z"]), .ofValues solver.model (held ["x"])] ∧
        ∃ found', (solver.distinctWitnesses c 3 0xffffffffffffffff).result = .ok found' ∧
          found <+: found' := by
  intro solver c held
  have built : Examples.overlapping.build 0 = .ok solver.model := rfl
  have checked : checkContext solver.model c = .ok () := rfl
  have last : (solver.witnessSeeded c (0xffffffffffffffff + Nat.toUInt64 3)).result.toOption =
      some (.ofValues solver.model (held ["x"])) := by decide +kernel
  have single := toOption_eq_some_iff.mp last
  obtain ⟨_, _, result, found⟩ := distinctWitnesses_sequential built checked 0xffffffffffffffff
    (show 0 < 2 by decide) (by decide)
  have run := result ⟨3, by decide, _, single⟩
  obtain ⟨_, _, _, longer⟩ := found _ run
  exact ⟨built, checked, by decide, ⟨_, single⟩, _, run, by decide +kernel,
    longer 3 (by decide) (by decide)⟩

end Solver

end DecisionSpace
