import DecisionSpace.Proofs.Search.Distinct

/-!
# Work of solvers

What a solver counts.  A run of attempts is a list of repairs: some are given up, each of
them at the flip limit, and the last one may have succeeded.  The work of a call is read off
this list, and the work of many calls, on a solver and on its clones, is the sum of the work
of each.  Work can be any amount; a tally shows it as far as 64 bits do.
-/

set_option autoImplicit false

namespace DecisionSpace

open Sampling
open Search

/-! ## Amounts of work -/

structure Work where
  witnesses : Nat := 0
  failures : Nat := 0
  restarts : Nat := 0
  repairSteps : Nat := 0
  deriving DecidableEq

def Tally.work (t : Tally) : Work := ⟨t.witnesses, t.failures, t.restarts, t.repairSteps⟩

namespace Work

def add (v w : Work) : Work :=
  ⟨v.witnesses + w.witnesses, v.failures + w.failures, v.restarts + w.restarts,
    v.repairSteps + w.repairSteps⟩

def sum (works : List Work) : Work :=
  ⟨(works.map (·.witnesses)).sum, (works.map (·.failures)).sum, (works.map (·.restarts)).sum,
    (works.map (·.repairSteps)).sum⟩

def tally (w : Work) : Tally :=
  ⟨.ofNat w.witnesses, .ofNat w.failures, .ofNat w.restarts, .ofNat w.repairSteps⟩

structure Fits (w : Work) : Prop where
  witnesses : w.witnesses < UInt64.size
  failures : w.failures < UInt64.size
  restarts : w.restarts < UInt64.size
  repairSteps : w.repairSteps < UInt64.size

theorem work_tally {w : Work} (fits : w.Fits) : w.tally.work = w := by
  obtain ⟨witnesses, failures, restarts, repairSteps⟩ := fits
  simp only [Tally.work, tally, UInt64.toNat_ofNat_of_lt', witnesses, failures, restarts,
    repairSteps]

theorem tally_add (v w : Work) : (v.add w).tally = v.tally.add w.tally := by
  simp only [tally, add, Tally.add, UInt64.ofNat_add]

theorem sum_cons (w : Work) (works : List Work) : sum (w :: works) = w.add (sum works) := rfl

end Work

theorem Tally.add_assoc (t u v : Tally) : (t.add u).add v = t.add (u.add v) := by
  simp only [add, UInt64.add_assoc]

theorem Tally.empty_add (t : Tally) : ({} : Tally).add t = t := by
  simp only [add, UInt64.zero_add]

theorem Tally.foldl_add {α : Type*} {tallies : α → Tally} {works : α → Work}
    (same : ∀ x, tallies x = (works x).tally) (xs : List α) (t : Tally) :
    xs.foldl (fun t x => t.add (tallies x)) t = t.add (Work.sum (xs.map works)).tally := by
  induction xs generalizing t with
  | nil => simp [Work.sum, Work.tally, add]
  | cons x rest ih =>
      rw [List.foldl_cons, ih, same, List.map_cons, Work.sum_cons, Work.tally_add, add_assoc]

/-! ## Flips of a repair -/

namespace Search

theorem flips_flip_le (m : Model) (st : State) (id : Nat) :
    (st.flip m id).flips ≤ st.flips + 1 := by
  unfold State.flip
  split
  · exact Nat.le_succ _
  · exact le_rfl

theorem Repairs.flips_le {m : Model} {c : Context} {policy : RepairPolicy} {flips : Nat}
    {st : State} {r : Repair} (repairs : Repairs m c policy flips st r) :
    r.state.flips ≤ st.flips + flips := by
  induction repairs with
  | repaired _ => exact Nat.le_add_right _ _
  | limitReached _ => exact Nat.le_add_right _ _
  | stuck _ _ => exact Nat.le_add_right _ _
  | @flip _ _ id st _ _ _ _ ih =>
      have one := flips_flip_le m st id
      omega

end Search

namespace Solver

variable {σ : Type} [Chance σ]

/-! ## Attempts of a search -/

def trail (solver : Solver) (c : Context) : (attempts : Nat) → σ → List Repair
  | 0, _ => []
  | attempts + 1, s =>
      let (r, s) := solver.attempt c s
      if r.outcome = .limitReached then r :: trail solver c attempts s else [r]

def tried (solver : Solver) (c : Context) (s : σ) : List Repair :=
  match checkContext solver.model c with
  | .error _ => []
  | .ok () => solver.trail c solver.settings.restarts s

def abandoned (trail : List Repair) : Nat := trail.countP fun r => r.outcome = .limitReached

def finalFlips (trail : List Repair) : Nat :=
  (trail.find? fun r => r.outcome = .repaired).elim 0 (·.state.flips)

/-- How a search goes whose constraints have room: attempts are given up at the flip limit
until one succeeds or none is left. -/
inductive Course (limit : Nat) : Nat → List Repair → Run Assignment → Prop where
  | exhausted {e : Failure} : Course limit 0 [] ⟨.error e, {}⟩
  | repaired {attempts : Nat} {r : Repair} {a : Assignment} (repaired : r.outcome = .repaired)
      (within : r.state.flips ≤ limit) :
      Course limit (attempts + 1) [r] ⟨.ok a, { repairSteps := .ofNat r.state.flips }⟩
  | abandoned {attempts : Nat} {r : Repair} {rest : List Repair} {run : Run Assignment}
      (limitReached : r.outcome = .limitReached) (spent : r.state.flips = limit)
      (later : Course limit attempts rest run) :
      Course limit (attempts + 1) (r :: rest)
        ⟨run.result, run.tally.add { restarts := 1, repairSteps := .ofNat r.state.flips }⟩

theorem flips_attempt_le (solver : Solver) (c : Context) (s : σ) :
    (solver.attempt c s).1.state.flips ≤ solver.stepLimit := by
  -- an attempt counts its flips from zero
  have bound := (repairs_repair solver.model c solver.settings.repairPolicy solver.stepLimit
    (.ofValues solver.model (start solver.model c s).1) (start solver.model c s).2).flips_le
  exact bound.trans (Nat.zero_add _).le

theorem course {solver : Solver} {c : Context} (wellFormed : solver.model.WellFormed)
    (checked : checkContext solver.model c = .ok ()) (attempts : Nat) (s : σ) :
    Course solver.stepLimit attempts (solver.trail c attempts s) (search solver c attempts s).1 := by
  obtain ⟨valid, room⟩ := checkContext_ok_iff.mp checked
  induction attempts generalizing s with
  | zero => exact .exhausted
  | succ attempts ih =>
      rw [search_succ, trail]
      cases outcome : (solver.attempt c s).1.outcome with
      | repaired =>
          simp only [outcome, ofSlots_attempt wellFormed valid]
          exact .repaired outcome (flips_attempt_le solver c s)
      | stuck k =>
          -- the check of the context leaves room for what cannot be switched off
          exact absurd outcome
            (not_stuck wellFormed room (start_consistent wellFormed valid s) _ _ _ k)
      | limitReached =>
          have spent := ((attempt_ends wellFormed valid s).limitReached outcome).2
          simp only [outcome]
          exact .abandoned outcome (spent.trans (Nat.zero_add _)) (ih _)

section
variable {limit attempts : Nat} {trail : List Repair} {run : Run Assignment}

theorem Course.abandoned_le (course : Course limit attempts trail run) :
    Solver.abandoned trail ≤ attempts := by
  induction course with
  | exhausted => exact le_rfl
  | repaired repaired _ => simp [Solver.abandoned, repaired]
  | abandoned limitReached _ _ ih =>
      rw [Solver.abandoned, List.countP_cons_of_pos (by simpa using limitReached)]
      exact Nat.succ_le_succ ih

theorem Course.abandoned_eq_iff (course : Course limit attempts trail run) :
    Solver.abandoned trail = attempts ↔ run.result.isOk = false := by
  induction course with
  | exhausted => exact ⟨fun _ => rfl, fun _ => rfl⟩
  | repaired repaired _ => simp [Solver.abandoned, repaired, Except.isOk, Except.toBool]
  | abandoned limitReached _ _ ih =>
      rw [Solver.abandoned, List.countP_cons_of_pos (by simpa using limitReached), Nat.succ_inj]
      exact ih

theorem Course.finalFlips_le (course : Course limit attempts trail run) :
    finalFlips trail ≤ limit := by
  induction course with
  | exhausted => exact Nat.zero_le _
  | repaired repaired within => simpa [finalFlips, repaired] using within
  | abandoned limitReached _ _ ih => simpa [finalFlips, limitReached] using ih

theorem Course.last (course : Course limit attempts trail run) (found : run.result.isOk = true) :
    ∃ r, trail.getLast? = some r ∧ r.outcome = .repaired ∧ finalFlips trail = r.state.flips := by
  induction course with
  | exhausted => simp [Except.isOk, Except.toBool] at found
  | @repaired _ r _ repaired _ => exact ⟨r, rfl, repaired, by simp [finalFlips, repaired]⟩
  | @abandoned _ r rest _ limitReached _ _ ih =>
      obtain ⟨last, ends, repaired, flips⟩ := ih found
      refine ⟨last, ?_, repaired, ?_⟩
      · rw [List.getLast?_cons, ends]
        rfl
      · rw [← flips]
        simp [finalFlips, limitReached]

theorem Course.finalFlips_eq_zero (course : Course limit attempts trail run)
    (failed : run.result.isOk = false) : finalFlips trail = 0 := by
  induction course with
  | exhausted => rfl
  | repaired _ _ => simp [Except.isOk, Except.toBool] at failed
  | abandoned limitReached _ _ ih =>
      rw [← ih failed]
      simp [finalFlips, limitReached]

theorem Course.tally (course : Course limit attempts trail run) :
    run.tally = Work.tally
      { restarts := Solver.abandoned trail
        repairSteps := limit * Solver.abandoned trail + finalFlips trail } := by
  induction course with
  | exhausted => rfl
  | repaired repaired _ => simp [Solver.abandoned, finalFlips, repaired, Work.tally]
  | @abandoned _ r rest _ limitReached spent _ ih =>
      have one : Solver.abandoned (r :: rest) = Solver.abandoned rest + 1 :=
        List.countP_cons_of_pos (by simpa using limitReached)
      have same : finalFlips (r :: rest) = finalFlips rest := by
        simp [finalFlips, limitReached]
      have more : ({ restarts := 1, repairSteps := .ofNat r.state.flips } : Tally) =
          Work.tally { restarts := 1, repairSteps := limit } := by rw [spent]; rfl
      rw [one, same, ih, more, ← Work.tally_add, Nat.mul_succ, Nat.add_right_comm]
      rfl

end

/-! ## Witnesses -/

def witnessWork (solver : Solver) (c : Context) (s : σ) : Work where
  witnesses := if (solver.witness c s).1.result.isOk then 1 else 0
  failures := if (solver.witness c s).1.result.isOk then 0 else 1
  restarts := abandoned (solver.tried c s)
  repairSteps := solver.stepLimit * abandoned (solver.tried c s) + finalFlips (solver.tried c s)

theorem counted_tally {α : Type} (run : Run α) :
    run.counted.tally = run.tally.add (Work.tally
      { witnesses := if run.result.isOk then 1 else 0
        failures := if run.result.isOk then 0 else 1 }) := by
  unfold Run.counted
  split
  · rename_i found
    rw [found]
    rfl
  · rename_i failed
    rw [failed]
    rfl

section
variable {solver : Solver} {c : Context}

theorem tried_of_error {e : Failure} (refused : checkContext solver.model c = .error e) (s : σ) :
    solver.tried c s = [] := by
  simp only [tried, refused]

theorem course_tried (wellFormed : solver.model.WellFormed)
    (checked : checkContext solver.model c = .ok ()) (s : σ) :
    Course solver.stepLimit solver.settings.restarts (solver.tried c s)
      (search solver c solver.settings.restarts s).1 := by
  have tried : solver.tried c s = solver.trail c solver.settings.restarts s := by
    simp only [Solver.tried, checked]
  rw [tried]
  exact course wellFormed checked _ s

theorem tally_witness_of_error {e : Failure} (refused : checkContext solver.model c = .error e)
    (s : σ) : (solver.witness c s).1.tally = { failures := 1 } := by
  simp only [witness, refused]
  rfl

theorem tally_witness (wellFormed : solver.model.WellFormed) (c : Context) (s : σ) :
    (solver.witness c s).1.tally = (solver.witnessWork c s).tally := by
  cases checked : checkContext solver.model c with
  | error e =>
      rw [tally_witness_of_error checked, witnessWork, tried_of_error checked]
      simp [witness, checked, abandoned, finalFlips, Except.isOk, Except.toBool, Work.tally]
  | ok u =>
      have run : (solver.witness c s).1 = (search solver c solver.settings.restarts s).1.counted := by
        simp only [witness, checked]
      rw [witnessWork, run, counted_tally, counted_result,
        (course_tried wellFormed checked s).tally, ← Work.tally_add]
      simp only [Work.add, Nat.zero_add, Nat.add_zero]

end

/-! ## Several calls -/

inductive Query : Type 1 where
  | witness {σ : Type} [Chance σ] (c : Context) (s : σ)
  | distinctWitnesses (c : Context) (limit : Nat) (seed : UInt64)
  | enumerate (c : Context) (limit : Nat)

def Query.tally (solver : Solver) : Query → Tally
  | @Query.witness _ _ c s => (solver.witness c s).1.tally
  | .distinctWitnesses c limit seed => (solver.distinctWitnesses c limit seed).tally
  | .enumerate _ _ => {}

def totals (m : Model) (queries : List (Settings × Query)) : Tally :=
  queries.foldl (fun t query => t.add (query.2.tally ⟨m, query.1⟩)) {}

def Query.work (solver : Solver) : Query → Work
  | @Query.witness _ _ c s => solver.witnessWork c s
  | .distinctWitnesses c limit seed =>
      match checkContext solver.model c with
      | .error _ => {}
      | .ok () =>
          Work.sum ((List.range (attempts limit)).map fun i =>
            solver.witnessWork c (ChaCha.ofSeed (seed + i.toUInt64)))
  | .enumerate _ _ => {}

section
variable {solver : Solver} {c : Context} {limit : Nat}

theorem tally_distinctWitnesses_of_unasked
    (unasked : limit = 0 ∨ ∃ e, checkContext solver.model c = .error e) (seed : UInt64) :
    (solver.distinctWitnesses c limit seed).tally = {} := by
  rw [distinctWitnesses]
  split
  · rfl
  · rename_i positive
    obtain none | ⟨e, refused⟩ := unasked
    · exact absurd none positive
    · rw [refused]

theorem tally_distinctWitnesses (wellFormed : solver.model.WellFormed)
    (checked : checkContext solver.model c = .ok ()) (seed : UInt64) :
    (solver.distinctWitnesses c limit seed).tally =
      (Work.sum ((List.range (attempts limit)).map fun i =>
        solver.witnessWork c (ChaCha.ofSeed (seed + i.toUInt64)))).tally := by
  have collected : ((List.range (attempts limit)).map fun i =>
      solver.witnessSeeded c (seed + i.toUInt64)).foldl (fun t run => t.add run.tally) {} =
        (Work.sum ((List.range (attempts limit)).map fun i =>
          solver.witnessWork c (ChaCha.ofSeed (seed + i.toUInt64)))).tally := by
    have each (i : Nat) : (solver.witnessSeeded c (seed + i.toUInt64)).tally =
        (solver.witnessWork c (ChaCha.ofSeed (seed + i.toUInt64))).tally :=
      tally_witness wellFormed c _
    rw [List.foldl_map, Tally.foldl_add each, Tally.empty_add]
  have tries : min (2 * limit) maxAttempts = attempts limit := rfl
  rw [distinctWitnesses]
  split
  · rename_i none
    rw [none]
    rfl
  · simp only [checked, tries, collected]
    split
    · rfl
    · rfl

theorem witnessWork_counts (solver : Solver) (c : Context) (s : σ) :
    (solver.witnessWork c s).witnesses + (solver.witnessWork c s).failures = 1 := by
  simp only [witnessWork]
  split
  · rfl
  · rfl

theorem counts_sum_witnessWork (solver : Solver) (c : Context) (seed : UInt64) (runs : List Nat) :
    let work := Work.sum (runs.map fun i =>
      solver.witnessWork c (ChaCha.ofSeed (seed + i.toUInt64)))
    work.witnesses + work.failures = runs.length := by
  induction runs with
  | nil => rfl
  | cons i rest ih =>
      have one := solver.witnessWork_counts c (ChaCha.ofSeed (seed + i.toUInt64))
      simp only [Work.sum, List.map_cons, List.sum_cons, List.length_cons] at ih ⊢
      omega

theorem Query.tally_eq_work (wellFormed : solver.model.WellFormed) (query : Query) :
    query.tally solver = (query.work solver).tally := by
  cases query with
  | witness c s => exact tally_witness wellFormed c s
  | enumerate c limit => rfl
  | distinctWitnesses c limit seed =>
      rw [tally, work]
      cases checked : checkContext solver.model c with
      | error e => exact tally_distinctWitnesses_of_unasked (.inr ⟨e, checked⟩) seed
      | ok u => exact tally_distinctWitnesses wellFormed checked seed

end

/-- A witness is counted once, as a success or as a failure.  It is counted with the
attempts that were given up, at most as many as there may be, and with their flips, which are
as many as there may be, and those of the last attempt if that succeeded.  Past the check of
the context, all attempts are given up exactly when the witness fails; a failed check counts
as a failure and nothing else.  Distinct witnesses are counted one by one, twice as many as
asked for, an enumeration not at all, and a solver and its clones together count the sum: it
is what their counters show, as long as these have not started over. -/
theorem totals_eq_work {serial : Nat} {d : Declaration} {m : Model}
    (built : d.build serial = .ok m) :
    (∀ (settings : Settings) (c : Context) {σ : Type} [Chance σ] (s : σ),
      let solver : Solver := ⟨m, settings⟩
      let run := (solver.witness c s).1
      let tried := solver.tried c s
      let work : Work :=
        { witnesses := if run.result.isOk then 1 else 0
          failures := if run.result.isOk then 0 else 1
          restarts := abandoned tried
          repairSteps := solver.stepLimit * abandoned tried + finalFlips tried }
      run.tally = work.tally ∧ (work.Fits → run.tally.work = work) ∧
      abandoned tried ≤ settings.restarts ∧
      finalFlips tried ≤ solver.stepLimit ∧
      (run.result.isOk = true → ∃ r, tried.getLast? = some r ∧ r.outcome = .repaired ∧
        finalFlips tried = r.state.flips) ∧
      (run.result.isOk = false → finalFlips tried = 0) ∧
      (checkContext m c = .ok () →
        (abandoned tried = settings.restarts ↔ run.result.isOk = false)) ∧
      ∀ e, checkContext m c = .error e → run.tally = { failures := 1 }) ∧
    (∀ settings c limit seed,
      let tally := ((⟨m, settings⟩ : Solver).distinctWitnesses c limit seed).tally
      (0 < limit → 2 * limit ≤ maxAttempts → checkContext m c = .ok () →
        (tally.witnesses : Nat) + tally.failures = 2 * limit) ∧
      ((limit = 0 ∨ ∃ e, checkContext m c = .error e) → tally = {})) ∧
    (∀ settings c limit, (Query.enumerate c limit).tally ⟨m, settings⟩ = {}) ∧
    ∀ queries : List (Settings × Query),
      let work := Work.sum (queries.map fun query => query.2.work ⟨m, query.1⟩)
      totals m queries = work.tally ∧ (work.Fits → (totals m queries).work = work) := by
  have wellFormed := Declaration.build_wellFormed built
  refine ⟨?_, ?_, fun _ _ _ => rfl, ?_⟩
  · intro settings c σ _ s solver run tried work
    have tally : run.tally = work.tally := tally_witness wellFormed c s
    have fitting (fits : work.Fits) : run.tally.work = work := by
      rw [tally, Work.work_tally fits]
    cases checked : checkContext m c with
    | error e =>
        have none : tried = [] := tried_of_error checked s
        have failed : run.result = .error e := by
          simp only [run, solver, witness, checked, counted_result]
        refine ⟨tally, fitting, ?_, ?_, ?_, ?_, by simp,
          fun _ _ => tally_witness_of_error checked s⟩
        · rw [none]
          exact Nat.zero_le _
        · rw [none]
          exact Nat.zero_le _
        · simp [failed, Except.isOk, Except.toBool]
        · exact fun _ => by rw [none]; rfl
    | ok u =>
        have course : Course solver.stepLimit settings.restarts tried _ :=
          course_tried wellFormed checked s
        have result : run.result = (search solver c settings.restarts s).1.result :=
          witness_of_checked checked s
        refine ⟨tally, fitting, course.abandoned_le, course.finalFlips_le, ?_, ?_, ?_, by simp⟩
        · rw [result]
          exact course.last
        · rw [result]
          exact course.finalFlips_eq_zero
        · rw [result]
          exact fun _ => course.abandoned_eq_iff
  · intro settings c limit seed tally
    refine ⟨fun positive counted checked => ?_, fun unasked =>
      tally_distinctWitnesses_of_unasked unasked seed⟩
    have runs : tally = (Work.sum _).tally :=
      @tally_distinctWitnesses ⟨m, settings⟩ c limit wellFormed checked seed
    have sum := counts_sum_witnessWork ⟨m, settings⟩ c seed (List.range (attempts limit))
    rw [List.length_range, attempts_eq counted] at sum
    dsimp only at sum
    rw [runs, attempts_eq counted, Work.tally]
    -- neither counter can have started over with so few runs
    have size : maxAttempts < UInt64.size := by decide
    rw [UInt64.toNat_ofNat_of_lt' (by omega), UInt64.toNat_ofNat_of_lt' (by omega)]
    exact sum
  · intro queries work
    have each (query : Settings × Query) :
        query.2.tally ⟨m, query.1⟩ = (query.2.work ⟨m, query.1⟩).tally :=
      Query.tally_eq_work wellFormed query.2
    have total : totals m queries = work.tally := by
      rw [totals, Tally.foldl_add each, Tally.empty_add]
    exact ⟨total, fun fits => by rw [total, Work.work_tally fits]⟩

theorem totals_eq_work_overlapping :
    let solver : Solver := ⟨Examples.overlappingModel, { restarts := 3, maxRepairSteps := some 1 }⟩
    let overfull : Context := .ofFact ⟨0, .bool true⟩
    let several : Tally := (solver.distinctWitnesses {} 2 5).tally
    Examples.overlapping.build 0 = .ok solver.model ∧ solver.stepLimit = 1 ∧
      abandoned (solver.tried {} (ChaCha.ofSeed 13)) = 1 ∧
      finalFlips (solver.tried {} (ChaCha.ofSeed 13)) = 1 ∧
      (solver.witness {} (ChaCha.ofSeed 13)).1.tally =
        { witnesses := 1, restarts := 1, repairSteps := 1 * 1 + 1 } ∧
      (∃ e, checkContext solver.model overfull = .error e) ∧
      (solver.witness overfull (ChaCha.ofSeed 13)).1.tally = { failures := 1 } ∧
      (several.witnesses : Nat) + several.failures = 2 * 2 ∧
      totals solver.model
          [(solver.settings, .witness {} (ChaCha.ofSeed 6)), (solver.settings, .enumerate {} 5),
            (solver.settings, .witness overfull (ChaCha.ofSeed 13)),
            ({}, .witness {} (ChaCha.ofSeed 13))] =
        { witnesses := 2, failures := 1, restarts := 2, repairSteps := 4 } := by
  intro solver overfull several
  have built : Examples.overlapping.build 0 = .ok solver.model := rfl
  have checked : checkContext solver.model {} = .ok () := rfl
  obtain ⟨e, refused⟩ : ∃ e, checkContext solver.model overfull = .error e := ⟨_, rfl⟩
  have counts : (several.witnesses : Nat) + several.failures = 2 * 2 := by
    -- the numbers are not to be computed here
    clear_value solver
    obtain ⟨_, distinct, _⟩ := totals_eq_work built
    exact (distinct solver.settings {} 2 5).1 (by decide) (by decide) checked
  obtain ⟨witnesses, _, _, together⟩ := totals_eq_work built
  have abandoned : abandoned (solver.tried {} (ChaCha.ofSeed 13)) = 1 := by decide +kernel
  have flips : finalFlips (solver.tried {} (ChaCha.ofSeed 13)) = 1 := by decide +kernel
  have found : (solver.witness {} (ChaCha.ofSeed 13)).1.result.isOk = true := by decide +kernel
  obtain ⟨tally, _⟩ := witnesses solver.settings {} (ChaCha.ofSeed 13)
  obtain ⟨_, _, _, _, _, _, _, failure⟩ := witnesses solver.settings overfull (ChaCha.ofSeed 13)
  refine ⟨built, rfl, abandoned, flips, ?_, ⟨e, refused⟩, failure e refused, counts, ?_⟩
  · rw [tally, abandoned, flips, found]
    rfl
  · rw [(together _).1]
    decide +kernel

end Solver

end DecisionSpace
