import DecisionSpace.Examples
import DecisionSpace.Proofs.Bandit.Selection
import DecisionSpace.Proofs.Fallible
import DecisionSpace.Proofs.Solution

/-!
# Best arms

Which of the arms that agree with a context a selection answers.  The best of the scores
stands at the first position where no other exceeds it, and this survives the way back from
the positions of the scores to those of the arms.
-/

set_option autoImplicit false

namespace DecisionSpace

open Sampling Fallible

namespace Bandit

/-! ## What a score counts for -/

def worth (b : Bandit) (score : Float) : Float := scoreKey (if b.maximize then score else -score)

theorem scoreKey_signed (b : Bandit) (score : Float) : scoreKey (b.signed score) = b.worth score := by
  unfold signed worth
  split
  · rw [Double.one_mul]
  · rw [Double.neg_one_mul]

theorem worth_le_of_nan (b : Bandit) {x : Float} (nan : x.isNaN = true) (y : Float) :
    b.worth x ≤ b.worth y := by
  refine scoreKey_le_of_nan ?_ _
  split
  · exact nan
  · rw [Double.isNaN_neg]
    exact nan

theorem worth_le_worth_iff {b : Bandit} (minimize : b.maximize = false) {x y : Float}
    (first : x.isNaN = false) (second : y.isNaN = false) : b.worth y ≤ b.worth x ↔ x ≤ y := by
  have negated : ∀ z : Float, z.isNaN = false → b.worth z = -z := by
    intro z number
    have turned : (-z).isNaN = false := (Double.isNaN_neg z).trans number
    rw [worth, minimize]
    exact scoreKey_of_number turned
  rw [negated x first, negated y second]
  exact Double.neg_le_neg_iff

/-! ## Scores of the arms -/

def Eligible (b : Bandit) (c : Context) (i : Nat) : Prop :=
  ∃ arm, b.arms[i]? = some arm ∧ ∀ id x, c.get? id = some x → arm.assignment.value? id = some x

/-- Arms are scored one after the other, each once, with the source that the one before
left. -/
inductive Evaluated {σ : Type} (b : Bandit) (score : Stats → σ → Float × σ) :
    List (Nat × Float) → σ → σ → Prop where
  | nil (s : σ) : Evaluated b score [] s s
  | cons {i : Nat} {arm : Arm} {x : Float} {rest : List (Nat × Float)} {s s' s'' : σ}
      (stands : b.arms[i]? = some arm) (scores : score arm.stats s = (x, s'))
      (later : Evaluated b score rest s' s'') : Evaluated b score ((i, x) :: rest) s s''

structure IsBest (b : Bandit) (scored : List (Nat × Float)) (i : Nat) (score : Float) : Prop where
  listed : (i, score) ∈ scored
  most : ∀ entry ∈ scored, b.worth entry.2 ≤ b.worth score
  first : ∀ entry ∈ scored, (∀ other ∈ scored, b.worth other.2 ≤ b.worth entry.2) → i ≤ entry.1

structure Answered (b : Bandit) (c : Context) (scored : List (Nat × Float))
    (result : Except Failure Nat) : Prop where
  ascending : (scored.map (·.1)).Pairwise (· < ·)
  complete : ∀ i, i ∈ scored.map (·.1) ↔ b.Eligible c i
  best : ∀ i, result = .ok i ↔ ∃ score, b.IsBest scored i score
  failed : ∀ e, result = .error e ↔
    e = .unsatisfiable (.noEligibleArm b.model.name) ∧ ∀ i, ¬ b.Eligible c i

section
variable {σ : Type} {b : Bandit} {c : Context}

theorem IsBest.unique {scored : List (Nat × Float)} {i j : Nat} {x y : Float}
    (one : b.IsBest scored i x) (other : b.IsBest scored j y) : i = j :=
  Nat.le_antisymm (one.first _ other.listed other.most) (other.first _ one.listed one.most)

theorem mem_positions_eligible (i : Nat) : i ∈ (b.eligible c).map (·.2) ↔ b.Eligible c i := by
  rw [List.mem_map]
  constructor
  · intro listed
    obtain ⟨⟨arm, _⟩, member, rfl⟩ := listed
    obtain ⟨stands, agrees⟩ := mem_eligible.mp member
    exact ⟨arm, stands, (Assignment.satisfies_iff _ c).mp agrees⟩
  · intro eligible
    obtain ⟨arm, stands, holds⟩ := eligible
    exact ⟨(arm, i), mem_eligible.mpr ⟨stands, (Assignment.satisfies_iff _ c).mpr holds⟩, rfl⟩

theorem positions_eligible_ascending : ((b.eligible c).map (·.2)).Pairwise (· < ·) := by
  have all : (b.arms.zipIdx.map (·.2)).Pairwise (· < ·) := by
    rw [List.zipIdx_map_snd]
    exact List.pairwise_lt_range'
  exact all.sublist (List.filter_sublist.map _)

theorem evaluated (score : Stats → σ → Float × σ) {entries : List (Arm × Nat)}
    (stand : ∀ entry ∈ entries, b.arms[entry.2]? = some entry.1) (s : σ) :
    b.Evaluated score ((entries.map (·.2)).zip (scoreAll score (entries.map (·.1.stats)) s).1) s
      (scoreAll score (entries.map (·.1.stats)) s).2 := by
  induction entries generalizing s with
  | nil => exact .nil s
  | cons entry rest ih =>
      obtain ⟨stands, later⟩ := List.forall_mem_cons.mp stand
      exact .cons stands rfl (ih later _)

theorem isBest_of_argmax {positions : List Nat} {scores : List Float} {k : Nat}
    (ascending : positions.Pairwise (· < ·)) (length : scores.length = positions.length)
    (found : argmax (scores.map b.signed) = some k) :
    ∃ score, b.IsBest (positions.zip scores) (positions.getD k 0) score := by
  obtain ⟨key, stands, most, first⟩ := argmax_leads found
  rw [List.getElem?_map] at stands
  obtain ⟨x, scored, rfl⟩ := Option.map_eq_some_iff.mp stands
  have inRange : k < positions.length := by
    rw [← length]
    exact (List.getElem?_eq_some_iff.mp scored).1
  have position : positions[k]? = some (positions.getD k 0) := by
    simp [List.getD_eq_getElem?_getD, inRange]
  have most' : ∀ y ∈ scores, b.worth y ≤ b.worth x := by
    intro y member
    rw [← scoreKey_signed, ← scoreKey_signed]
    exact most _ (List.mem_map_of_mem member)
  have listed : (positions.getD k 0, x) ∈ positions.zip scores :=
    List.mem_of_getElem? (List.getElem?_zip_eq_some.mpr ⟨position, scored⟩)
  refine ⟨x, listed, fun entry member => most' _ (List.of_mem_zip member).2, ?_⟩
  intro entry member highest
  -- positions and scores run in step, so an entry that comes earlier has an earlier score
  obtain ⟨j, stands⟩ := List.mem_iff_getElem?.mp member
  obtain ⟨position', scored'⟩ := List.getElem?_zip_eq_some.mp stands
  have notBefore : k ≤ j := by
    by_contra before
    have earlier : (scores.map b.signed)[j]? = some (b.signed entry.2) := by
      rw [List.getElem?_map, scored']
      rfl
    have exceeds : b.worth x ≤ b.worth entry.2 := highest (positions.getD k 0, x) listed
    rw [← scoreKey_signed, ← scoreKey_signed] at exceeds
    exact first j (Nat.lt_of_not_le before) _ earlier exceeds
  obtain later | same := Nat.lt_or_eq_of_le notBefore
  · obtain ⟨_, at_k⟩ := List.getElem?_eq_some_iff.mp position
    obtain ⟨inRange', at_j⟩ := List.getElem?_eq_some_iff.mp position'
    have less := List.pairwise_iff_getElem.mp ascending k j inRange inRange' later
    rw [at_k, at_j] at less
    exact Nat.le_of_lt less
  · rw [← same, position] at position'
    exact Nat.le_of_eq (Option.some.inj position')

theorem answered_of_scores {positions : List Nat} {scores : List Float}
    (ascending : positions.Pairwise (· < ·)) (complete : ∀ i, i ∈ positions ↔ b.Eligible c i)
    (length : scores.length = positions.length) :
    b.Answered c (positions.zip scores)
      (match argmax (scores.map b.signed) with
      | some k => .ok (positions.getD k 0)
      | none => .error (.unsatisfiable (.noEligibleArm b.model.name))) := by
  have arms : (positions.zip scores).map (·.1) = positions := List.map_fst_zip (Nat.le_of_eq length.symm)
  refine ⟨by rwa [arms], by rwa [arms], ?_, ?_⟩
  · intro i
    cases found : argmax (scores.map b.signed) with
    | some k =>
        obtain ⟨score, best⟩ := isBest_of_argmax ascending length found
        constructor
        · intro answer
          rw [← Except.ok.inj answer]
          exact ⟨score, best⟩
        · intro other
          obtain ⟨score', best'⟩ := other
          exact congrArg Except.ok (best.unique best')
    | none =>
        have none := List.map_eq_nil_iff.mp (argmax_eq_none_iff.mp found)
        constructor
        · intro answer
          cases answer
        · intro other
          obtain ⟨score, best⟩ := other
          have listed := best.listed
          rw [none, List.zip_nil_right] at listed
          exact absurd listed List.not_mem_nil
  · intro e
    cases found : argmax (scores.map b.signed) with
    | some k =>
        obtain ⟨score, best⟩ := isBest_of_argmax ascending length found
        constructor
        · intro answer
          cases answer
        · intro other
          exact absurd ((complete _).mp (List.of_mem_zip best.listed).1) (other.2 _)
    | none =>
        have none := List.map_eq_nil_iff.mp (argmax_eq_none_iff.mp found)
        rw [none, List.length_nil, eq_comm, List.length_eq_zero_iff] at length
        have unmet : ∀ i, ¬ b.Eligible c i := by
          intro i eligible
          rw [← complete, length] at eligible
          exact absurd eligible List.not_mem_nil
        constructor
        · intro answer
          exact ⟨(Except.error.inj answer).symm, unmet⟩
        · intro other
          exact congrArg Except.error other.1.symm

theorem answered_select (valid : c.validate b.model = .ok ()) (score : Stats → σ → Float × σ)
    (s : σ) :
    ∃ scored, b.Evaluated score scored s (b.select c score s).2.2 ∧
      b.Answered c scored (b.select c score s).1 := by
  have length : (scoreAll score ((b.eligible c).map (·.1.stats)) s).1.length =
      ((b.eligible c).map (·.2)).length := by
    rw [scoreAll_length, List.length_map, List.length_map]
  have stand : ∀ entry ∈ b.eligible c, b.arms[entry.2]? = some entry.1 :=
    fun entry member => (mem_eligible.mp member).1
  have run := evaluated score stand s
  have answer := answered_of_scores positions_eligible_ascending mem_positions_eligible length
  refine ⟨((b.eligible c).map (·.2)).zip (scoreAll score ((b.eligible c).map (·.1.stats)) s).1,
    ?_, ?_⟩
  · rw [select]
    simp only [valid]
    split
    · exact run
    · exact run
  · rw [select]
    simp only [valid]
    split
    · rename_i k found
      rw [found] at answer
      exact answer
    · rename_i found
      rw [found] at answer
      exact answer

/-! ## Choices and the best mean -/

theorem scoreAll_pure (f : Stats → Float) (stats : List Stats) (s : σ) :
    scoreAll (fun stats s => (f stats, s)) stats s = (stats.map f, s) := by
  induction stats with
  | nil => rfl
  | cons first rest ih => simp only [scoreAll, ih, List.map_cons]

theorem select_pure {τ : Type} (b : Bandit) (c : Context) (f : Stats → Float) (s : σ) (t : τ) :
    (b.select c (fun stats s => (f stats, s)) s).1 =
      (b.select c (fun stats t => (f stats, t)) t).1 := by
  rw [select, select]
  cases c.validate b.model with
  | error e => rfl
  | ok u =>
      simp only [scoreAll_pure]
      cases argmax (((b.eligible c).map (·.1.stats)).map f |>.map b.signed) with
      | some k => rfl
      | none => rfl

theorem select_step (b : Bandit) (c : Context) (score : Stats → σ → Float × σ) (step : UInt64)
    (s : σ) : (select { b with step } c score s).1 = (b.select c score s).1 := by
  have arms : eligible { b with step } c = b.eligible c := rfl
  have signs : signed { b with step } = b.signed := rfl
  rw [select, select]
  cases c.validate b.model with
  | error e => rfl
  | ok u =>
      simp only [arms, signs]
      cases argmax ((scoreAll score ((b.eligible c).map (·.1.stats)) s).1.map b.signed) with
      | some k => rfl
      | none => rfl

theorem chooseWith_select [Words σ] (b : Bandit) (c : Context) (s : σ) :
    (b.chooseWith c s).1 = (b.select c b.policy.score s).1 ∧
      (b.chooseWith c s).2.2 = (b.select c b.policy.score s).2.2 := by
  rw [chooseWith]
  split
  · rename_i run
    rw [run]
    exact ⟨rfl, rfl⟩
  · rename_i run
    rw [run]
    exact ⟨rfl, rfl⟩

theorem choose_eq (b : Bandit) (c : Context) :
    (b.choose c).1 = (b.chooseWith c (ChaCha.ofStream b.seed b.step)).1 := by
  have chosen : (b.choose c).1 =
      (chooseWith { b with step := b.step + 1 } c (ChaCha.ofStream b.seed b.step)).1 := rfl
  rw [chosen, (chooseWith_select _ c _).1, (b.chooseWith_select c _).1]
  exact b.select_step c b.policy.score _ _

theorem optimal_eq (b : Bandit) (c : Context) :
    (b.optimal c).1 = (b.select c (fun stats (s : Unit) => (b.policy.mean stats, s)) ()).1 := rfl

theorem chooseWith_greedy [Words σ] {b : Bandit} (greedy : b.policy.strategy = .greedy)
    (c : Context) (s : σ) : (b.chooseWith c s).1 = (b.optimal c).1 := by
  have mean : (b.policy.score : Stats → σ → Float × σ) =
      fun stats s => (b.policy.mean stats, s) := by
    funext stats s
    rw [Policy.score, greedy]
    rfl
  rw [(b.chooseWith_select c s).1, mean, optimal_eq]
  exact b.select_pure c b.policy.mean s ()

theorem Evaluated.stands_pure {f : Stats → Float} {scored : List (Nat × Float)} {s s' : σ}
    (run : b.Evaluated (fun stats s => (f stats, s)) scored s s') :
    ∀ entry ∈ scored, ∃ arm, b.arms[entry.1]? = some arm ∧ entry.2 = f arm.stats := by
  induction run with
  | nil => exact fun entry member => absurd member List.not_mem_nil
  | @cons i arm x rest s s' s'' stands scores later ih =>
      intro entry member
      obtain rfl | member := List.mem_cons.mp member
      · exact ⟨arm, stands, (congrArg Prod.fst scores).symm⟩
      · exact ih entry member

theorem optimal_least (valid : c.validate b.model = .ok ()) (minimize : b.maximize = false)
    {i j : Nat} (answer : (b.optimal c).1 = .ok i) (eligible : b.Eligible c j) {arm other : Arm}
    (stands : b.arms[i]? = some arm) (stands' : b.arms[j]? = some other)
    (first : (b.policy.mean arm.stats).isNaN = false)
    (second : (b.policy.mean other.stats).isNaN = false) :
    b.policy.mean arm.stats ≤ b.policy.mean other.stats := by
  obtain ⟨scored, run, answered⟩ :=
    answered_select valid (fun stats (s : Unit) => (b.policy.mean stats, s)) ()
  obtain ⟨score, best⟩ := (answered.best i).mp answer
  obtain ⟨arm', atI, mean⟩ := run.stands_pure (i, score) best.listed
  obtain rfl : arm' = arm := Option.some.inj (atI.symm.trans stands)
  obtain ⟨entry, listed, rfl⟩ := List.mem_map.mp ((answered.complete j).mpr eligible)
  obtain ⟨other', atJ, mean'⟩ := run.stands_pure entry listed
  obtain rfl : other' = other := Option.some.inj (atJ.symm.trans stands')
  have most : b.worth entry.2 ≤ b.worth score := best.most entry listed
  rw [show score = _ from mean, mean'] at most
  exact (worth_le_worth_iff minimize first second).mp most

end

/-- Under a valid context the arms that hold its facts are scored once each, in their order,
and the answer is the first of those whose score is worth most; no arm is answered exactly when
none holds the facts.  This is so for every way of scoring, and so for choices on a source of
their own or on a given one and for the arm with the best mean.  Where small rewards are wanted
that is an arm with the least mean, and a greedy bandit chooses it. -/
theorem select_first_best {b : Bandit} {c : Context} (valid : c.validate b.model = .ok ()) :
    (∀ {σ : Type} (score : Stats → σ → Float × σ) (s : σ), ∃ scored,
      b.Evaluated score scored s (b.select c score s).2.2 ∧
        b.Answered c scored (b.select c score s).1) ∧
    (∀ {σ : Type} [Words σ] (s : σ), ∃ scored,
      b.Evaluated b.policy.score scored s (b.chooseWith c s).2.2 ∧
        b.Answered c scored (b.chooseWith c s).1) ∧
    (∃ scored s', b.Evaluated b.policy.score scored (ChaCha.ofStream b.seed b.step) s' ∧
      b.Answered c scored (b.choose c).1) ∧
    (∃ scored, b.Evaluated (fun stats s => (b.policy.mean stats, s)) scored () () ∧
      b.Answered c scored (b.optimal c).1) ∧
    (b.maximize = false → ∀ i, (b.optimal c).1 = .ok i → ∀ j, b.Eligible c j → ∀ arm other,
      b.arms[i]? = some arm → b.arms[j]? = some other →
      (b.policy.mean arm.stats).isNaN = false → (b.policy.mean other.stats).isNaN = false →
        b.policy.mean arm.stats ≤ b.policy.mean other.stats) ∧
    (∀ x y, x.isNaN = true → b.worth x ≤ b.worth y) ∧
    (b.policy.strategy = .greedy →
      (b.choose c).1 = (b.optimal c).1 ∧
        ∀ {σ : Type} [Words σ] (s : σ), (b.chooseWith c s).1 = (b.optimal c).1) := by
  refine ⟨answered_select valid, ?_, ?_, ?_, ?_, fun x y nan => b.worth_le_of_nan nan y, ?_⟩
  · intro σ _ s
    rw [(b.chooseWith_select c s).1, (b.chooseWith_select c s).2]
    exact answered_select valid b.policy.score s
  · obtain ⟨scored, run, answered⟩ :=
      answered_select valid b.policy.score (ChaCha.ofStream b.seed b.step)
    rw [choose_eq, (b.chooseWith_select c _).1]
    exact ⟨scored, _, run, answered⟩
  · rw [optimal_eq]
    exact answered_select valid (fun stats (s : Unit) => (b.policy.mean stats, s)) ()
  · intro minimize i answer j eligible arm other stands stands' first second
    exact optimal_least valid minimize answer eligible stands stands' first second
  · intro greedy
    refine ⟨?_, fun s => chooseWith_greedy greedy c s⟩
    rw [choose_eq]
    exact chooseWith_greedy greedy c _

theorem select_first_best_ties :
    let m := Examples.overlappingModel
    let arm (on : Bool) (tags : List String) (mean : Float) : Arm :=
      ⟨⟨m, 0, [none, some (.bool on), some (.selection (tags.map .text)), some (.int 1)]⟩,
        ⟨mean, 1, 1, 1⟩⟩
    let b : Bandit :=
      { model := m, policy := ⟨.greedy, .normal {}⟩, maximize := false, seed := 7
        arms := [arm false ["x"] (-5), arm true ["x"] (0.0 / 0.0), arm true ["y"] 3,
          arm true ["z"] 1, arm true ["x", "y"] 1] }
    let c : Context := .ofFact ⟨1, .bool true⟩
    let unmet : Context := .ofFact ⟨0, .bool true⟩
    c.validate m = .ok () ∧ (b.optimal c).1 = .ok 3 ∧ (b.choose c).1 = .ok 3 ∧
      (∃ scored score, b.IsBest scored 3 score ∧
        0 ∉ scored.map (·.1) ∧ 1 ∈ scored.map (·.1) ∧ 4 ∈ scored.map (·.1)) ∧
      unmet.validate m = .ok () ∧
      (b.optimal unmet).1 = .error (.unsatisfiable (.noEligibleArm m.name)) := by
  intro m arm b c unmet
  have valid : c.validate b.model = .ok () := rfl
  have valid' : unmet.validate b.model = .ok () := rfl
  have answer : (b.optimal c).1 = .ok 3 := toOption_eq_some_iff.mp (by decide +kernel)
  have positions : (b.eligible c).map (·.2) = [1, 2, 3, 4] := by decide +kernel
  have positions' : (b.eligible unmet).map (·.2) = [] := by decide +kernel
  obtain ⟨_, _, _, ⟨scored, run, answered⟩, _, _, greedy⟩ := select_first_best valid
  obtain ⟨_, _, _, ⟨none, _, answered'⟩, _⟩ := select_first_best valid'
  obtain ⟨score, best⟩ := (answered.best 3).mp answer
  refine ⟨valid, answer, (greedy rfl).1.trans answer, ⟨scored, score, best, ?_, ?_, ?_⟩, valid', ?_⟩
  · rw [answered.complete, ← mem_positions_eligible, positions]
    decide
  · rw [answered.complete, ← mem_positions_eligible, positions]
    decide
  · rw [answered.complete, ← mem_positions_eligible, positions]
    decide
  · refine (answered'.failed _).mpr ⟨rfl, fun i eligible => ?_⟩
    rw [← mem_positions_eligible, positions'] at eligible
    exact absurd eligible List.not_mem_nil

end Bandit

end DecisionSpace
