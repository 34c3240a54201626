import DecisionSpace.Proofs.Bandit.Rewards

/-!
# Accounts of bandits

What the counters of a bandit say after a run.  A request raises one counter at most:
a choice that is made, a context that no arm agrees with, a reward that is counted, or a
reward for what is no arm.  Requests that are refused for their arguments raise none.

The rejections count more than choices: asking for the arm with the best mean under a
context that no arm agrees with is a rejection as well.
-/

set_option autoImplicit false

namespace DecisionSpace

theorem BanditPlan.counters_of_build {p : BanditPlan} {fallback : UInt64} {b : Bandit}
    (run : p.build fallback = .ok b) : b.counters = {} := by
  obtain ⟨given, _, run⟩ := Fallible.bind_ok_iff.mp run
  obtain ⟨_, run⟩ := Fallible.check_bind_ok_iff.mp run
  dsimp only at run
  split at run
  · simp at run
  · exact congrArg Bandit.counters (Except.ok.inj run).symm

namespace Bandit

open Sampling

inductive Request : Type 1 where
  | call (call : Call)
  | demand (c : Context)

def serve (b : Bandit) : Request → Bandit
  | .call call => b.after call
  | .demand c => (b.demand c).2

def serveAll (b : Bandit) (requests : List Request) : Bandit := requests.foldl serve b

/-! ## Kinds of requests -/

def Request.choice? : Request → Option Context
  | .call (.choose c) => some c
  | .call (@Call.chooseWith _ _ c _) => some c
  | .demand c => some c
  | _ => none

def Request.optimum? : Request → Option Context
  | .call (.optimal c) => some c
  | _ => none

def lacks (b : Bandit) (c : Context) : Bool :=
  (c.validate b.model).isOk && b.assignments.all fun a => !a.satisfies c

def isChosen (b : Bandit) : Request → Bool
  | .call (.choose c) => (b.choose c).1.isOk
  | .call (@Call.chooseWith _ _ c s) => (b.chooseWith c s).1.isOk
  | .demand c => (b.demand c).1.isOk
  | _ => false

def isRejected (b : Bandit) (r : Request) : Bool := r.choice?.any b.lacks

/-- Whether the arm with the best mean is asked for and there is none. -/
def isFutile (b : Bandit) (r : Request) : Bool := r.optimum?.any b.lacks

def isUpdated (b : Bandit) : Request → Bool
  | .call call => (b.reply call).isDone
  | .demand _ => false

def Reply.isStranger : Reply → Bool
  | .done (.error .unknownArm) => true
  | _ => false

def isUnknown (b : Bandit) : Request → Bool
  | .call call => (b.reply call).isStranger
  | .demand _ => false

def occurrences (kind : Bandit → Request → Bool) (b : Bandit) : List Request → Nat
  | [] => 0
  | r :: rest => (kind b r).toNat + occurrences kind (b.serve r) rest

inductive Ignores (b : Bandit) : Request → Prop where
  | context {r : Request} {c : Context} {e : Failure}
      (asks : r.choice? = some c ∨ r.optimum? = some c) (invalid : c.validate b.model = .error e) :
      Ignores b r
  | reward {call : Call} {r : Reward} (brings : call.reward? = some r)
      (invalid : r.isValid = false) : Ignores b (.call call)
  | optimal {c : Context} {a : Assignment} (listed : a ∈ b.assignments) (agrees : a.satisfies c) :
      Ignores b (.call (.optimal c))
  | indexOf (a : Assignment) : Ignores b (.call (.indexOf a))
  | snapshot : Ignores b (.call .snapshot)

/-! ## One request -/

theorem lacks_iff {b : Bandit} {c : Context} :
    b.lacks c ↔ c.validate b.model = .ok () ∧ b.eligible c = [] := by
  rw [eligible_eq_nil_iff, lacks]
  cases valid : c.validate b.model with
  | error e => simp [Except.isOk, Except.toBool]
  | ok u => simp [Except.isOk, Except.toBool]

theorem Selected.counters {b left : Bandit} {c : Context} {result : Except Failure Nat}
    (selected : b.Selected c (result, left)) :
    left.counters =
      { b.counters with rejections := b.counters.rejections.raise (b.lacks c).toNat } := by
  cases selected with
  | refused invalid =>
      have lacks : b.lacks c = false := by simp [lacks, invalid, Except.isOk, Except.toBool]
      rw [lacks, Bool.toNat_false, Count.raise_zero]
  | none valid empty =>
      rw [lacks_iff.mpr ⟨valid, empty⟩]
      rfl
  | arm valid member =>
      have lacks : b.lacks c = false := by
        rw [← Bool.not_eq_true, lacks_iff]
        intro none
        rw [none.2] at member
        exact List.not_mem_nil member
      rw [lacks, Bool.toNat_false, Count.raise_zero]

theorem Chosen.counters {b left : Bandit} {c : Context} {result : Except Failure Nat}
    (chosen : b.Chosen c (result, left)) :
    left.counters =
      { b.counters with
        choices := b.counters.choices.raise result.isOk.toNat
        rejections := b.counters.rejections.raise (b.lacks c).toNat } := by
  cases chosen with
  | failed selected =>
      rw [selected.counters, Except.isOk, Except.toBool, Bool.toNat_false, Count.raise_zero]
  | arm selected =>
      have same := congrArg Counters.rejections selected.counters
      dsimp only at same ⊢
      rw [← same]
      rfl

structure Counted (b : Bandit) (r : Request) (c : Counters) : Prop where
  choices : c.choices = b.counters.choices.raise (b.isChosen r).toNat
  rejections :
    c.rejections = b.counters.rejections.raise ((b.isRejected r).toNat + (b.isFutile r).toNat)
  updates : c.updates = b.counters.updates.raise (b.isUpdated r).toNat
  unknownArms : c.unknownArms = b.counters.unknownArms.raise (b.isUnknown r).toNat

theorem counters_choose (b : Bandit) (c : Context) :
    (b.choose c).2.counters =
      { b.counters with
        choices := b.counters.choices.raise (b.choose c).1.isOk.toNat
        rejections := b.counters.rejections.raise (b.lacks c).toNat } :=
  (chosen { b with step := b.step + 1 } c (ChaCha.ofStream b.seed b.step)).counters

theorem isOk_mapError {ε ε' α : Type} (x : Except ε α) (f : ε → ε') :
    (x.mapError f).isOk = x.isOk := by
  cases x with
  | error e => rfl
  | ok a => rfl

theorem counters_chooseWith {σ : Type} [Words σ] (b : Bandit) (c : Context) (s : σ) :
    (b.chooseWith c s).2.1.counters =
      { b.counters with
        choices := b.counters.choices.raise (b.chooseWith c s).1.isOk.toNat
        rejections := b.counters.rejections.raise (b.lacks c).toNat } :=
  (b.chosen c s).counters

theorem counters_optimal (b : Bandit) (c : Context) :
    (b.optimal c).2.counters =
      { b.counters with rejections := b.counters.rejections.raise (b.lacks c).toNat } :=
  (b.selected c (fun stats (s : Unit) => (b.policy.mean stats, s)) ()).counters

theorem counted_of_reward (b : Bandit) (call : Call) {r : Reward}
    (brings : call.reward? = some r) : b.Counted (.call call) (b.after call).counters := by
  obtain ⟨reply, left⟩ := b.after_of_reward brings
  have asks : (Request.call call).choice? = none ∧ (Request.call call).optimum? = none := by
    cases call with
    | update a value => exact ⟨rfl, rfl⟩
    | updateWeighted a value weight => exact ⟨rfl, rfl⟩
    | _ => simp [Call.reward?] at brings
  have chosen : b.isChosen (.call call) = false := by
    cases call with
    | update a value => rfl
    | updateWeighted a value weight => rfl
    | _ => simp [Call.reward?] at brings
  have answer := b.updated r
  rw [left]
  generalize b.updateWeighted r.assignment r.value r.weight = result at answer reply
  cases answer with
  | _ =>
      constructor
      all_goals
        simp [chosen, isRejected, isFutile, asks, isUpdated, isUnknown, reply, Reply.isDone,
          Reply.isStranger, Counters.addUpdate, Counters.addUnknownArm, Count.raise_one]

theorem counted (b : Bandit) (r : Request) : b.Counted r (b.serve r).counters := by
  have idle {n : Count} : n = n.raise 0 := (Count.raise_zero n).symm
  cases r with
  | demand c =>
      have left : (b.serve (.demand c)).counters = _ := b.counters_choose c
      have answer : b.isChosen (.demand c) = (b.choose c).1.isOk := isOk_mapError _ _
      rw [left]
      exact ⟨by rw [answer], rfl, idle, idle⟩
  | call call =>
      cases call with
      | choose c =>
          rw [show (b.serve (.call (.choose c))).counters = _ from b.counters_choose c]
          exact ⟨rfl, rfl, idle, idle⟩
      | chooseWith c s =>
          rw [show (b.serve (.call (.chooseWith c s))).counters = _ from b.counters_chooseWith c s]
          exact ⟨rfl, rfl, idle, idle⟩
      | optimal c =>
          rw [show (b.serve (.call (.optimal c))).counters = _ from b.counters_optimal c]
          have futile := congrArg b.counters.rejections.raise (Nat.zero_add (b.lacks c).toNat)
          exact ⟨idle, futile.symm, idle, idle⟩
      | update a value => exact counted_of_reward b (.update a value) rfl
      | updateWeighted a value weight =>
          exact counted_of_reward b (.updateWeighted a value weight) rfl
      | indexOf a => exact ⟨idle, idle, idle, idle⟩
      | snapshot => exact ⟨idle, idle, idle, idle⟩

theorem isOk_add_lacks {b : Bandit} {c : Context} {result : Except Failure Nat}
    (outcome : b.Outcome c result) : result.isOk.toNat + (b.lacks c).toNat ≤ 1 := by
  cases outcome with
  | refused invalid => exact (Nat.zero_add _).le.trans (Bool.toNat_le _)
  | none valid unlike => exact (Nat.zero_add _).le.trans (Bool.toNat_le _)
  | arm valid stands agrees =>
      have lacks : b.lacks c = false := by
        rw [← Bool.not_eq_true, lacks_iff, eligible_eq_nil_iff]
        intro none
        exact none.2 _ (List.mem_of_getElem? stands) agrees
      rw [lacks]
      rfl

theorem isDone_add_isStranger (reply : Reply) :
    reply.isDone.toNat + reply.isStranger.toNat ≤ 1 := by
  cases reply with
  | done result =>
      cases result with
      | ok u => exact le_rfl
      | error e => exact (Nat.zero_add _).le.trans (Bool.toNat_le _)
  | _ => exact Nat.zero_le 1

theorem kinds_le_one (b : Bandit) (r : Request) :
    (b.isChosen r).toNat + ((b.isRejected r).toNat + (b.isFutile r).toNat) + (b.isUpdated r).toNat +
      (b.isUnknown r).toNat ≤ 1 := by
  cases r with
  | demand c =>
      have one := isOk_add_lacks (Answers.choose (b := b) (c := c)).outcome
      have answer : b.isChosen (.demand c) = (b.choose c).1.isOk := isOk_mapError _ _
      rw [answer]
      exact one
  | call call =>
      cases call with
      | choose c => exact isOk_add_lacks (Answers.choose (b := b) (c := c)).outcome
      | chooseWith c s => exact isOk_add_lacks (Answers.chooseWith (b := b) (c := c) s).outcome
      | optimal c =>
          change 0 + (0 + (b.lacks c).toNat) + 0 + 0 ≤ 1
          have := Bool.toNat_le (b.lacks c)
          omega
      | update a value =>
          have one := isDone_add_isStranger (b.reply (.update a value))
          simpa [isChosen, isRejected, isFutile, isUpdated, isUnknown, Request.choice?,
            Request.optimum?] using one
      | updateWeighted a value weight =>
          have one := isDone_add_isStranger (b.reply (.updateWeighted a value weight))
          simpa [isChosen, isRejected, isFutile, isUpdated, isUnknown, Request.choice?,
            Request.optimum?] using one
      | indexOf a => exact Nat.zero_le 1
      | snapshot => exact Nat.zero_le 1

theorem isOk_of_invalid {b : Bandit} {c : Context} {e : Failure}
    (invalid : c.validate b.model = .error e) {result : Except Failure Nat}
    (outcome : b.Outcome c result) : result.isOk = false ∧ b.lacks c = false := by
  have unmet : b.lacks c = false := by simp [lacks, invalid, Except.isOk, Except.toBool]
  cases outcome with
  | refused _ => exact ⟨rfl, unmet⟩
  | none valid _ => simp [invalid] at valid
  | arm valid _ _ => simp [invalid] at valid

theorem counters_of_invalid {b : Bandit} {r : Request} {c : Context} {e : Failure}
    (asks : r.choice? = some c ∨ r.optimum? = some c) (invalid : c.validate b.model = .error e) :
    (b.serve r).counters = b.counters := by
  have chosen := (isOk_of_invalid invalid (Answers.choose (b := b) (c := c)).outcome).1
  have unmet := (isOk_of_invalid invalid (Answers.choose (b := b) (c := c)).outcome).2
  cases r with
  | demand c' =>
      obtain rfl : c' = c := by simpa [Request.choice?, Request.optimum?] using asks
      rw [show (b.serve (.demand c')).counters = _ from b.counters_choose c', chosen, unmet]
      simp
  | call call =>
      cases call with
      | choose c' =>
          obtain rfl : c' = c := by simpa [Request.choice?, Request.optimum?] using asks
          rw [show (b.serve (.call (.choose c'))).counters = _ from b.counters_choose c', chosen,
            unmet]
          simp
      | chooseWith c' s =>
          obtain rfl : c' = c := by simpa [Request.choice?, Request.optimum?] using asks
          have chosen := (isOk_of_invalid invalid (Answers.chooseWith (b := b) (c := c') s).outcome).1
          rw [show (b.serve (.call (.chooseWith c' s))).counters = _ from b.counters_chooseWith c' s,
            chosen, unmet]
          simp
      | optimal c' =>
          obtain rfl : c' = c := by simpa [Request.choice?, Request.optimum?] using asks
          rw [show (b.serve (.call (.optimal c'))).counters = _ from b.counters_optimal c', unmet]
          simp
      | _ => simp [Request.choice?, Request.optimum?] at asks

theorem counters_of_ignores {b : Bandit} {r : Request} (ignores : b.Ignores r) :
    (b.serve r).counters = b.counters := by
  cases ignores with
  | context asks invalid => exact counters_of_invalid asks invalid
  | @reward call r brings invalid =>
      rw [show b.serve (.call call) = _ from (b.after_of_reward brings).2]
      have answer := b.updated r
      generalize b.updateWeighted r.assignment r.value r.weight = result at answer
      cases answer with
      | refused _ _ _ => rfl
      | unknown valid _ => simp [invalid] at valid
      | full valid _ _ _ => simp [invalid] at valid
      | accepted valid _ _ _ => simp [invalid] at valid
  | @optimal c a listed agrees =>
      have met : b.lacks c = false := by
        rw [← Bool.not_eq_true, lacks_iff, eligible_eq_nil_iff]
        exact fun none => none.2 a listed agrees
      rw [show (b.serve (.call (.optimal c))).counters = _ from b.counters_optimal c, met]
      simp
  | indexOf a => rfl
  | snapshot => rfl

/-! ## Whole runs -/

theorem serveAll_cons (b : Bandit) (r : Request) (rest : List Request) :
    b.serveAll (r :: rest) = (b.serve r).serveAll rest := rfl

theorem counted_run (b : Bandit) (requests : List Request) :
    let left := b.serveAll requests
    left.counters.choices = b.counters.choices.raise (b.occurrences isChosen requests) ∧
      left.counters.rejections = b.counters.rejections.raise
        (b.occurrences isRejected requests + b.occurrences isFutile requests) ∧
      left.counters.updates = b.counters.updates.raise (b.occurrences isUpdated requests) ∧
      left.counters.unknownArms =
        b.counters.unknownArms.raise (b.occurrences isUnknown requests) := by
  induction requests generalizing b with
  | nil => simp [serveAll, occurrences]
  | cons r rest ih =>
      have step := b.counted r
      rw [serveAll_cons]
      obtain ⟨choices, rejections, updates, unknownArms⟩ := ih (b.serve r)
      refine ⟨?_, ?_, ?_, ?_⟩
      · rw [choices, step.choices, ← Count.raise_add, occurrences]
      · rw [rejections, step.rejections, ← Count.raise_add, Nat.add_add_add_comm, occurrences,
          occurrences]
      · rw [updates, step.updates, ← Count.raise_add, occurrences]
      · rw [unknownArms, step.unknownArms, ← Count.raise_add, occurrences]

theorem occurrences_le_length (b : Bandit) (requests : List Request) :
    b.occurrences isChosen requests +
      (b.occurrences isRejected requests + b.occurrences isFutile requests) +
      b.occurrences isUpdated requests + b.occurrences isUnknown requests ≤ requests.length := by
  induction requests generalizing b with
  | nil => exact le_rfl
  | cons r rest ih =>
      have one := b.kinds_le_one r
      have others := ih (b.serve r)
      simp only [occurrences, List.length_cons]
      omega

/-- As long as there have been less than `2 ^ 64` requests, the counters of a bandit that was
built tell the choices made, the rewards accepted and the rewards for strangers.  The rejections are the choices that found no arm under a valid
context together with the requests for the arm with the best mean that found none; they are
the choices alone as long as there is no such request.  All counters together are at most
the number of requests, and what a bandit ignores leaves each of them as it was. -/
theorem counters_eq_occurrences {p : BanditPlan} {fallback : UInt64} {b : Bandit}
    (run : p.build fallback = .ok b) {requests : List Request}
    (few : requests.length < UInt64.size) :
    let counters := (b.serveAll requests).counters
    (counters.choices : Nat) = b.occurrences isChosen requests ∧
      (counters.rejections : Nat) =
        b.occurrences isRejected requests + b.occurrences isFutile requests ∧
      ((counters.rejections : Nat) = b.occurrences isRejected requests ↔
        b.occurrences isFutile requests = 0) ∧
      (counters.updates : Nat) = b.occurrences isUpdated requests ∧
      (counters.unknownArms : Nat) = b.occurrences isUnknown requests ∧
      (counters.choices : Nat) + counters.rejections + counters.updates + counters.unknownArms ≤
        requests.length ∧
      ∀ (b' : Bandit) r, b'.Ignores r → (b'.serve r).counters = b'.counters := by
  intro counters
  have bound := b.occurrences_le_length requests
  have exact {n : Nat} (small : n ≤ requests.length) : (Count.raise 0 n : Nat) = n := by
    rw [Count.toNat_raise (by simpa using small.trans_lt few)]
    exact Nat.zero_add n
  obtain ⟨choices, rejections, updates, unknownArms⟩ := b.counted_run requests
  rw [BanditPlan.counters_of_build run] at choices rejections updates unknownArms
  have choices : (counters.choices : Nat) = _ :=
    (congrArg UInt64.toNat choices).trans (exact (by omega))
  have rejections : (counters.rejections : Nat) = _ :=
    (congrArg UInt64.toNat rejections).trans (exact (by omega))
  have updates : (counters.updates : Nat) = _ :=
    (congrArg UInt64.toNat updates).trans (exact (by omega))
  have unknownArms : (counters.unknownArms : Nat) = _ :=
    (congrArg UInt64.toNat unknownArms).trans (exact (by omega))
  refine ⟨choices, rejections, ?_, updates, unknownArms, ?_, fun b' r => counters_of_ignores⟩
  · omega
  · omega

theorem counters_eq_occurrences_overlapping :
    let m := Examples.overlappingModel
    let slots (b : Bool) := [none, some (Value.bool b), none, some (.int 1)]
    let plan : BanditPlan :=
      { model := m, policy := ⟨.greedy, .binomial {}⟩
        assignments := [⟨m, 0, slots true⟩, ⟨m, 0, slots false⟩] }
    let unmet : Context := .ofFact ⟨0, .bool true⟩
    let requests : List Request :=
      [.call (.choose .empty), .demand unmet, .call (.optimal unmet),
        .call (.update ⟨m, 0, slots true⟩ 1.0), .call (.update ⟨m, 1, slots true⟩ 1.0),
        .call (.updateWeighted ⟨m, 0, slots true⟩ 1.0 0.0), .call .snapshot]
    ∃ b, plan.build 0 = .ok b ∧ requests.length < UInt64.size ∧
      ((b.serveAll requests).counters.choices : Nat) = 1 ∧
      b.occurrences isRejected requests = 1 ∧
      ((b.serveAll requests).counters.rejections : Nat) ≠ b.occurrences isRejected requests ∧
      ((b.serveAll requests).counters.updates : Nat) = 1 ∧
      ((b.serveAll requests).counters.unknownArms : Nat) = 1 ∧
      (b.serve (.call (.choose (.ofFact ⟨9, .bool true⟩)))).counters = b.counters := by
  intro m slots plan unmet requests
  have run : plan.build 0 = .ok _ := rfl
  have few : requests.length < UInt64.size := by decide
  obtain ⟨choices, rejections, alone, updates, unknownArms, _, ignores⟩ :=
    counters_eq_occurrences run few
  refine ⟨_, run, few, ?_, by decide +kernel, ?_, ?_, ?_, ?_⟩
  · rw [choices]
    decide +kernel
  · rw [Ne, alone]
    decide +kernel
  · rw [updates]
    decide +kernel
  · rw [unknownArms]
    decide +kernel
  · exact ignores _ _ (.context (.inl rfl) rfl)

/-- Asking for the arm with the best mean is no choice, but it counts as a rejection. -/
theorem optimal_counts_rejection :
    let m := Examples.overlappingModel
    let plan : BanditPlan :=
      { model := m, policy := ⟨.greedy, .binomial {}⟩
        assignments := [⟨m, 0, [none, some (.bool true), none, some (.int 1)]⟩] }
    let requests : List Request := [.call (.optimal (.ofFact ⟨0, .bool true⟩))]
    ∃ b, plan.build 0 = .ok b ∧ b.occurrences isRejected requests = 0 ∧
      (b.serveAll requests).counters.rejections = 1 :=
  ⟨_, rfl, rfl, rfl⟩

end Bandit

end DecisionSpace
