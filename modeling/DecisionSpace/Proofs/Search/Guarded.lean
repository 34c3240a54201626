import DecisionSpace.Examples
import DecisionSpace.Proofs.Search.Start
import DecisionSpace.Sampling.Generator

/-!
# Starts that do not break down

A program that makes a start can break down: nothing can be drawn from an empty range, an entry
that is asked for may not be there, and a loop may not come to an end.  Here the steps of a start
are written with these ways out.  The loops keep the number of elements that are on in a counter
of their own and draw by this counter.  As long as the counter is right none of the ways out is
taken, and the start is the one that the searches use.
-/

set_option autoImplicit false

namespace DecisionSpace.Search

open Fallible
open Sampling

variable {σ : Type} [Chance σ]

/-! ## Steps that may fail -/

def draw? (n : Nat) (s : σ) : Option (Nat × σ) :=
  if 0 < n then some (Chance.below n s) else none

/-- Switches random elements on while fewer than `min` are, as the counter `size` says.  Fails if
that takes more turns than allowed. -/
def grow? (min : Nat) : (turns size : Nat) → List Bool → σ → Option (List Bool × Nat × σ)
  | 0, size, flags, s => if size < min then none else some (flags, size, s)
  | turns + 1, size, flags, s =>
      if size < min then do
        let (n, s) ← draw? (flags.length - size) s
        let i ← nthPosition? false n flags
        grow? min turns (size + 1) (flags.set i true) s
      else some (flags, size, s)

def shrink? (max : Nat) : (turns size : Nat) → List Bool → σ → Option (List Bool × Nat × σ)
  | 0, size, flags, s => if max < size then none else some (flags, size, s)
  | turns + 1, size, flags, s =>
      if max < size then do
        let (n, s) ← draw? size s
        let i ← nthPosition? true n flags
        shrink? max turns (size - 1) (flags.set i false) s
      else some (flags, size, s)

def boundedFlags? (size min max : Nat) (s : σ) : Option (List Bool × σ) := do
  let (flags, s) := coins size s
  let (flags, on, s) ← grow? min size (flags.count true) flags s
  let (flags, _, s) ← shrink? max size on flags s
  some (flags, s)

def randomValue? : Domain → σ → Option (Value × σ)
  | .boolean, s =>
      let (b, s) := Chance.coin s
      some (.bool b, s)
  | .constant value, s => some (value, s)
  | .nominal elements, s => do
      let (i, s) ← draw? elements.length s
      let value ← elements[i]?
      some (value, s)
  | .multiSelect elements min max, s => do
      let (flags, s) ← boundedFlags? elements.length min max s
      some (.selection (chosen elements flags), s)

def startFrom? (c : Context) : Nat → List Variable → σ → Option (List Value × σ)
  | _, [], s => some ([], s)
  | id, v :: rest, s => do
      let (value, s) ←
        match c.get? id with
        | some fixed => some (fixed, s)
        | none => randomValue? v.domain s
      let (values, s) ← startFrom? c (id + 1) rest s
      some (value :: values, s)

def start? (m : Model) (c : Context) (s : σ) : Option (List Value × σ) := startFrom? c 0 m.vars s

/-! ## No step fails -/

theorem draw?_of_pos {n : Nat} (positive : 0 < n) (s : σ) : draw? n s = some (Chance.below n s) :=
  if_pos positive

omit [Chance σ] in
theorem count_set_of_getElem? {flags : List Bool} {i : Nat} {flag : Bool}
    (held : flags[i]? = some flag) :
    (flags.set i !flag).count true + (if flag then 1 else 0) =
      flags.count true + (if flag then 0 else 1) := by
  have turned := count_set_not held
  have before := List.count_false_add_count_true flags
  have after := List.count_false_add_count_true (flags.set i !flag)
  rw [List.length_set] at after
  cases flag with
  | true => simpa using turned
  | false =>
      simp only [Bool.not_false, Bool.false_eq_true, if_false] at turned after ⊢
      omega

theorem grow?_eq {min turns size : Nat} {flags : List Bool} (counted : size = flags.count true)
    (fits : min ≤ flags.length) (enough : min - size ≤ turns) (s : σ) :
    grow? min turns size flags s =
      some ((turn false (min - size) flags s).1, max size min,
        (turn false (min - size) flags s).2) := by
  -- a turn raises the counter and the number of set flags alike
  induction turns generalizing size flags s with
  | zero =>
      have reached : min - size = 0 := by omega
      rw [grow?, if_neg (by omega), reached, Nat.max_eq_left (by omega)]
      rfl
  | succ turns ih =>
      by_cases few : size < min
      · have split := List.count_false_add_count_true flags
        have range : flags.length - size = flags.count false := by omega
        have left : min - size = (min - (size + 1)) + 1 := by omega
        obtain ⟨i, found, held⟩ := exists_nthPosition? false
          (Chance.below (flags.count false) s).1 flags (Chance.below_lt _ s (by omega))
        have raised := count_set_of_getElem? held
        simp only [Bool.not_false, Bool.false_eq_true, if_false] at raised
        have recounted : size + 1 = (flags.set i true).count true := by omega
        have step := ih recounted (by rwa [List.length_set]) (by omega)
          (Chance.below (flags.count false) s).2
        rw [grow?, if_pos few, range, draw?_of_pos (by omega), left, turn]
        simp only [Option.bind_eq_bind, Option.bind_some, found, Option.getD_some, Bool.not_false]
        rw [step, Nat.max_eq_right (by omega), Nat.max_eq_right (by omega)]
      · have reached : min - size = 0 := by omega
        rw [grow?, if_neg few, reached, Nat.max_eq_left (by omega)]
        rfl

theorem shrink?_eq {max turns size : Nat} {flags : List Bool} (counted : size = flags.count true)
    (enough : size - max ≤ turns) (s : σ) :
    shrink? max turns size flags s =
      some ((turn true (size - max) flags s).1, min size max,
        (turn true (size - max) flags s).2) := by
  induction turns generalizing size flags s with
  | zero =>
      have reached : size - max = 0 := by omega
      rw [shrink?, if_neg (by omega), reached, Nat.min_eq_left (by omega)]
      rfl
  | succ turns ih =>
      subst counted
      by_cases many : max < flags.count true
      · have left : flags.count true - max = (flags.count true - 1 - max) + 1 := by omega
        obtain ⟨i, found, held⟩ := exists_nthPosition? true
          (Chance.below (flags.count true) s).1 flags (Chance.below_lt _ s (by omega))
        have lowered := count_set_of_getElem? held
        simp only [Bool.not_true, if_true] at lowered
        have recounted : flags.count true - 1 = (flags.set i false).count true := by omega
        have step := ih recounted (by omega) (Chance.below (flags.count true) s).2
        rw [shrink?, if_pos many, draw?_of_pos (by omega), left, turn]
        simp only [Option.bind_eq_bind, Option.bind_some, found, Option.getD_some, Bool.not_true]
        rw [step, Nat.min_eq_right (by omega), Nat.min_eq_right (by omega)]
      · have reached : flags.count true - max = 0 := by omega
        rw [shrink?, if_neg many, reached, Nat.min_eq_left (by omega)]
        rfl

theorem boundedFlags?_eq {size low high : Nat} (ordered : low ≤ high) (fits : high ≤ size)
    (s : σ) : boundedFlags? size low high s = some (boundedFlags size low high s) := by
  have tossed : (coins size s).1.length = size := draws_length Chance.coin size s
  simp only [boundedFlags?, boundedFlags]
  generalize (coins size s).1 = flags at tossed
  generalize (coins size s).2 = s
  have split := List.count_false_add_count_true flags
  have raised := turn_count false (low - flags.count true) flags s (by omega)
  have raisedLength := turn_length false (low - flags.count true) flags s
  rw [grow?_eq rfl (by omega) (by omega), Option.bind_eq_bind, Option.bind_some]
  dsimp only
  generalize turn false (low - flags.count true) flags s = middle at raised raisedLength
  -- the counter that the first loop leaves is right for the second one
  have splitMiddle := List.count_false_add_count_true middle.1
  have counted : max (flags.count true) low = middle.1.count true := by omega
  rw [shrink?_eq counted (by omega), counted]
  rfl

theorem randomValue?_eq {d : Domain} (sound : d.Sound) (s : σ) :
    randomValue? d s = some (randomValue d s) := by
  cases d with
  | boolean => rfl
  | constant value => rfl
  | nominal elements =>
      have positive : 0 < elements.length := List.length_pos_iff.mpr sound.nonempty
      have inside := Chance.below_lt elements.length s positive
      have element := List.getElem?_eq_getElem inside
      simp only [randomValue?, randomValue, draw?_of_pos positive, Option.bind_eq_bind,
        Option.bind_some, element, Option.getD_some]
  | multiSelect elements low high =>
      rw [randomValue?, boundedFlags?_eq sound.2.1 sound.2.2]
      rfl

theorem startFrom?_eq (c : Context) (id : Nat) {vars : List Variable}
    (sound : ∀ v ∈ vars, v.domain.Sound) (s : σ) :
    startFrom? c id vars s = some (startFrom c id vars s) := by
  induction vars generalizing id s with
  | nil => rfl
  | cons v rest ih =>
      obtain ⟨own, others⟩ := List.forall_mem_cons.mp sound
      rw [startFrom?, startFrom]
      cases c.get? id with
      | some fixed =>
          simp only [Option.bind_eq_bind, Option.bind_some, ih (id + 1) others]
      | none =>
          simp only [randomValue?_eq own, Option.bind_eq_bind, Option.bind_some,
            ih (id + 1) others]

/-- For every random source, an attempt on a built model under a valid context gets its start:
no number is drawn from an empty range, every entry that is asked for is there, and the loops
end.  The start has one value for each variable, which the domain accepts as it stands; it is the
fact of the context or the constant where there is one, and a selection within its bounds. -/
theorem start_guarded {serial : Nat} {d : Declaration} {m : Model}
    (built : d.build serial = .ok m) {c : Context} (valid : c.validate m = .ok ()) (s : σ) :
    start? m c s = some (start m c s) ∧
    (start m c s).1.length = m.vars.length ∧
    ∀ (id : Nat) (v : Variable) (x : Value), m.vars[id]? = some v →
      (start m c s).1[id]? = some x →
      v.validate x = .ok x ∧
      (∀ fixed, c.get? id = some fixed → x = fixed) ∧
      (∀ constant, v.domain = .constant constant → x = constant) ∧
      ∀ elements low high, v.domain = .multiSelect elements low high →
        ∃ items, x = .selection items ∧ items.Sublist elements ∧
          low ≤ items.length ∧ items.length ≤ high := by
  have wellFormed := Declaration.build_wellFormed built
  obtain ⟨canonical, agrees⟩ := start_spec wellFormed valid s
  refine ⟨startFrom?_eq c 0 wellFormed.sound s, canonical.length_eq, ?_⟩
  intro id v x known held
  have inVars := List.mem_of_getElem? known
  obtain ⟨y, same, own⟩ := canonical.getElem? known
  obtain rfl := Option.some.inj (held.symm.trans same)
  have accepted := (Domain.validate_self_iff (wellFormed.sound v inVars) x).mpr own
  refine ⟨mapError_ok_iff.mpr accepted, fun fixed fact => ?_, fun constant domain => ?_, ?_⟩
  · exact Option.some.inj (held.symm.trans (agrees id fixed fact))
  · rw [domain] at own
    cases own with
    | constant => rfl
  · intro elements low high domain
    rw [domain] at own
    cases own with
    | @multiSelect _ items _ _ sub atLeast atMost => exact ⟨items, rfl, sub, atLeast, atMost⟩

theorem start_guarded_overlapping :
    Examples.overlapping.build 0 = .ok Examples.overlappingModel ∧
      (Context.ofFact ⟨1, .bool true⟩).validate Examples.overlappingModel = .ok () ∧
      start? Examples.overlappingModel (.ofFact ⟨1, .bool true⟩) (Script.ofWords [0]) =
        some (start Examples.overlappingModel (.ofFact ⟨1, .bool true⟩) (Script.ofWords [0])) ∧
      (start Examples.overlappingModel (.ofFact ⟨1, .bool true⟩) (Script.ofWords [0])).1 =
        [.bool true, .bool true, .selection [.text "y", .text "z"], .int 1] := by
  have built : Examples.overlapping.build 0 = .ok Examples.overlappingModel := rfl
  have valid : (Context.ofFact ⟨1, .bool true⟩).validate Examples.overlappingModel = .ok () := rfl
  obtain ⟨guarded, _⟩ := start_guarded built valid (Script.ofWords [0])
  exact ⟨built, valid, guarded, by decide⟩

end DecisionSpace.Search
