import DecisionSpace.Bandit.Policy
import DecisionSpace.Proofs.Double

/-!
# The best of some scores

Scores are compared by keys, which are never without a number.  Keeping the better one of two
at a time leaves the first of those whose key is largest.
-/

set_option autoImplicit false

namespace DecisionSpace

/-! ## Keys of scores -/

theorem isNaN_scoreKey (x : Float) : (scoreKey x).isNaN = false := by
  unfold scoreKey
  split
  · rfl
  · rename_i number
    exact eq_false_of_ne_true number

theorem scoreKey_of_number {x : Float} (number : x.isNaN = false) : scoreKey x = x := by
  unfold scoreKey
  rw [number]
  rfl

theorem scoreKey_le_of_nan {x : Float} (nan : x.isNaN = true) (y : Float) :
    scoreKey x ≤ scoreKey y := by
  have least : scoreKey x = -1.0 / 0.0 := if_pos nan
  rw [least]
  exact Double.neg_infinity_le (isNaN_scoreKey y)

/-! ## The best of the scores -/

def Leads (seen : List Float) : Option (Nat × Float) → Prop
  | none => seen = []
  | some (k, top) =>
      (∃ x, seen[k]? = some x ∧ top = scoreKey x) ∧
        (∀ y ∈ seen, scoreKey y ≤ top) ∧
        ∀ j < k, ∀ y, seen[j]? = some y → ¬ top ≤ scoreKey y

theorem Leads.better {seen : List Float} {best : Option (Nat × Float)} (leads : Leads seen best)
    (score : Float) : Leads (seen ++ [score]) (better best seen.length score) := by
  cases best with
  | none =>
      obtain rfl : seen = [] := leads
      refine ⟨⟨score, rfl, rfl⟩, ?_, fun j before => absurd before (Nat.not_lt_zero j)⟩
      intro y member
      obtain rfl := List.mem_singleton.mp member
      exact Double.le_refl (isNaN_scoreKey y)
  | some entry =>
      obtain ⟨k, top⟩ := entry
      obtain ⟨⟨x, stands, rfl⟩, most, first⟩ := leads
      have inRange : k < seen.length := (List.getElem?_eq_some_iff.mp stands).1
      unfold DecisionSpace.better
      dsimp only
      split
      -- a score that is no better leaves the entry where it is, before all equal ones
      · rename_i noBetter
        refine ⟨⟨x, ?_, rfl⟩, ?_, ?_⟩
        · rw [List.getElem?_append_left inRange]
          exact stands
        · intro y member
          obtain before | last := List.mem_append.mp member
          · exact most y before
          · obtain rfl := List.mem_singleton.mp last
            exact noBetter
        · intro j before y
          rw [List.getElem?_append_left (Nat.lt_trans before inRange)]
          exact first j before y
      · rename_i better
        have above : scoreKey x ≤ scoreKey score :=
          (Double.le_total (isNaN_scoreKey x) (isNaN_scoreKey score)).resolve_right better
        refine ⟨⟨score, List.getElem?_concat_length, rfl⟩, ?_, ?_⟩
        · intro y member
          obtain before | last := List.mem_append.mp member
          · exact Double.le_trans (most y before) above
          · obtain rfl := List.mem_singleton.mp last
            exact Double.le_refl (isNaN_scoreKey y)
        · intro j before y other exceeds
          rw [List.getElem?_append_left before] at other
          exact better (Double.le_trans exceeds (most y (List.mem_of_getElem? other)))

theorem Leads.bestFrom {seen : List Float} {best : Option (Nat × Float)} (leads : Leads seen best)
    (scores : List Float) : Leads (seen ++ scores) (bestFrom best seen.length scores) := by
  -- what was seen grows by the score that the step takes from the rest
  induction scores generalizing seen best with
  | nil =>
      rw [List.append_nil]
      exact leads
  | cons score rest ih =>
      have next := ih (leads.better score)
      rw [List.append_assoc, List.length_append] at next
      exact next

theorem leads_bestFrom (scores : List Float) : Leads scores (bestFrom none 0 scores) := by
  have start : Leads [] none := rfl
  exact start.bestFrom scores

theorem argmax_leads {scores : List Float} {k : Nat} (found : argmax scores = some k) :
    ∃ x, scores[k]? = some x ∧ (∀ y ∈ scores, scoreKey y ≤ scoreKey x) ∧
      ∀ j < k, ∀ y, scores[j]? = some y → ¬ scoreKey x ≤ scoreKey y := by
  obtain ⟨⟨k, top⟩, run, rfl⟩ := Option.map_eq_some_iff.mp found
  have leads := leads_bestFrom scores
  rw [run] at leads
  obtain ⟨⟨x, stands, rfl⟩, most, first⟩ := leads
  exact ⟨x, stands, most, first⟩

theorem argmax_lt {scores : List Float} {k : Nat} (found : argmax scores = some k) :
    k < scores.length := by
  obtain ⟨x, stands, _⟩ := argmax_leads found
  exact (List.getElem?_eq_some_iff.mp stands).1

theorem argmax_eq_none_iff {scores : List Float} : argmax scores = none ↔ scores = [] := by
  constructor
  · intro none
    have leads := leads_bestFrom scores
    rw [Option.map_eq_none_iff.mp none] at leads
    exact leads
  · intro empty
    rw [empty]
    rfl

/-! ## Scores that are no number -/

def IsTop (scores : List Float) (k : Nat) : Prop :=
  ∃ x, scores[k]? = some x ∧ x.isNaN = false ∧ ∀ y ∈ scores, y.isNaN = false → y ≤ x

/-- The highest score as it is wanted: the first of the highest numbers, and the first score of
all where there is no number. -/
inductive Wanted (scores : List Float) : Option Nat → Prop where
  | nothing (empty : scores = []) : Wanted scores none
  | top {k : Nat} (top : IsTop scores k) (first : ∀ j, IsTop scores j → k ≤ j) :
      Wanted scores (some k)
  | blank (filled : scores ≠ []) (nan : ∀ y ∈ scores, y.isNaN) : Wanted scores (some 0)

structure Shadowed (scores : List Float) : Prop where
  first : ∃ x, scores[0]? = some x ∧ x.isNaN
  number : ∃ y ∈ scores, y.isNaN = false
  least : ∀ y ∈ scores, y.isNaN = false → y ≤ -1.0 / 0.0

section
variable {scores : List Float} {k : Nat} {x : Float}

theorem isTop_iff (stands : scores[k]? = some x) (number : x.isNaN = false) :
    IsTop scores k ↔ ∀ y ∈ scores, scoreKey y ≤ scoreKey x := by
  rw [scoreKey_of_number number]
  constructor
  · intro top y member
    obtain ⟨x', stands', _, most⟩ := top
    obtain rfl := Option.some.inj (stands.symm.trans stands')
    cases nan : y.isNaN with
    | true =>
        have below := scoreKey_le_of_nan nan x
        rwa [scoreKey_of_number number] at below
    | false =>
        rw [scoreKey_of_number nan]
        exact most y member nan
  · intro most
    refine ⟨x, stands, number, fun y member yNumber => ?_⟩
    have below := most y member
    rwa [scoreKey_of_number yNumber] at below

theorem argmax_of_nan (found : argmax scores = some k) (stands : scores[k]? = some x)
    (nan : x.isNaN) : k = 0 ∧ ∀ y ∈ scores, y.isNaN = false → y ≤ -1.0 / 0.0 := by
  obtain ⟨x', stands', most, first⟩ := argmax_leads found
  obtain rfl := Option.some.inj (stands.symm.trans stands')
  constructor
  · by_contra later
    have inRange := argmax_lt found
    have head : scores[0]? = some scores[0] := List.getElem?_eq_getElem (by omega)
    exact first 0 (by omega) _ head (scoreKey_le_of_nan nan _)
  · intro y member number
    have below := most y member
    have least : scoreKey x = -1.0 / 0.0 := if_pos nan
    rwa [scoreKey_of_number number, least] at below

theorem wanted_of_number (found : argmax scores = some k) (stands : scores[k]? = some x)
    (number : x.isNaN = false) : Wanted scores (some k) := by
  obtain ⟨x', stands', most, first⟩ := argmax_leads found
  obtain rfl := Option.some.inj (stands.symm.trans stands')
  refine .top ((isTop_iff stands number).mpr most) fun j otherTop => ?_
  by_contra earlier
  have ⟨y, other, yNumber, _⟩ := otherTop
  have highest := (isTop_iff other yNumber).mp otherTop x (List.mem_of_getElem? stands)
  exact first j (by omega) y other highest

theorem not_wanted_of_nan (stands : scores[k]? = some x) (nan : x.isNaN)
    (exists_number : ∃ y ∈ scores, y.isNaN = false) : ¬ Wanted scores (some k) := by
  intro wanted
  obtain ⟨y, member, number⟩ := exists_number
  cases wanted with
  | top top first =>
      obtain ⟨x', stands', number', _⟩ := top
      obtain rfl := Option.some.inj (stands.symm.trans stands')
      rw [nan] at number'
      exact Bool.noConfusion number'
  | blank _ all =>
      rw [all y member] at number
      exact Bool.noConfusion number

theorem Shadowed.nan (shadowed : Shadowed scores) (found : argmax scores = some k)
    (stands : scores[k]? = some x) : x.isNaN := by
  obtain ⟨first, head, nan⟩ := shadowed.first
  by_contra number
  rw [Bool.not_eq_true] at number
  obtain ⟨x', stands', _, before⟩ := argmax_leads found
  obtain rfl := Option.some.inj (stands.symm.trans stands')
  -- the first score has the least key, but so has every number there is
  have later : 0 < k := by
    rcases Nat.eq_zero_or_pos k with rfl | later
    · obtain rfl := Option.some.inj (head.symm.trans stands)
      rw [nan] at number
      exact Bool.noConfusion number
    · exact later
  have least : scoreKey first = -1.0 / 0.0 := if_pos nan
  have below := shadowed.least x (List.mem_of_getElem? stands) number
  rw [← least, ← scoreKey_of_number number] at below
  exact before 0 later first head below

end

/-- There is a highest score unless there is none at all.  It is the wanted one except when the
first score is no number and every number is minus infinity; this is also exactly when a score
that is no number wins over one. -/
theorem argmax_wanted_iff (scores : List Float) :
    (argmax scores = none ↔ scores = []) ∧
    (Wanted scores (argmax scores) ↔ ¬ Shadowed scores) ∧
    ((∃ k x, argmax scores = some k ∧ scores[k]? = some x ∧ x.isNaN ∧
      ∃ y ∈ scores, y.isNaN = false) ↔ Shadowed scores) := by
  refine ⟨argmax_eq_none_iff, ?_⟩
  cases found : argmax scores with
  | none =>
      have empty := argmax_eq_none_iff.mp found
      have bright : ¬ Shadowed scores := fun shadowed => by
        obtain ⟨y, member, _⟩ := shadowed.number
        rw [empty] at member
        exact List.not_mem_nil member
      exact ⟨⟨fun _ => bright, fun _ => .nothing empty⟩, by simp [bright]⟩
  | some k =>
      obtain ⟨x, stands, _⟩ := argmax_leads found
      have shadow : Shadowed scores ↔ x.isNaN ∧ ∃ y ∈ scores, y.isNaN = false := by
        constructor
        · exact fun shadowed => ⟨shadowed.nan found stands, shadowed.number⟩
        · intro both
          obtain ⟨nan, number⟩ := both
          obtain ⟨rfl, least⟩ := argmax_of_nan found stands nan
          exact ⟨⟨x, stands, nan⟩, number, least⟩
      constructor
      · rw [shadow]
        constructor
        · exact fun wanted both => not_wanted_of_nan stands both.1 both.2 wanted
        · intro bright
          cases nan : x.isNaN with
          | false => exact wanted_of_number found stands nan
          | true =>
              obtain ⟨rfl, _⟩ := argmax_of_nan found stands nan
              refine .blank (fun empty => ?_) fun y member => ?_
              · simp [empty] at stands
              · by_contra number
                exact bright ⟨nan, y, member, by simpa using number⟩
      · rw [shadow]
        constructor
        · intro nan
          obtain ⟨k', x', same, stands', nan, number⟩ := nan
          obtain rfl := Option.some.inj same
          obtain rfl := Option.some.inj (stands.symm.trans stands')
          exact ⟨nan, number⟩
        · exact fun both => ⟨k, x, rfl, stands, both⟩

/-- A score that is no number wins over minus infinity behind it. -/
theorem argmax_not_wanted :
    argmax [0.0 / 0.0, -1.0 / 0.0] = some 0 ∧
      ¬ Wanted [0.0 / 0.0, -1.0 / 0.0] (argmax [0.0 / 0.0, -1.0 / 0.0]) := by
  have found : argmax [0.0 / 0.0, -1.0 / 0.0] = some 0 := by decide +kernel
  refine ⟨found, ?_⟩
  rw [found]
  have nan : (0.0 / 0.0 : Float).isNaN := by decide +kernel
  have number : (-1.0 / 0.0 : Float).isNaN = false := by decide +kernel
  exact not_wanted_of_nan rfl nan ⟨_, List.mem_cons_of_mem _ List.mem_cons_self, number⟩

end DecisionSpace
