import DecisionSpace.Proofs.Search.Counting
import DecisionSpace.Proofs.Search.Ranking
import DecisionSpace.Proofs.Solution

/-!
# What a walk finds

A walk returns the first vectors, in the order of a plain product of the choices
of its levels, that keep the counts within the limits on the way.  A count only
grows along a vector and ends at the number of selected variables of its
constraint, so these are the vectors that satisfy every constraint.
-/

set_option autoImplicit false

namespace DecisionSpace.Search

def product : List (List Value) → List (List Value)
  | [] => [[]]
  | choices :: rest => choices.flatMap fun value => (product rest).map (value :: ·)

def advance? (limits : List Nat) (level : Level) (counts : List Nat) (value : Value) :
    Option (List Nat) :=
  if level.domain.selects value then select? limits counts level.constraints else some counts

def keeps (limits : List Nat) : List Level → List Nat → List Value → Bool
  | level :: rest, counts, value :: values =>
      match advance? limits level counts value with
      | none => false
      | some counts => keeps limits rest counts values
  | _, _, _ => true

/-! ## A cut walk is the beginning of the whole walk -/

theorem take_take_append {α : Type} (xs ys : List α) (n : Nat) :
    (xs.take n ++ ys).take n = (xs ++ ys).take n := by
  rw [List.take_append, List.take_append, List.take_take, List.length_take, Nat.min_self]
  congr 2
  omega

/-- Branches that are cut to the room that is left add up to what cutting the
whole would leave. -/
theorem foldl_cut {α : Type} (whole : Value → List α) (cut : Value → Nat → List α)
    (cuts : ∀ value room, 0 < room → cut value room = (whole value).take room)
    (values : List Value) (room : Nat) (found : List α) (within : found.length ≤ room) :
    values.foldl (fun found value =>
        if room ≤ found.length then found else found ++ cut value (room - found.length)) found =
      (found ++ values.flatMap whole).take room := by
  induction values generalizing found with
  | nil =>
      rw [List.foldl_nil, List.flatMap_nil, List.append_nil]
      exact (List.take_of_length_le within).symm
  | cons value rest ih =>
      rw [List.foldl_cons, List.flatMap_cons]
      by_cases full : room ≤ found.length
      · -- what was found fills the room, so that nothing is added to it any more
        have filled : found.length = room := Nat.le_antisymm within full
        rw [if_pos full, ih found within, List.take_left' filled, List.take_left' filled]
      · have branch := cuts value (room - found.length) (by omega)
        have shorter : (found ++ (whole value).take (room - found.length)).length ≤ room := by
          rw [List.length_append, List.length_take]
          omega
        have joined : found ++ (whole value).take (room - found.length) =
            (found ++ whole value).take room := by
          rw [List.take_append, List.take_of_length_le within]
        rw [if_neg full, branch, ih _ shorter, joined, take_take_append, List.append_assoc]

def branch (limits : List Nat) (level : Level) (rest : List Level) (counts : List Nat)
    (value : Value) : List (List Value) :=
  match advance? limits level counts value with
  | none => []
  | some counts => ((product (rest.map (·.values))).filter (keeps limits rest counts)).map (value :: ·)

theorem filter_product (limits : List Nat) (level : Level) (rest : List Level) (counts : List Nat) :
    (product ((level :: rest).map (·.values))).filter (keeps limits (level :: rest) counts) =
      level.values.flatMap (branch limits level rest counts) := by
  rw [List.map_cons, product, List.filter_flatMap]
  congr 1
  funext value
  rw [List.filter_map, branch]
  cases next : advance? limits level counts value with
  | none =>
      have none : ∀ values, keeps limits (level :: rest) counts (value :: values) = false := by
        intro values
        simp only [keeps, next]
      simp [Function.comp_def, none]
  | some counts' =>
      have same : ∀ values, keeps limits (level :: rest) counts (value :: values) =
          keeps limits rest counts' values := by
        intro values
        simp only [keeps, next]
      simp only [Function.comp_def, same]

theorem walk_eq_take (limits : List Nat) (levels : List Level) (counts : List Nat) (room : Nat)
    (positive : 0 < room) :
    walk limits levels counts room =
      ((product (levels.map (·.values))).filter (keeps limits levels counts)).take room := by
  induction levels generalizing counts room with
  | nil =>
      rw [walk, List.map_nil, product, List.filter_cons_of_pos (by rfl), List.filter_nil]
      exact (List.take_of_length_le (Nat.succ_le_of_lt positive)).symm
  | cons level rest ih =>
      have cuts : ∀ value room, 0 < room →
          (match advance? limits level counts value with
            | none => []
            | some counts => (walk limits rest counts room).map (value :: ·)) =
            (branch limits level rest counts value).take room := by
        intro value room positive
        rw [branch]
        cases advance? limits level counts value with
        | none => exact List.take_nil.symm
        | some counts' =>
            change (walk limits rest counts' room).map (value :: ·) = _
            rw [ih counts' room positive, List.map_take]
      have folded := foldl_cut _ _ cuts level.values room [] (Nat.zero_le room)
      rw [filter_product, ← List.nil_append (level.values.flatMap _), ← folded, walk]
      congr 1
      funext found value
      split
      · rfl
      · change (match advance? limits level counts value with
            | none => found
            | some counts =>
                found ++ (walk limits rest counts (room - found.length)).map (value :: ·)) = _
        cases advance? limits level counts value with
        | none => exact (List.append_nil found).symm
        | some counts' => rfl

/-! ## A vector that is kept satisfies every constraint -/

def selectedBefore (m : Model) (values : List Value) (id other : Nat) : Bool :=
  decide (other < id) && m.isSelectedIn values other

section
variable {m : Model} {values : List Value}

theorem selectedBefore_zero : selectedBefore m values 0 = fun _ => false := by
  funext other
  simp [selectedBefore]

theorem selectedBefore_of_length_le {id : Nat} (all : m.vars.length ≤ id) :
    selectedBefore m values id = m.isSelectedIn values := by
  funext other
  by_cases inVars : other < m.vars.length
  · have before : other < id := by omega
    simp [selectedBefore, before]
  · rw [selectedBefore, Model.isSelectedIn_of_length_le (Nat.le_of_not_lt inVars), Bool.and_false]

theorem selectedBefore_self (id : Nat) : selectedBefore m values id id = false := by
  simp [selectedBefore]

theorem selectedBefore_succ_self (id : Nat) :
    selectedBefore m values (id + 1) id = m.isSelectedIn values id := by
  simp [selectedBefore]

theorem selectedBefore_succ_of_ne {id other : Nat} (different : other ≠ id) :
    selectedBefore m values id other = selectedBefore m values (id + 1) other := by
  have same : (other < id) = (other < id + 1) := by
    apply propext
    omega
  simp only [selectedBefore, same]

theorem selectedCount_before_le (con : Constraint) (id : Nat) :
    con.selectedCount (selectedBefore m values id) ≤ con.selectedCount (m.isSelectedIn values) := by
  apply List.countP_mono_left
  intro other _ before
  exact (Bool.and_eq_true_iff.mp before).2

end

def Full (m : Model) (isSelected : Nat → Bool) (id : Nat) : Prop :=
  ∃ con ∈ m.constraints, id ∈ con.vars ∧ con.limit ≤ con.selectedCount isSelected

theorem any_full_iff {m : Model} {isSelected : Nat → Bool} {counts : List Nat}
    (counted : m.Counts isSelected counts) (id : Nat) :
    ((m.constraintsOn id).any fun k =>
        (m.constraints.map (·.limit))[k]?.getD 0 ≤ counts[k]?.getD 0) = true ↔
      Full m isSelected id := by
  simp only [List.any_eq_true, decide_eq_true_eq]
  constructor
  · rintro ⟨k, touched, full⟩
    have inRange : k < m.constraints.length := List.mem_range.mp (List.mem_of_mem_filter touched)
    have known := List.getElem?_eq_getElem inRange
    rw [List.getElem?_map, known, counted k _ known] at full
    exact ⟨_, List.getElem_mem inRange, (Model.mem_constraintsOn known id).mp touched, full⟩
  · rintro ⟨con, member, named, full⟩
    obtain ⟨k, known⟩ := List.mem_iff_getElem?.mp member
    refine ⟨k, (Model.mem_constraintsOn known id).mpr named, ?_⟩
    rw [List.getElem?_map, known, counted k con known]
    exact full

def levelOf (m : Model) (c : Context) (id : Nat) (v : Variable) : Level :=
  { domain := v.domain
    constraints := m.constraintsOn id
    values :=
      match c.get? id with
      | some fixed => [fixed]
      | none => candidateValues v.domain }

def levelsFrom (m : Model) (c : Context) : Nat → List Variable → List Level
  | _, [] => []
  | id, v :: rest => levelOf m c id v :: levelsFrom m c (id + 1) rest

theorem levels_eq_levelsFrom (m : Model) (c : Context) :
    levels m c = levelsFrom m c 0 m.vars := by
  have general : ∀ vars id,
      (vars.zipIdx id).map (fun p => levelOf m c p.2 p.1) = levelsFrom m c id vars := by
    intro vars
    induction vars with
    | nil => exact fun _ => rfl
    | cons v rest ih =>
        intro id
        rw [List.zipIdx_cons, List.map_cons, ih, levelsFrom]
  exact general m.vars 0

structure OnTrack (m : Model) (values : List Value) (id : Nat) (counts : List Nat) : Prop where
  counted : m.Counts (selectedBefore m values id) counts
  within : ∀ con ∈ m.constraints, con.selectedCount (selectedBefore m values id) ≤ con.limit

section
variable {m : Model} {values : List Value} {id : Nat} {counts : List Nat} {v : Variable} {x : Value}

theorem OnTrack.skip (known : m.vars[id]? = some v) (held : values[id]? = some x)
    (off : v.domain.selects x = false) (before : OnTrack m values id counts) :
    OnTrack m values (id + 1) counts := by
  have unchanged : selectedBefore m values (id + 1) = selectedBefore m values id := by
    funext other
    by_cases same : other = id
    · subst same
      rw [selectedBefore_succ_self, selectedBefore_self, Model.isSelectedIn_of_getElem? known held,
        off]
    · exact (selectedBefore_succ_of_ne same).symm
  exact ⟨unchanged ▸ before.counted, unchanged ▸ before.within⟩

theorem selectedCount_succ (wellFormed : m.WellFormed) (known : m.vars[id]? = some v)
    (held : values[id]? = some x) (on : v.domain.selects x = true) {con : Constraint}
    (member : con ∈ m.constraints) :
    con.selectedCount (selectedBefore m values (id + 1)) =
      con.selectedCount (selectedBefore m values id) + if id ∈ con.vars then 1 else 0 := by
  apply countP_switch (wellFormed.nodup con member)
  · rw [selectedBefore_succ_self, Model.isSelectedIn_of_getElem? known held, on]
  · exact selectedBefore_self id
  · exact fun other different => selectedBefore_succ_of_ne different

theorem OnTrack.raise (wellFormed : m.WellFormed) (known : m.vars[id]? = some v)
    (held : values[id]? = some x) (on : v.domain.selects x = true)
    (room : ¬ Full m (selectedBefore m values id) id) (before : OnTrack m values id counts) :
    OnTrack m values (id + 1)
      ((m.constraintsOn id).foldl (fun counts k => counts.modify k (· + 1)) counts) := by
  refine ⟨?_, fun con member => ?_⟩
  · apply before.counted.raise wellFormed.nodup
    · rw [selectedBefore_succ_self, Model.isSelectedIn_of_getElem? known held, on]
    · exact selectedBefore_self id
    · exact fun other different => selectedBefore_succ_of_ne different
  · have allowed := before.within con member
    rw [selectedCount_succ wellFormed known held on member]
    by_cases named : id ∈ con.vars
    · have below : con.selectedCount (selectedBefore m values id) < con.limit := by
        by_contra most
        exact room ⟨con, member, named, Nat.le_of_not_lt most⟩
      rw [if_pos named]
      omega
    · rw [if_neg named]
      omega

theorem overfull_of_full (wellFormed : m.WellFormed) (known : m.vars[id]? = some v)
    (held : values[id]? = some x) (on : v.domain.selects x = true)
    (full : Full m (selectedBefore m values id) id) :
    ∃ con ∈ m.constraints, con.limit < con.selectedCount (m.isSelectedIn values) := by
  obtain ⟨con, member, named, most⟩ := full
  have more := selectedCount_succ wellFormed known held on member
  rw [if_pos named] at more
  have final : con.selectedCount (selectedBefore m values (id + 1)) ≤
      con.selectedCount (m.isSelectedIn values) := selectedCount_before_le con (id + 1)
  exact ⟨con, member, by omega⟩

theorem advance?_spec (wellFormed : m.WellFormed) (known : m.vars[id]? = some v)
    (held : values[id]? = some x) (c : Context) (before : OnTrack m values id counts) :
    match advance? (m.constraints.map (·.limit)) (levelOf m c id v) counts x with
    | none => ∃ con ∈ m.constraints, con.limit < con.selectedCount (m.isSelectedIn values)
    | some next => OnTrack m values (id + 1) next := by
  have step : advance? (m.constraints.map (·.limit)) (levelOf m c id v) counts x =
      if v.domain.selects x then
        select? (m.constraints.map (·.limit)) counts (m.constraintsOn id)
      else some counts := rfl
  rw [step, select?]
  by_cases on : v.domain.selects x = true
  · rw [if_pos on]
    by_cases full : Full m (selectedBefore m values id) id
    · rw [if_pos ((any_full_iff before.counted id).mpr full)]
      exact overfull_of_full wellFormed known held on full
    · rw [if_neg (fun any => full ((any_full_iff before.counted id).mp any))]
      exact before.raise wellFormed known held on full
  · rw [if_neg on]
    exact before.skip known held (eq_false_of_ne_true on)

/-- From any position on, a walk that is on track keeps the vectors that satisfy
every constraint in the end. -/
theorem keeps_iff (wellFormed : m.WellFormed) (c : Context)
    (size : values.length = m.vars.length) (suffix : List Variable)
    (left : m.vars.drop id = suffix) (before : OnTrack m values id counts) :
    keeps (m.constraints.map (·.limit)) (levelsFrom m c id suffix) counts (values.drop id) = true ↔
      ∀ con ∈ m.constraints, con.selectedCount (m.isSelectedIn values) ≤ con.limit := by
  -- on the variables that are left; `OnTrack` says all that matters of those before them
  induction suffix generalizing id counts with
  | nil =>
      have within := before.within
      rw [selectedBefore_of_length_le (List.drop_eq_nil_iff.mp left)] at within
      simp only [levelsFrom, keeps, true_iff]
      exact within
  | cons v suffix ih =>
      have inVars : id < m.vars.length := by
        by_contra outside
        rw [List.drop_eq_nil_iff.mpr (Nat.le_of_not_lt outside)] at left
        exact absurd left (by simp)
      rw [List.drop_eq_getElem_cons inVars] at left
      obtain ⟨head, tail⟩ := List.cons.inj left
      have known : m.vars[id]? = some v := by rw [List.getElem?_eq_getElem inVars, head]
      have inValues : id < values.length := size ▸ inVars
      have held := List.getElem?_eq_getElem inValues
      rw [List.drop_eq_getElem_cons inValues, levelsFrom, keeps]
      have step := advance?_spec wellFormed known held c before
      split at step
      · obtain ⟨con, member, overfull⟩ := step
        refine ⟨fun kept => absurd kept (by simp), fun all => ?_⟩
        exact absurd overfull (Nat.not_lt_of_le (all con member))
      · exact ih tail step

theorem keeps_levels_iff (wellFormed : m.WellFormed) (c : Context)
    (size : values.length = m.vars.length) :
    keeps (m.constraints.map (·.limit)) (levels m c) (m.constraints.map fun _ => 0) values = true ↔
      ∀ con ∈ m.constraints, con.selectedCount (m.isSelectedIn values) ≤ con.limit := by
  have none : ∀ con : Constraint, con.selectedCount (selectedBefore m values 0) = 0 := by
    intro con
    rw [selectedBefore_zero, Constraint.selectedCount, List.countP_false]
    rfl
  have start : OnTrack m values 0 (m.constraints.map fun _ => 0) := by
    refine ⟨?_, fun con _ => ?_⟩
    · have zeros := Model.counts_map m (selectedBefore m values 0)
      simpa only [none] using zeros
    · rw [none]
      exact Nat.zero_le _
  rw [levels_eq_levelsFrom]
  exact keeps_iff wellFormed c size m.vars rfl start

end

end DecisionSpace.Search
