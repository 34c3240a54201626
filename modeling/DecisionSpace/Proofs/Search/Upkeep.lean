import DecisionSpace.Examples
import DecisionSpace.Proofs.Links
import DecisionSpace.Proofs.Meaning
import DecisionSpace.Proofs.Search.Switching

/-!
# The upkeep of a state

A state keeps a selection and counts beside its values, and a flip changes them only where they
touch its variable.  Here a flip is written as a program makes it, by the lists that a builder
leaves, and with the ways in which that can break down: a place may not be there, and a count may
be zero when it is to be lowered.  Whatever is flipped after whatever else, none of this happens,
and what the state keeps is what an assignment of its values gives from scratch.
-/

set_option autoImplicit false

namespace DecisionSpace

open Fallible

/-! ## Values in their domains -/

def Model.InDomain (m : Model) (values : List Value) : Prop :=
  List.Forall₂ (fun v x => ∃ form, v.validate x = .ok form) m.vars values

namespace Assignment

variable {m : Model} {values : List Value}

theorem exists_ofSlots (inDomain : m.InDomain values) :
    ∃ a, ofSlots m (values.map some) = .ok a := by
  have each : ∀ p ∈ m.vars.zip (values.map some), ∃ slot, fillSlot p.1 p.2 = .ok slot := by
    rintro ⟨v, slot⟩ member
    rw [List.zip_map_right] at member
    obtain ⟨⟨w, x⟩, pair, same⟩ := List.mem_map.mp member
    obtain ⟨rfl, rfl⟩ := Prod.mk.inj same
    obtain ⟨form, valid⟩ := List.forall₂_zip inDomain pair
    exact ⟨some form, (fillSlot_some_ok_iff w x _).mpr ⟨form, mapError_ok_iff.mp valid, rfl⟩⟩
  obtain ⟨slots, related⟩ := exists_forall₂_iff.mpr each
  have size : (values.map some).length = m.vars.length := by
    rw [List.length_map, List.Forall₂.length_eq inDomain]
  exact ⟨⟨m, 0, slots⟩, (ofSlots_ok_iff m _ _).mpr ⟨size, rfl, rfl, related⟩⟩

theorem isSelected_of_ofSlots (sound : ∀ v ∈ m.vars, v.domain.Sound) {a : Assignment}
    (made : ofSlots m (values.map some) = .ok a) : a.isSelected = m.isSelectedIn values := by
  obtain ⟨size, rfl, _⟩ := (ofSlots_ok_iff m _ a).mp made
  rw [List.length_map] at size
  have full := (settled_of_ofSlots sound made).slots.length_eq.symm
  refine funext (isSelected_eq_isSelectedIn full size fun id x held => ?_)
  obtain ⟨inValues, _⟩ := List.getElem?_eq_some_iff.mp held
  have known := List.getElem?_eq_getElem (size ▸ inValues : id < a.model.vars.length)
  have filled := fillSlot_of_ofSlots made known
  rw [List.getElem?_map, held, Option.map_some, Option.join_some] at filled
  obtain ⟨form, valid, kept⟩ := (fillSlot_some_ok_iff _ x _).mp filled
  have like := Domain.same_of_validate (sound _ (List.mem_of_getElem? known)) valid
  rw [← kept, Option.any_some, like.isSelected_eq]

end Assignment

namespace Search

/-! ## Flips that may fail -/

def put? {α : Type} (entries : List α) (k : Nat) (x : α) : Option (List α) :=
  if k < entries.length then some (entries.set k x) else none

def lower? (counts : List Nat) (k : Nat) : Option (List Nat) := do
  let n ← counts[k]?
  if 0 < n then some (counts.set k (n - 1)) else none

/-- Switches a variable off, unless a step of that fails.  The lists say which constraints name a
variable. -/
def State.flip? (m : Model) (byVariable : List (List Nat)) (st : State) (id : Nat) :
    Option State := do
  let v ← m.vars[id]?
  match v.domain.unselected? with
  | none => some st
  | some value => do
      let values ← put? st.values id value
      let selected ← put? st.selected id false
      let touched ← byVariable[id]?
      let counts ← touched.foldlM lower? st.counts
      some { values, selected, counts, flips := st.flips + 1 }

inductive Flips (m : Model) (c : Context) : State → List Nat → State → Prop where
  | done (st : State) : Flips m c st [] st
  | flip {st st' : State} {id : Nat} {ids : List Nat} (flippable : st.isFlippable m c id = true)
      (rest : Flips m c (st.flip m id) ids st') : Flips m c st (id :: ids) st'

theorem Switches.flips {m : Model} {c : Context} {policy : RepairPolicy} {st st' : State}
    {ids : List Nat} (switches : Switches m c policy st ids st') : Flips m c st ids st' := by
  induction switches with
  | done st => exact .done st
  | switchOff _ picks _ ih => exact .flip (List.mem_filter.mp picks.mem).2 ih

theorem put?_of_lt {α : Type} {entries : List α} {k : Nat} (inRange : k < entries.length) (x : α) :
    put? entries k x = some (entries.set k x) :=
  if_pos inRange

theorem lower?_of_pos {counts : List Nat} {k n : Nat} (held : counts[k]? = some n)
    (positive : 0 < n) : lower? counts k = some (counts.modify k (· - 1)) := by
  have modified : counts.modify k (· - 1) = counts.set k (n - 1) := by
    rw [List.modify_eq_set_getElem?, held]
    rfl
  simp only [lower?, held, Option.bind_eq_bind, Option.bind_some, if_pos positive, modified]

theorem foldlM_lower? {touched : List Nat} (nodup : touched.Nodup) {counts : List Nat}
    (positive : ∀ k ∈ touched, ∃ n, counts[k]? = some n ∧ 0 < n) :
    touched.foldlM lower? counts =
      some (touched.foldl (fun counts k => counts.modify k (· - 1)) counts) := by
  induction touched generalizing counts with
  | nil => rfl
  | cons k rest ih =>
      obtain ⟨new, nodup⟩ := List.nodup_cons.mp nodup
      obtain ⟨⟨n, held, above⟩, others⟩ := List.forall_mem_cons.mp positive
      rw [List.foldlM_cons, lower?_of_pos held above, List.foldl_cons]
      -- lowering this count leaves the others as they are, so they are still above zero
      apply ih nodup
      intro other member
      have different : k ≠ other := fun same => new (same ▸ member)
      rw [List.getElem?_modify_ne _ _ different]
      exact others other member

/-! ## States that are kept up -/

namespace State

structure Upkept (m : Model) (st : State) : Prop where
  inDomain : m.InDomain st.values
  tracks : st.Tracks m
  selectedSize : st.selected.length = m.vars.length
  countsSize : st.counts.length = m.constraints.length

structure UpToDate (m : Model) (st : State) (a : Assignment) : Prop where
  made : Assignment.ofSlots m (st.values.map some) = .ok a
  selected : st.selected = (List.range m.vars.length).map a.isSelected
  counts : st.counts = m.constraints.map fun con => con.selectedCount a.isSelected
  violated : st.violated m = (List.range m.constraints.length).filter fun k =>
    (m.constraints[k]?).any fun con => !con.isSatisfied a.isSelected

variable {m : Model} {c : Context} {st : State} {values : List Value}

theorem upkept_ofValues (inDomain : m.InDomain values) : (ofValues m values).Upkept m := by
  have size := List.Forall₂.length_eq inDomain
  refine ⟨inDomain, tracks_ofValues m values, ?_, List.length_map _⟩
  simp [ofValues, ← size]

section
variable (upkept : st.Upkept m)

include upkept

theorem Upkept.selected_eq :
    st.selected = (List.range m.vars.length).map (m.isSelectedIn st.values) := by
  refine List.ext_getElem (by simp [upkept.selectedSize]) fun id inSelected _ => ?_
  have same := upkept.tracks.selected id
  rw [isSelected, List.getElem?_eq_getElem inSelected] at same
  simpa using same

theorem Upkept.counts_eq :
    st.counts = m.constraints.map fun con => con.selectedCount (m.isSelectedIn st.values) := by
  refine List.ext_getElem (by simp [upkept.countsSize]) fun k inCounts inConstraints => ?_
  have known := List.getElem?_eq_getElem (upkept.countsSize ▸ inCounts : k < m.constraints.length)
  have same := upkept.tracks.counts k _ known
  rw [List.getElem?_eq_getElem inCounts] at same
  simpa using same

theorem Upkept.violated_eq :
    st.violated m = (List.range m.constraints.length).filter fun k =>
      (m.constraints[k]?).any fun con => !con.isSatisfied (m.isSelectedIn st.values) := by
  refine List.filter_congr fun k inRange => ?_
  have known := List.getElem?_eq_getElem (List.mem_range.mp inRange)
  rw [upkept.tracks.counts k _ known, known, Bool.eq_iff_iff]
  simp [Constraint.isSatisfied, Constraint.violation, Nat.sub_eq_zero_iff_le]

theorem Upkept.exists_upToDate (wellFormed : m.WellFormed) : ∃ a, st.UpToDate m a := by
  obtain ⟨a, made⟩ := Assignment.exists_ofSlots upkept.inDomain
  have same := Assignment.isSelected_of_ofSlots wellFormed.sound made
  refine ⟨a, made, ?_, ?_, ?_⟩
  · rw [same, upkept.selected_eq]
  · rw [same, upkept.counts_eq]
  · rw [same, upkept.violated_eq]

theorem Upkept.counts_pos {id : Nat} (on : m.isSelectedIn st.values id = true) :
    ∀ k ∈ m.constraintsOn id, ∃ n, st.counts[k]? = some n ∧ 0 < n := by
  intro k listed
  have known := List.getElem?_eq_getElem (List.mem_range.mp (List.mem_filter.mp listed).1)
  -- the variable itself is among those that the constraint counts
  refine ⟨_, upkept.tracks.counts k _ known, ?_⟩
  exact List.countP_pos_iff.mpr ⟨id, (Model.mem_constraintsOn known id).mp listed, on⟩

theorem Upkept.flip (wellFormed : m.WellFormed) {id : Nat}
    (flippable : st.isFlippable m c id = true) : (st.flip m id).Upkept m := by
  obtain ⟨v, off, known, unselected⟩ := upkept.tracks.exists_unselected flippable
  obtain ⟨tracks, _⟩ := upkept.tracks.flip wellFormed.nodup flippable
  have sound := wellFormed.sound v (List.mem_of_getElem? known)
  have canonical := (Domain.canonical_of_unselected? unselected).1
  have own := (Domain.validate_self_iff sound off).mpr canonical
  rw [flip_eq known unselected] at tracks ⊢
  refine ⟨?_, tracks, ?_, ?_⟩
  · exact forall₂_set upkept.inDomain known ⟨off, mapError_ok_iff.mpr own⟩
  · exact List.length_set.trans upkept.selectedSize
  · exact (length_foldl_modify _ _ _).trans upkept.countsSize

theorem Upkept.flip?_eq {id : Nat} (flippable : st.isFlippable m c id = true) :
    st.flip? m ((List.range m.vars.length).map m.constraintsOn) id = some (st.flip m id) := by
  obtain ⟨on, _, _⟩ := (upkept.tracks.isFlippable_iff c id).mp flippable
  obtain ⟨v, off, known, unselected⟩ := upkept.tracks.exists_unselected flippable
  obtain ⟨inVars, _⟩ := List.getElem?_eq_some_iff.mp known
  have inValues : id < st.values.length := List.Forall₂.length_eq upkept.inDomain ▸ inVars
  have inSelected : id < st.selected.length := upkept.selectedSize.symm ▸ inVars
  have listed : ((List.range m.vars.length).map m.constraintsOn)[id]? =
      some (m.constraintsOn id) := by
    rw [List.getElem?_map, List.getElem?_range inVars, Option.map_some]
  have lowered := foldlM_lower? (m.constraintsOn_nodup id) (upkept.counts_pos on)
  rw [flip_eq known unselected]
  simp only [flip?, known, unselected, put?_of_lt inValues, put?_of_lt inSelected, listed, lowered,
    Option.bind_eq_bind, Option.bind_some]

end

end State

/-! ## Runs of flips -/

theorem Flips.upkept {m : Model} {c : Context} {st st' : State} {ids : List Nat}
    (wellFormed : m.WellFormed) (upkept : st.Upkept m) (flips : Flips m c st ids st') :
    st'.Upkept m ∧
      ids.foldlM (State.flip? m ((List.range m.vars.length).map m.constraintsOn)) st = some st' ∧
      st'.flips = st.flips + ids.length ∧ st'.remaining m + ids.length = st.remaining m := by
  induction flips with
  | done st => exact ⟨upkept, rfl, rfl, rfl⟩
  | flip flippable _ ih =>
      obtain ⟨_, counted, remaining⟩ := upkept.tracks.flip wellFormed.nodup flippable
      obtain ⟨last, rest, flips, left⟩ := ih (upkept.flip wellFormed flippable)
      refine ⟨last, ?_, ?_, ?_⟩
      · rw [List.foldlM_cons, upkept.flip?_eq flippable]
        exact rest
      · rw [flips, counted, List.length_cons]
        omega
      · rw [List.length_cons]
        omega

/-- In a built model the list of a variable has the position of a constraint once if the
constraint names the variable, and not at all otherwise; these are the lists that the builder
leaves.  From any values in their domains, and whatever variables are flipped that may be switched
off when their turn comes, no flip by these lists breaks down: no place is missing, and no count
is lowered below zero.  In the end the selection, the counts and the violated constraints of the
state are those of an assignment of its values, and the flips have been counted, of which there
are no more than variables.  A repair makes such flips only. -/
theorem flips_upToDate {serial : Nat} {d : Declaration} {m : Model}
    (built : d.build serial = .ok m) :
    (∀ id k, (m.constraintsOn id).count k =
      if (m.constraints[k]?).any (fun con => id ∈ con.vars) then 1 else 0) ∧
    ∃ links, Declaration.link (d.frozen serial) d.declaredLimits = .ok links ∧
      links.constraints = m.constraints ∧
      links.byVariable = (List.range m.vars.length).map m.constraintsOn ∧
      ∀ (c : Context) (values : List Value), m.InDomain values →
        (∀ ids st, Flips m c (.ofValues m values) ids st →
          ids.foldlM (State.flip? m links.byVariable) (.ofValues m values) = some st ∧
          st.flips = ids.length ∧ ids.length ≤ m.vars.length ∧ ∃ a, st.UpToDate m a) ∧
        ∀ {σ : Type} [Sampling.Chance σ] (policy : RepairPolicy) (limit : Nat) (s : σ), ∃ ids,
          Flips m c (.ofValues m values) ids
            (repair m c policy limit (.ofValues m values) s).1.state := by
  have wellFormed := Declaration.build_wellFormed built
  refine ⟨m.count_constraintsOn, _, Declaration.link_of_build built, rfl, rfl,
    fun c values inDomain => ⟨fun ids st flips => ?_, fun policy limit s => ?_⟩⟩
  · obtain ⟨upkept, guarded, counted, left⟩ :=
      flips.upkept wellFormed (State.upkept_ofValues inDomain)
    have most : (State.ofValues m values).remaining m ≤ m.vars.length :=
      List.countP_le_length.trans_eq List.length_range
    exact ⟨guarded, counted.trans (Nat.zero_add _), by omega, upkept.exists_upToDate wellFormed⟩
  · obtain ⟨ids, switches⟩ := exists_switches m c policy limit (.ofValues m values) s
    exact ⟨ids, switches.flips⟩

theorem flips_upToDate_nested :
    let m := Examples.nestedModel
    let c := Context.ofFact ⟨0, .bool true⟩
    let values : List Value :=
      [.bool true, .selection [.text "blue", .text "red"], .bool true, .bool true, .text "s",
        .bool false, .bool true, .bool false]
    let st := ((State.ofValues m values).flip m 2).flip m 1
    Examples.nested.build 0 = .ok m ∧ m.InDomain values ∧
      (State.ofValues m values).isFlippable m c 0 = false ∧
      Flips m c (.ofValues m values) [2, 1] st ∧
      (State.ofValues m values).counts = [3, 2, 1] ∧ st.counts = [1, 1, 1] ∧
      (m.constraintsOn 2).count 1 = 1 ∧
      (∃ links : Declaration.Links,
        links.byVariable = [[0], [0], [0, 1], [1], [], [2], [2], [2]] ∧
          [2, 1].foldlM (State.flip? m links.byVariable) (.ofValues m values) = some st) ∧
      ∃ a, st.UpToDate m a := by
  intro m c values st
  have built : Examples.nested.build 0 = .ok m := rfl
  have inDomain : m.InDomain values :=
    .cons ⟨_, rfl⟩ (.cons ⟨_, rfl⟩ (.cons ⟨_, rfl⟩ (.cons ⟨_, rfl⟩ (.cons ⟨_, rfl⟩
      (.cons ⟨_, rfl⟩ (.cons ⟨_, rfl⟩ (.cons ⟨_, rfl⟩ .nil)))))))
  have flips : Flips m c (.ofValues m values) [2, 1] st :=
    .flip (by decide) (.flip (by decide) (.done _))
  obtain ⟨once, links, _, _, lists, reached⟩ := flips_upToDate built
  obtain ⟨guarded, _, _, upToDate⟩ := (reached c values inDomain).1 _ _ flips
  exact ⟨built, inDomain, by decide, flips, by decide, by decide, once 2 1,
    ⟨links, lists, guarded⟩, upToDate⟩

end Search

end DecisionSpace
