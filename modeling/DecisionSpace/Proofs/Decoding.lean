import DecisionSpace.Proofs.Arena
import DecisionSpace.Proofs.Projection
import DecisionSpace.Proofs.Solution

/-!
# Assignments as tables of paths

An assignment is written as a table from paths to values and read back from it.
Writing goes by the slots, reading by the entries; here both are led back to the
variables.  What a table is read as holds for each variable the canonical form of
the entry at its path, so reading undoes writing.
-/

set_option autoImplicit false

namespace DecisionSpace

open Fallible
open DecisionSpace.Path

/-! ## Writing -/

theorem Path.relativeTo_join (scope path : String) : relativeTo scope (join scope path) = path := by
  by_cases top : scope = ""
  · simp [relativeTo, join, top]
  · simp [relativeTo, join, top, ← String.length_toList]

namespace Assignment

section
variable {a : Assignment}

theorem pathFrom_of_entry (tree : a.model.IsTree) (inRange : a.scope < a.model.scopes.length)
    {v : Nat} (listed : v ∈ a.view.subtree) {e : String × Value}
    (written : (a.value? v).map (fun x => (relativeTo a.view.path (a.model.variableAt v).path, x)) =
      some e) : a.model.PathFrom a.scope v e.1 ∧ a.value? v = some e.2 := by
  obtain ⟨x, held, rfl⟩ := Option.map_eq_some_iff.mp written
  rw [Scope.mem_subtree_iff] at listed
  exact ⟨tree.pathFrom_relativeTo inRange ((tree.contains_iff _ v).mp listed), held⟩

theorem mem_entries_iff (tree : a.model.IsTree) (inRange : a.scope < a.model.scopes.length)
    (path : String) (x : Value) : (path, x) ∈ a.entries ↔ a.HoldsAt path x := by
  rw [entries, List.mem_filterMap]
  constructor
  · rintro ⟨v, listed, written⟩
    exact ⟨v, pathFrom_of_entry tree inRange listed written⟩
  · rintro ⟨v, leads, held⟩
    have same := ((tree.pathFrom_iff inRange path).mp leads).2
    obtain ⟨inVars, names, below, _⟩ := leads
    refine ⟨v, ?_, ?_⟩
    · rw [Scope.mem_subtree_iff]
      exact (tree.contains_iff _ v).mpr ⟨inVars, names, below⟩
    · rw [held, Option.map_some, same, view, relativeTo_join]

theorem entries_keys_nodup (tree : a.model.IsTree) (inRange : a.scope < a.model.scopes.length) :
    (a.entries.map (·.1)).Nodup := by
  refine List.pairwise_map.mpr (List.pairwise_filterMap.mpr ?_)
  have distinct : a.view.subtree.Pairwise (· ≠ ·) := List.nodup_range'
  refine distinct.imp_of_mem fun {v w} listed otherListed different => ?_
  intro e written f otherWritten same
  obtain ⟨leads, _⟩ := pathFrom_of_entry tree inRange listed written
  obtain ⟨otherLeads, _⟩ := pathFrom_of_entry tree inRange otherListed otherWritten
  exact different (tree.pathFrom_unique leads (same ▸ otherLeads))

theorem get?_toMap (tree : a.model.IsTree) (inRange : a.scope < a.model.scopes.length)
    (path : String) (x : Value) : a.toMap.get? path = some x ↔ a.HoldsAt path x := by
  rw [toMap, Table.get?_ofList (entries_keys_nodup tree inRange), mem_entries_iff tree inRange]

end

/-! ## Settled slots -/

/-- An assignment of the whole model in which each slot is what becomes of it. -/
structure Settled (m : Model) (a : Assignment) : Prop where
  model : a.model = m
  root : a.scope = 0
  slots : List.Forall₂ (fun v slot => fillSlot v slot = .ok slot) m.vars a.slots

theorem Settled.fillSlot_value {m : Model} {a : Assignment} (settled : Settled m a) {id : Nat}
    {v : Variable} (known : m.vars[id]? = some v) :
    fillSlot v (a.value? id) = .ok (a.value? id) := by
  obtain ⟨inVars, rfl⟩ := List.getElem?_eq_some_iff.mp known
  have inSlots : id < a.slots.length := settled.slots.length_eq ▸ inVars
  rw [value?, List.getElem?_eq_getElem inSlots, Option.join_some]
  exact List.Forall₂.get settled.slots inVars inSlots

theorem fillSlot_again {v : Variable} (sound : v.domain.Sound) {slot filled : Option Value}
    (run : fillSlot v slot = .ok filled) : fillSlot v filled = .ok filled := by
  cases filled with
  | some x =>
      have canonical := canonical_of_fillSlot sound run
      have valid := (Domain.validate_self_iff sound x).mpr canonical
      exact (fillSlot_some_ok_iff v x _).mpr ⟨x, valid, rfl⟩
  | none =>
      -- a slot that stays empty was empty before
      cases slot with
      | none => exact run
      | some x =>
          obtain ⟨_, _, impossible⟩ := (fillSlot_some_ok_iff v x none).mp run
          exact absurd impossible (by simp)

theorem settled_of_ofSlots {m : Model} (sound : ∀ v ∈ m.vars, v.domain.Sound)
    {slots : List (Option Value)} {a : Assignment} (made : ofSlots m slots = .ok a) :
    Settled m a := by
  obtain ⟨size, model, root, related⟩ := (ofSlots_ok_iff m slots a).mp made
  refine ⟨model, root, List.forall₂_iff_get.mpr ⟨?_, fun i inVars inSlots => ?_⟩⟩
  · rw [← related.length_eq, List.length_zip, size, Nat.min_self]
  · have step := List.Forall₂.get related (by simpa [size] using inVars) inSlots
    simp only [List.get_eq_getElem, List.getElem_zip] at step
    exact fillSlot_again (sound _ (List.getElem_mem inVars)) step

theorem ofSlots_of_settled {m : Model} {a : Assignment} (settled : Settled m a) :
    ofSlots m a.slots = .ok a := by
  have size := settled.slots.length_eq
  refine (ofSlots_ok_iff m a.slots a).mpr ⟨size.symm, settled.model, settled.root, ?_⟩
  refine List.forall₂_iff_get.mpr ⟨by simp [size], ?_⟩
  intro i inZip inSlots
  have step := List.Forall₂.get settled.slots (by omega) inSlots
  simpa [List.getElem_zip] using step

end Assignment

/-! ## Reading -/

namespace Model

def Admits (m : Model) (map : Table String Value) : Prop :=
  ∀ path value, map.get? path = some value →
    ∃ v ∈ m.vars, v.path = path ∧ ∃ x, v.domain.validate value = .ok x

namespace IsTree

variable {m : Model} (tree : m.IsTree)

include tree

theorem pathFrom_root_iff (v : Nat) (path : String) :
    m.PathFrom 0 v path ↔ v < m.vars.length ∧ (m.variableAt v).path = path := by
  have unnamed : (m.scopeAt 0).path = "" := tree.unnamed
  rw [tree.pathFrom_iff tree.nonempty, unnamed]
  rfl

theorem variable_eq_of_path {v w : Variable} (member : v ∈ m.vars) (otherMember : w ∈ m.vars)
    (same : v.path = w.path) : v = w :=
  List.inj_on_of_nodup_map tree.variable_paths_nodup member otherMember same

theorem fact_anchored_ok_iff (path : String) (value : Value) (f : Fact) :
    m.fact ("/" ++ path) value = .ok f ↔
      ∃ v, m.vars[f.id]? = some v ∧ v.path = path ∧ v.domain.validate value = .ok f.value := by
  have resolved : ∀ id, m.resolveIn 0 ("/" ++ path) = .ok id ↔
      id < m.vars.length ∧ (m.variableAt id).path = path := by
    intro id
    rw [tree.resolveIn_path_ok_iff tree.nonempty (hasSeparator_anchored path), unanchored_anchored,
      tree.pathFrom_root_iff]
  simp only [fact, factIn, bind_ok_iff, mapError_ok_iff, resolved, Variable.validate]
  constructor
  · rintro ⟨id, ⟨inRange, named⟩, x, valid, made⟩
    obtain rfl := Except.ok.inj made
    exact ⟨m.variableAt id, by simp [variableAt, inRange], named, valid⟩
  · rintro ⟨v, known, named, valid⟩
    have inRange := (List.getElem?_eq_some_iff.mp known).1
    obtain rfl := variableAt_of_getElem? known
    exact ⟨f.id, ⟨inRange, named⟩, f.value, valid, rfl⟩

end IsTree

end Model

namespace Assignment

section
variable {m : Model} (tree : m.IsTree)

include tree

theorem putPath_map {v : Variable} (member : v ∈ m.vars) {value x : Value}
    (valid : v.domain.validate value = .ok x) (slot : Variable → Option Value) :
    putPath m (m.vars.map slot) (v.path, value) =
      .ok (m.vars.map fun w =>
        if w.path = v.path then (w.domain.validate value).toOption else slot w) := by
  obtain ⟨id, inRange, same⟩ := List.mem_iff_getElem.mp member
  have known : m.vars[id]? = some v := same ▸ List.getElem?_eq_getElem inRange
  have run : m.fact ("/" ++ v.path) value = .ok ⟨id, x⟩ :=
    (tree.fact_anchored_ok_iff v.path value ⟨id, x⟩).mpr ⟨v, known, rfl, valid⟩
  simp only [putPath, run]
  refine congrArg Except.ok (List.ext_getElem (by simp) fun other inSlots inVars => ?_)
  simp only [List.length_map] at inVars
  rw [List.getElem_set, List.getElem_map, List.getElem_map]
  by_cases here : id = other
  · subst here
    rw [if_pos rfl, same, if_pos rfl, valid]
    rfl
  · have different : m.vars[other].path ≠ v.path := by
      rw [← same, ← Model.variableAt_eq_getElem inVars, ← Model.variableAt_eq_getElem inRange]
      exact fun samePath => here (tree.variable_path_injective inVars inRange samePath).symm
    rw [if_neg here, if_neg different]

theorem foldlM_putPath_map (entries : List (String × Value)) (nodup : (entries.map (·.1)).Nodup)
    (admitted : ∀ e ∈ entries, ∃ v ∈ m.vars, v.path = e.1 ∧ ∃ x, v.domain.validate e.2 = .ok x)
    (slot : Variable → Option Value) :
    entries.foldlM (putPath m) (m.vars.map slot) =
      .ok (m.vars.map fun v => (entries.lookup v.path).elim (slot v)
        fun value => (v.domain.validate value).toOption) := by
  -- the slots written so far are a function of the variables, which the step changes
  induction entries generalizing slot with
  | nil => rfl
  | cons head rest ih =>
      obtain ⟨path, value⟩ := head
      obtain ⟨new, tail⟩ := List.nodup_cons.mp nodup
      obtain ⟨⟨v, member, rfl, x, valid⟩, others⟩ := List.forall_mem_cons.mp admitted
      have first := putPath_map tree member valid slot
      rw [List.foldlM_cons, first]
      refine (ih tail others _).trans (congrArg Except.ok (List.map_congr_left fun w _ => ?_))
      rw [Table.lookup_cons_eq_ite]
      by_cases same : w.path = v.path
      · -- no later entry has this path, so what is written stays
        rw [same, Table.lookup_eq_none_iff_notMem.mpr new]
        simp
      · simp [same]

theorem admitted_of_foldlM (entries : List (String × Value)) (slots result : List (Option Value))
    (run : entries.foldlM (putPath m) slots = .ok result) :
    ∀ e ∈ entries, ∃ v ∈ m.vars, v.path = e.1 ∧ ∃ x, v.domain.validate e.2 = .ok x := by
  induction entries generalizing slots with
  | nil => simp
  | cons head rest ih =>
      rw [List.foldlM_cons] at run
      obtain ⟨slots', first, others⟩ := bind_ok_iff.mp run
      refine List.forall_mem_cons.mpr ⟨?_, ih slots' others⟩
      obtain ⟨f, made, _⟩ := bind_ok_iff.mp first
      obtain ⟨v, known, named, valid⟩ := (tree.fact_anchored_ok_iff _ _ f).mp made
      exact ⟨v, List.mem_of_getElem? known, named, f.value, valid⟩

end

/-- What a table is read as for a variable: the canonical form of the entry at its path,
or its constant. -/
def readSlot (map : Table String Value) (v : Variable) : Option Value :=
  match map.get? v.path, v.domain with
  | some value, domain => (domain.validate value).toOption
  | none, .constant c => some c
  | none, _ => none

section
variable {m : Model} (tree : m.IsTree) {map : Table String Value}

include tree

theorem exists_canonical (admits : m.Admits map) {v : Variable} (member : v ∈ m.vars)
    {value : Value} (held : map.get? v.path = some value) :
    ∃ x, v.domain.validate value = .ok x := by
  obtain ⟨w, otherMember, same, valid⟩ := admits v.path value held
  exact tree.variable_eq_of_path otherMember member same ▸ valid

theorem fillSlot_readSlot (sound : ∀ v ∈ m.vars, v.domain.Sound) (admits : m.Admits map)
    {v : Variable} (member : v ∈ m.vars) :
    fillSlot v ((map.get? v.path).elim none fun value => (v.domain.validate value).toOption) =
      .ok (readSlot map v) := by
  cases held : map.get? v.path with
  | none =>
      simp only [Option.elim_none, fillSlot, readSlot, held]
      cases v.domain <;> rfl
  | some value =>
      obtain ⟨x, valid⟩ := exists_canonical tree admits member held
      have canonical := Domain.canonical_of_validate (sound v member) valid
      have settled := (Domain.validate_self_iff (sound v member) x).mpr canonical
      simp only [Option.elim_some, readSlot, held, valid]
      exact (fillSlot_some_ok_iff v x _).mpr ⟨x, settled, rfl⟩

theorem ofMap_eq (sound : ∀ v ∈ m.vars, v.domain.Sound) (admits : m.Admits map) :
    ofMap m map = .ok ⟨m, 0, m.vars.map (readSlot map)⟩ := by
  have admitted : ∀ e ∈ map.entries,
      ∃ v ∈ m.vars, v.path = e.1 ∧ ∃ x, v.domain.validate e.2 = .ok x :=
    fun e listed => admits e.1 e.2 ((map.get?_eq_some_iff e.1 e.2).mpr listed)
  have empty : List.replicate m.vars.length none = m.vars.map fun _ => (none : Option Value) := by
    rw [List.map_const']
  rw [ofMap, empty, foldlM_putPath_map tree map.entries map.keys_nodup admitted]
  refine (ofSlots_ok_iff m _ _).mpr ⟨by simp, rfl, rfl, ?_⟩
  rw [← List.map_prod_left_eq_zip, List.forall₂_map_left_iff, List.forall₂_map_right_iff,
    List.forall₂_same]
  exact fun v member => fillSlot_readSlot tree sound admits member

theorem exists_ofMap_iff (sound : ∀ v ∈ m.vars, v.domain.Sound) :
    (∃ a, ofMap m map = .ok a) ↔ m.Admits map := by
  constructor
  · rintro ⟨a, run⟩ path value held
    obtain ⟨slots, written, _⟩ := bind_ok_iff.mp run
    exact admitted_of_foldlM tree map.entries _ slots written (path, value)
      ((map.get?_eq_some_iff path value).mp held)
  · exact fun admits => ⟨_, ofMap_eq tree sound admits⟩

end

section
variable {a : Assignment}

theorem get?_toMap_root (tree : a.model.IsTree) (root : a.scope = 0) {id : Nat} {v : Variable}
    (known : a.model.vars[id]? = some v) : a.toMap.get? v.path = a.value? id := by
  have inRange := (List.getElem?_eq_some_iff.mp known).1
  have same := Model.variableAt_of_getElem? known
  apply Option.ext
  intro x
  rw [get?_toMap tree (root ▸ tree.nonempty), HoldsAt, root]
  constructor
  · rintro ⟨w, leads, held⟩
    obtain ⟨otherInRange, samePath⟩ := (tree.pathFrom_root_iff w v.path).mp leads
    rw [← same] at samePath
    exact tree.variable_path_injective otherInRange inRange samePath ▸ held
  · intro held
    exact ⟨id, (tree.pathFrom_root_iff id v.path).mpr ⟨inRange, by rw [same]⟩, held⟩

theorem variable_of_toMap (tree : a.model.IsTree) (root : a.scope = 0) {path : String} {x : Value}
    (held : a.toMap.get? path = some x) :
    ∃ id v, a.model.vars[id]? = some v ∧ v.path = path ∧ a.value? id = some x := by
  obtain ⟨id, leads, here⟩ := (get?_toMap tree (root ▸ tree.nonempty) path x).mp held
  rw [root] at leads
  obtain ⟨inRange, named⟩ := (tree.pathFrom_root_iff id path).mp leads
  refine ⟨id, a.model.variableAt id, ?_, named, here⟩
  rw [Model.variableAt_eq_getElem inRange, List.getElem?_eq_getElem]

theorem readSlot_toMap (tree : a.model.IsTree) (settled : Settled a.model a) {id : Nat}
    {v : Variable} (known : a.model.vars[id]? = some v) :
    readSlot a.toMap v = a.value? id := by
  have held := settled.fillSlot_value known
  rw [readSlot, get?_toMap_root tree settled.root known]
  cases slot : a.value? id with
  | some x =>
      rw [slot] at held
      obtain ⟨y, valid, same⟩ := (fillSlot_some_ok_iff v x _).mp held
      obtain rfl := Option.some.inj same
      simp only [valid]
      rfl
  | none =>
      rw [slot] at held
      cases domain : v.domain with
      | constant c =>
          -- such a slot would have been filled
          simp [fillSlot, domain] at held
      | _ => rfl

theorem ofMap_toMap_of_settled {m : Model} (tree : m.IsTree)
    (sound : ∀ v ∈ m.vars, v.domain.Sound) (settled : Settled m a) : ofMap m a.toMap = .ok a := by
  obtain rfl := settled.model
  have admits : a.model.Admits a.toMap := by
    intro path value held
    obtain ⟨id, v, known, named, here⟩ := variable_of_toMap tree settled.root held
    have filled := settled.fillSlot_value known
    rw [here] at filled
    obtain ⟨x, valid, _⟩ := (fillSlot_some_ok_iff v value _).mp filled
    exact ⟨v, List.mem_of_getElem? known, named, x, valid⟩
  rw [ofMap_eq tree sound admits]
  have slots : a.model.vars.map (readSlot a.toMap) = a.slots := by
    refine List.ext_getElem (by simp [settled.slots.length_eq]) fun id inVars inSlots => ?_
    rw [List.length_map] at inVars
    rw [List.getElem_map, readSlot_toMap tree settled (List.getElem?_eq_getElem inVars), value?,
      List.getElem?_eq_getElem inSlots, Option.join_some]
  obtain ⟨model, scope, held⟩ := a
  obtain rfl : scope = 0 := settled.root
  exact congrArg (fun slots => Except.ok (Assignment.mk model 0 slots)) slots

end

/-! ## Back and forth -/

section
variable {m : Model} (tree : m.IsTree) {map : Table String Value} {a : Assignment}

include tree

theorem readSlot_isSome (admits : m.Admits map) {v : Variable} (member : v ∈ m.vars) :
    (readSlot map v).isSome ↔ map.contains v.path ∨ ∃ c, v.domain = .constant c := by
  rw [readSlot, Table.contains]
  cases held : map.get? v.path with
  | some value =>
      obtain ⟨x, valid⟩ := exists_canonical tree admits member held
      simp [valid, Except.toOption]
  | none => cases v.domain <;> simp

theorem get?_toMap_of_ofMap (sound : ∀ v ∈ m.vars, v.domain.Sound) (run : ofMap m map = .ok a)
    {v : Variable} (member : v ∈ m.vars) : a.toMap.get? v.path = readSlot map v := by
  have admits := (exists_ofMap_iff tree sound).mp ⟨a, run⟩
  rw [ofMap_eq tree sound admits] at run
  obtain rfl := Except.ok.inj run
  obtain ⟨id, known⟩ := List.mem_iff_getElem?.mp member
  rw [get?_toMap_root tree rfl known]
  simp [value?, known]

theorem path_of_contains (run : ofMap m map = .ok a) {path : String}
    (listed : a.toMap.contains path) : ∃ v ∈ m.vars, v.path = path := by
  obtain ⟨slots, _, made⟩ := bind_ok_iff.mp run
  obtain ⟨_, rfl, root, _⟩ := (ofSlots_ok_iff _ slots a).mp made
  obtain ⟨x, held⟩ := Option.isSome_iff_exists.mp listed
  obtain ⟨id, v, known, named, _⟩ := variable_of_toMap tree root held
  exact ⟨v, List.mem_of_getElem? known, named⟩

end

/-- Assignments of a built model and tables of full paths describe each other.  What an
assignment of the whole model is written as is read as the same assignment.  A table
can be read when each key is the path of a variable and each value is in its domain.
What is read then has the keys of the table and the paths of the constants, each with
the canonical form of the value in the table, or the constant. -/
theorem ofMap_toMap_roundTrip {serial : Nat} {d : Declaration} {m : Model}
    (built : d.build serial = .ok m) :
    (∀ slots a, ofSlots m slots = .ok a → ofMap m a.toMap = .ok a) ∧
    (∀ map, (∃ a, ofMap m map = .ok a) ↔
      ∀ path value, map.get? path = some value →
        ∃ v ∈ m.vars, v.path = path ∧ ∃ x, v.domain.validate value = .ok x) ∧
    ∀ map a, ofMap m map = .ok a →
      (∀ path, a.toMap.contains path ↔
        map.contains path ∨ ∃ v ∈ m.vars, v.path = path ∧ ∃ c, v.domain = .constant c) ∧
      ∀ v ∈ m.vars,
        (∀ value, map.get? v.path = some value →
          ∃ x, a.toMap.get? v.path = some x ∧ v.domain.CanonicalForm value x) ∧
        ∀ c, map.get? v.path = none → v.domain = .constant c →
          a.toMap.get? v.path = some c := by
  have laid := Declaration.build_laid built
  have tree := laid.isTree
  have sound := laid.domain_sound
  refine ⟨fun slots a made => ofMap_toMap_of_settled tree sound (settled_of_ofSlots sound made),
    fun map => exists_ofMap_iff tree sound, fun map a run => ?_⟩
  have admits := (exists_ofMap_iff tree sound).mp ⟨a, run⟩
  have written := fun v member => get?_toMap_of_ofMap (v := v) tree sound run member
  have keys : ∀ v ∈ m.vars, a.toMap.contains v.path ↔
      map.contains v.path ∨ ∃ c, v.domain = .constant c := by
    intro v member
    rw [Table.contains, written v member, readSlot_isSome tree admits member]
  refine ⟨fun path => ?_, fun v member => ⟨fun value held => ?_, fun c absent constant => ?_⟩⟩
  · constructor
    · intro listed
      obtain ⟨v, member, rfl⟩ := path_of_contains tree run listed
      exact ((keys v member).mp listed).imp id fun constant => ⟨v, member, rfl, constant⟩
    · rintro (listed | ⟨v, member, rfl, constant⟩)
      · obtain ⟨value, held⟩ := Option.isSome_iff_exists.mp listed
        obtain ⟨v, member, rfl, _⟩ := admits path value held
        exact (keys v member).mpr (.inl listed)
      · exact (keys v member).mpr (.inr constant)
  · obtain ⟨x, valid⟩ := exists_canonical tree admits member held
    refine ⟨x, ?_, (Domain.validate_ok_iff (sound v member) value x).mp valid⟩
    simp [written v member, readSlot, held, valid, Except.toOption]
  · simp [written v member, readSlot, absent, constant]

theorem ofMap_toMap_roundTrip_overlapping :
    let m := Examples.overlappingModel
    let tags : Value := .selection [.text "z", .text "x"]
    Examples.overlapping.build 0 = .ok m ∧
      (∃ a, ofSlots m [none, some (.bool true), some tags, none] = .ok a ∧
        a.slots = [none, some (.bool true), some (.selection [.text "x", .text "z"]),
          some (.int 1)] ∧
        ofMap m a.toMap = .ok a) ∧
      ∃ a, ofMap m (Table.empty.insert "tags" tags) = .ok a ∧
        a.toMap.contains "tags" ∧ a.toMap.get? "k" = some (.int 1) ∧ ¬ a.toMap.contains "b" := by
  intro m tags
  have built : Examples.overlapping.build 0 = .ok m := rfl
  obtain ⟨written, read, keys⟩ := ofMap_toMap_roundTrip built
  refine ⟨built, ⟨_, rfl, rfl, written [none, some (.bool true), some tags, none] _ rfl⟩, ?_⟩
  have admits : m.Admits (Table.empty.insert "tags" tags) := by
    intro path value held
    rw [Table.get?_insert] at held
    split at held
    · subst path
      obtain rfl := Option.some.inj held
      exact ⟨m.variableAt 2, by decide, rfl, _, rfl⟩
    · exact absurd held (by simp [Table.get?, Table.empty])
  obtain ⟨a, run⟩ := (read _).mpr admits
  obtain ⟨listed, settled⟩ := keys _ a run
  refine ⟨a, run, (listed "tags").mpr (.inl rfl), ?_, ?_⟩
  · exact (settled ⟨0, "k", "k", .constant (.int 1)⟩ (by decide)).2 _ rfl rfl
  · rw [listed]
    rintro (entry | ⟨v, member, named, c, constant⟩)
    · exact absurd entry (by decide)
    · have tree := (Declaration.build_laid built).isTree
      obtain rfl := tree.variable_eq_of_path member (w := m.variableAt 1) (by decide) named
      exact absurd constant (by simp [m, Examples.overlappingModel, Model.variableAt])

end Assignment

end DecisionSpace
