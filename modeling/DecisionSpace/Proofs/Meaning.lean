import DecisionSpace.Examples
import DecisionSpace.Proofs.Decoding

/-!
# What values stand for

A selection stands for the set of its elements, any other value for itself.  Validation accepts
the values that stand for something in the domain, and answers with the one canonical value
that stands for the same.  So values, and slots with them, become equal when they are validated
exactly if they stood for the same before.
-/

set_option autoImplicit false

namespace DecisionSpace

open Fallible

namespace Value

inductive Same : Value → Value → Prop where
  | refl (value : Value) : Same value value
  | selection {items others : List Value} (members : ∀ x, x ∈ items ↔ x ∈ others) :
      Same (.selection items) (.selection others)

namespace Same

variable {u v w : Value}

theorem symm (same : v.Same w) : w.Same v := by
  cases same with
  | refl => exact .refl v
  | selection members => exact .selection fun x => (members x).symm

theorem trans (first : u.Same v) (second : v.Same w) : u.Same w := by
  cases first with
  | refl => exact second
  | selection members =>
      cases second with
      | refl => exact .selection members
      | selection others => exact .selection fun x => (members x).trans (others x)

theorem isSelected_eq (same : v.Same w) : v.isSelected = w.isSelected := by
  cases same with
  | refl => rfl
  | @selection items others members =>
      have empty : items = [] ↔ others = [] := by
        simp only [List.eq_nil_iff_forall_not_mem, members]
      rw [Bool.eq_iff_iff]
      simp [isSelected, empty]

end Same

end Value

namespace Domain

/-- The values that stand for an element of the domain, or for a set of its elements that is
neither too small nor too large. -/
inductive Accepts : Domain → Value → Prop where
  | boolean (b : Bool) : Accepts .boolean (.bool b)
  | constant (value : Value) : Accepts (.constant value) value
  | nominal {elements : List Value} {value : Value} (member : value ∈ elements) :
      Accepts (.nominal elements) value
  | multiSelect {elements items : List Value} {min max : Nat} (inside : ∀ x ∈ items, x ∈ elements)
      (nodup : items.Nodup) (atLeast : min ≤ items.length) (atMost : items.length ≤ max) :
      Accepts (.multiSelect elements min max) (.selection items)

section
variable {d : Domain} (sound : d.Sound)

include sound

theorem accepts_of_canonicalForm {value form : Value} (becomes : d.CanonicalForm value form) :
    d.Accepts value := by
  obtain ⟨canonical, rfl | ⟨items, chosen, rfl, rfl, reordered⟩⟩ := becomes
  · cases canonical with
    | boolean b => exact .boolean b
    | constant => exact .constant _
    | nominal member => exact .nominal member
    | multiSelect sub atLeast atMost =>
        exact .multiSelect (fun x member => sub.subset member) (sound.1.nodup.sublist sub) atLeast
          atMost
  · -- the selection itself may be in another order than that of the domain
    obtain ⟨elements, min, max, rfl, sub, atLeast, atMost⟩ := canonical_selection sound canonical
    rw [reordered.length_eq] at atLeast atMost
    exact .multiSelect (fun x member => sub.subset (reordered.mem_iff.mpr member))
      (reordered.nodup_iff.mp (sound.1.nodup.sublist sub)) atLeast atMost

theorem exists_validate_iff (value : Value) :
    (∃ form, d.validate value = .ok form) ↔ d.Accepts value := by
  constructor
  · rintro ⟨form, run⟩
    exact accepts_of_canonicalForm sound (canonicalForm_of_validate sound run)
  · intro accepted
    cases accepted with
    | boolean b => exact ⟨.bool b, rfl⟩
    | constant value => exact ⟨value, if_pos rfl⟩
    | nominal member => exact ⟨value, if_pos member⟩
    | multiSelect inside nodup atLeast atMost =>
        exact ⟨_, (validate_multiSelect_ok_iff _ _ _ _ _).mpr
          ⟨inside, nodup, atLeast, atMost, rfl⟩⟩

/-! ## One canonical value for each meaning -/

omit sound in
theorem CanonicalForm.same_value {value form : Value} (becomes : d.CanonicalForm value form) :
    form.Same value := by
  rcases becomes.same with rfl | ⟨items, chosen, rfl, rfl, reordered⟩
  · exact .refl form
  · exact .selection fun x => reordered.mem_iff

theorem Canonical.eq_of_same {x y : Value} (canonical : d.Canonical x) (other : d.Canonical y)
    (same : x.Same y) : x = y := by
  cases same with
  | refl => rfl
  | @selection items others members =>
      obtain ⟨elements, min, max, rfl, sub, _⟩ := canonical_selection sound canonical
      obtain ⟨_, _, _, again, otherSub, _⟩ := canonical_selection sound other
      obtain ⟨rfl, rfl, rfl⟩ := Domain.multiSelect.inj again
      have nodup : elements.Nodup := sound.1.nodup
      rw [← filter_mem_eq_of_sublist sub nodup, ← filter_mem_eq_of_sublist otherSub nodup]
      simp only [members]

theorem same_of_validate {value form : Value} (run : d.validate value = .ok form) :
    form.Same value :=
  (canonicalForm_of_validate sound run).same_value

theorem validate_eq_iff_same {value other form otherForm : Value}
    (run : d.validate value = .ok form) (otherRun : d.validate other = .ok otherForm) :
    form = otherForm ↔ value.Same other := by
  have same := same_of_validate sound run
  have otherSame := same_of_validate sound otherRun
  constructor
  · rintro rfl
    exact same.symm.trans otherSame
  · intro agree
    exact (canonical_of_validate sound run).eq_of_same sound (canonical_of_validate sound otherRun)
      ((same.trans agree).trans otherSame.symm)

end

theorem sublist_of_validate {elements items : List Value} {min max : Nat} {form : Value}
    (run : (multiSelect elements min max).validate (.selection items) = .ok form) :
    ∃ chosen, form = .selection chosen ∧ chosen.Sublist elements ∧
      ∀ x, x ∈ chosen ↔ x ∈ items := by
  obtain ⟨inside, _, _, _, rfl⟩ := (validate_multiSelect_ok_iff elements items min max form).mp run
  refine ⟨_, rfl, List.filter_sublist, fun x => ?_⟩
  simpa using inside x

/-! ## Slots -/

/-- What a slot stands for: the slot of a constant may be left empty. -/
def filled : Domain → Option Value → Option Value
  | .constant c, none => some c
  | _, slot => slot

def SameSlot (d : Domain) (slot other : Option Value) : Prop :=
  Option.Rel Value.Same (d.filled slot) (d.filled other)

end Domain

namespace Assignment

theorem rel_of_fillSlot {v : Variable} {slot out : Option Value}
    (run : fillSlot v slot = .ok out) :
    Option.Rel (fun value form => v.domain.validate value = .ok form) (v.domain.filled slot)
      out := by
  cases slot with
  | some x =>
      obtain ⟨form, valid, rfl⟩ := (fillSlot_some_ok_iff v x out).mp run
      have stands : v.domain.filled (some x) = some x := by cases v.domain <;> rfl
      rw [stands]
      exact .some valid
  | none =>
      cases domain : v.domain with
      | constant c =>
          simp only [fillSlot, domain] at run
          obtain rfl := Except.ok.inj run
          exact .some (if_pos rfl)
      | _ =>
          simp only [fillSlot, domain] at run
          obtain rfl := Except.ok.inj run
          exact .none

theorem fillSlot_eq_iff {v : Variable} (sound : v.domain.Sound)
    {slot other out otherOut : Option Value} (run : fillSlot v slot = .ok out)
    (otherRun : fillSlot v other = .ok otherOut) :
    out = otherOut ↔ v.domain.SameSlot slot other := by
  have becomes := rel_of_fillSlot run
  have otherBecomes := rel_of_fillSlot otherRun
  rw [Domain.SameSlot]
  generalize v.domain.filled slot = stands at becomes ⊢
  generalize v.domain.filled other = otherStands at otherBecomes ⊢
  cases becomes with
  | none =>
      cases otherBecomes with
      | none => simp
      | some valid => simp
  | some valid =>
      cases otherBecomes with
      | none => simp
      | some otherValid => simp [Domain.validate_eq_iff_same sound valid otherValid]

/-! ## Assignments -/

section
variable {m : Model} {slots others : List (Option Value)} {a b : Assignment}

theorem fillSlot_of_ofSlots (made : ofSlots m slots = .ok a) {id : Nat} {v : Variable}
    (known : m.vars[id]? = some v) : fillSlot v slots[id]?.join = .ok (a.value? id) := by
  obtain ⟨size, _, _, related⟩ := (ofSlots_ok_iff m slots a).mp made
  obtain ⟨inVars, rfl⟩ := List.getElem?_eq_some_iff.mp known
  have inZip : id < (m.vars.zip slots).length := by simpa [size] using inVars
  have inSlots : id < a.slots.length := related.length_eq ▸ inZip
  have step := List.Forall₂.get related inZip inSlots
  simp only [List.get_eq_getElem, List.getElem_zip] at step
  rw [value?, List.getElem?_eq_getElem inSlots, List.getElem?_eq_getElem (size ▸ inVars)]
  exact step

theorem slots_eq_iff (size : a.slots.length = m.vars.length)
    (otherSize : b.slots.length = m.vars.length) :
    a.slots = b.slots ↔ ∀ id v, m.vars[id]? = some v → a.value? id = b.value? id := by
  constructor
  · intro same id v _
    rw [value?, value?, same]
  · intro agree
    refine List.ext_getElem (size.trans otherSize.symm) fun id inSlots inOthers => ?_
    have known := List.getElem?_eq_getElem (size ▸ inSlots : id < m.vars.length)
    simpa [value?, inSlots, inOthers] using agree id _ known

theorem alike_iff_sameSlot (sound : ∀ v ∈ m.vars, v.domain.Sound) (made : ofSlots m slots = .ok a)
    (otherMade : ofSlots m others = .ok b) :
    a.alike b ↔ ∀ (id : Nat) (v : Variable), m.vars[id]? = some v →
      v.domain.SameSlot slots[id]?.join others[id]?.join := by
  have settled := settled_of_ofSlots sound made
  have otherSettled := settled_of_ofSlots sound otherMade
  have sizes := slots_eq_iff settled.slots.length_eq.symm otherSettled.slots.length_eq.symm
  rw [alike_iff, settled.root, otherSettled.root, sizes]
  simp only [true_and]
  refine forall₃_congr fun id v known => ?_
  exact fillSlot_eq_iff (sound v (List.mem_of_getElem? known)) (fillSlot_of_ofSlots made known)
    (fillSlot_of_ofSlots otherMade known)

end

inductive MadeFor (m : Model) : Assignment → Prop where
  | ofSlots {slots : List (Option Value)} {a : Assignment} (made : ofSlots m slots = .ok a) :
      MadeFor m a
  | ofMap {map : Table String Value} {a : Assignment} (made : ofMap m map = .ok a) : MadeFor m a
  | sub {a b : Assignment} {name : String} (whole : MadeFor m a) (made : a.sub name = .ok b) :
      MadeFor m b

theorem MadeFor.ofSlots_slots {m : Model} (sound : ∀ v ∈ m.vars, v.domain.Sound) {a : Assignment}
    (made : MadeFor m a) : Assignment.ofSlots m a.slots = .ok { a with scope := 0 } := by
  have again : ∀ {slots a}, Assignment.ofSlots m slots = .ok a →
      Assignment.ofSlots m a.slots = .ok { a with scope := 0 } := by
    intro slots a made
    have settled := settled_of_ofSlots sound made
    rw [ofSlots_of_settled settled, ← settled.root]
  induction made with
  | ofSlots made => exact again made
  | ofMap made =>
      obtain ⟨slots, _, made⟩ := bind_ok_iff.mp made
      exact again made
  | sub whole made ih =>
      -- a view has the slots and the model of the whole
      obtain ⟨scope, _, rfl⟩ := map_ok_iff.mp made
      exact ih

end Assignment

/-- Validation in a built model picks one value for each meaning.  It accepts what stands for a
value of the domain; of a selection it keeps the elements, in the order of the domain; it does
not change its own answers, nor whether a value counts as selected; and it answers two values
alike when they stand for the same.  So the slots of an assignment make it again, and two
vectors of slots that are accepted make equal assignments when their slots stand for the same. -/
theorem validate_represents {serial : Nat} {d : Declaration} {m : Model}
    (built : d.build serial = .ok m) :
    (∀ v ∈ m.vars,
      (∀ value, (∃ form, v.validate value = .ok form) ↔ v.domain.Accepts value) ∧
      (∀ elements min max items form, v.domain = .multiSelect elements min max →
        v.validate (.selection items) = .ok form →
          ∃ chosen, form = .selection chosen ∧ chosen.Sublist elements ∧
            ∀ x, x ∈ chosen ↔ x ∈ items) ∧
      (∀ value form, v.validate value = .ok form →
        v.validate form = .ok form ∧ form.isSelected = value.isSelected) ∧
      ∀ value other form otherForm, v.validate value = .ok form →
        v.validate other = .ok otherForm → (form = otherForm ↔ value.Same other)) ∧
    (∀ a, Assignment.MadeFor m a → a.scope = 0 → Assignment.ofSlots m a.slots = .ok a) ∧
    ∀ slots others a b, Assignment.ofSlots m slots = .ok a → Assignment.ofSlots m others = .ok b →
      (a.alike b ↔ ∀ (id : Nat) (v : Variable), m.vars[id]? = some v →
        v.domain.SameSlot slots[id]?.join others[id]?.join) := by
  have sound := (Declaration.build_laid built).domain_sound
  refine ⟨fun v member => ?_, fun a made root => ?_, fun slots others a b => ?_⟩
  · simp only [Variable.validate, mapError_ok_iff]
    refine ⟨Domain.exists_validate_iff (sound v member), fun elements min max items form multi run => ?_,
      fun value form run => ⟨?_, ?_⟩, fun value other form otherForm => ?_⟩
    · exact Domain.sublist_of_validate (multi ▸ run)
    · exact (Domain.validate_self_iff (sound v member) form).mpr
        (Domain.canonical_of_validate (sound v member) run)
    · exact (Domain.same_of_validate (sound v member) run).isSelected_eq
    · exact Domain.validate_eq_iff_same (sound v member)
  · have again := made.ofSlots_slots sound
    rwa [← root] at again
  · exact Assignment.alike_iff_sameSlot sound

theorem validate_represents_overlapping :
    let m := Examples.overlappingModel
    let tags := m.variableAt 2
    let down : Value := .selection [.text "z", .text "x"]
    let up : Value := .selection [.text "x", .text "z"]
    Examples.overlapping.build 0 = .ok m ∧
      (∃ form, tags.validate down = .ok form) ∧
      (¬ ∃ form, tags.validate (.selection [.selection [.text "x"]]) = .ok form) ∧
      (¬ ∃ form, tags.validate (.selection []) = .ok form) ∧
      (∀ form otherForm, tags.validate down = .ok form → tags.validate up = .ok otherForm →
        form = otherForm ∧ tags.validate form = .ok form ∧ form.isSelected = down.isSelected) ∧
      ∃ a b, Assignment.ofSlots m [none, some (.bool true), some down, none] = .ok a ∧
        Assignment.ofSlots m [none, some (.bool true), some up, some (.int 1)] = .ok b ∧
        Assignment.ofSlots m a.slots = .ok a ∧ a.alike b := by
  intro m tags down up
  have built : Examples.overlapping.build 0 = .ok m := rfl
  obtain ⟨values, again, equal⟩ := validate_represents built
  have member : tags ∈ m.vars := by decide
  obtain ⟨accepted, _, kept, same⟩ := values tags member
  have agree : down.Same up := .selection fun x => by simp [or_comm]
  let slots := [none, some (.bool true), some down, none]
  let others := [none, some (.bool true), some up, some (.int 1)]
  refine ⟨built, (accepted down).mpr ?_, ?_, ?_, fun form otherForm run otherRun => ?_,
    _, _, rfl, rfl, again _ (.ofSlots (show Assignment.ofSlots m slots = .ok _ from rfl)) rfl,
    (equal slots others _ _ rfl rfl).mpr fun id v known => ?_⟩
  · exact .multiSelect (by decide) (by decide) (by decide) (by decide)
  · rw [accepted]
    intro listed
    cases listed with
    | multiSelect inside => exact absurd (inside _ List.mem_cons_self) (by decide)
  · rw [accepted]
    intro listed
    cases listed with
    | multiSelect _ _ atLeast => exact absurd atLeast (by decide)
  · exact ⟨(same down up form otherForm run otherRun).mpr agree, kept down form run⟩
  · obtain rfl := Model.variableAt_of_getElem? known
    have inRange : id < 4 := (List.getElem?_eq_some_iff.mp known).1
    obtain rfl | rfl | rfl | rfl : id = 0 ∨ id = 1 ∨ id = 2 ∨ id = 3 := by omega
    · exact .none
    · exact .some (.refl _)
    · exact .some agree
    · exact .some (.refl _)

end DecisionSpace
