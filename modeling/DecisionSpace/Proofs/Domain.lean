import DecisionSpace.Domain
import DecisionSpace.Proofs.Fallible
import Mathlib.Data.List.Nodup

/-!
# Canonical values

`Sound` and `Canonical` say in words of their own what `check` and `validate`
compute: which domains a model may use, and which values are their own canonical
form.  A canonical selection is a sublist of the elements of its domain.

`mustSelect` tells the domains all of whose canonical values count as selected.
It differs from `isAlwaysSelected` for one kind of domain only, a nominal one
that lists the truth value `false`.
-/

set_option autoImplicit false

namespace DecisionSpace.Domain

open Fallible

structure SoundElements (elements : List Value) : Prop where
  nonempty : elements ≠ []
  nodup : elements.Nodup
  plain : ∀ v ∈ elements, v.isSelection = false

def Sound : Domain → Prop
  | .boolean => True
  | .constant value => value.isSelection = false
  | .nominal elements => SoundElements elements
  | .multiSelect elements min max => SoundElements elements ∧ min ≤ max ∧ max ≤ elements.length

inductive Canonical : Domain → Value → Prop where
  | boolean (b : Bool) : Canonical .boolean (.bool b)
  | constant (value : Value) : Canonical (.constant value) value
  | nominal {elements : List Value} {value : Value} (member : value ∈ elements) :
      Canonical (.nominal elements) value
  | multiSelect {elements items : List Value} {min max : Nat} (sub : items.Sublist elements)
      (atLeast : min ≤ items.length) (atMost : items.length ≤ max) :
      Canonical (.multiSelect elements min max) (.selection items)

/-- The canonical form of a value: the value itself, or the selection of the same
elements in the order of the domain. -/
structure CanonicalForm (d : Domain) (value form : Value) : Prop where
  canonical : d.Canonical form
  same : form = value ∨ ∃ items chosen,
    value = .selection items ∧ form = .selection chosen ∧ chosen.Perm items

/-! ## What the checks accept -/

theorem checkDistinct_ok_iff (met elements : List Value) :
    checkDistinct met elements = .ok () ↔
      (∀ v ∈ elements, v.isSelection = false) ∧ elements.Nodup ∧ ∀ v ∈ elements, v ∉ met := by
  induction elements generalizing met with
  | nil => simp [checkDistinct]
  | cons v rest ih =>
      simp only [checkDistinct]
      by_cases nested : v.isSelection = true
      · simp [nested]
      · by_cases known : v ∈ met
        · simp [nested, known]
        · rw [if_neg nested, if_neg known, ih]
          simp only [List.mem_cons, forall_eq_or_imp, List.nodup_cons, not_or]
          constructor
          · rintro ⟨plain, nodup, fresh⟩
            refine ⟨⟨by simpa using nested, plain⟩, ⟨fun again => (fresh v again).1 rfl, nodup⟩,
              known, fun w member => (fresh w member).2⟩
          · rintro ⟨⟨_, plain⟩, ⟨new, nodup⟩, _, fresh⟩
            refine ⟨plain, nodup, fun w member => ⟨fun same => new (same ▸ member), fresh w member⟩⟩

theorem checkElementList_ok_iff (elements : List Value) :
    checkElementList elements = .ok () ↔ SoundElements elements := by
  unfold checkElementList
  cases elements with
  | nil =>
      constructor
      · intro failure
        simp at failure
      · intro sound
        exact absurd rfl sound.nonempty
  | cons v rest =>
      rw [if_neg (by simp), checkDistinct_ok_iff]
      constructor
      · rintro ⟨plain, nodup, _⟩
        exact ⟨by simp, nodup, plain⟩
      · intro sound
        exact ⟨sound.plain, sound.nodup, by simp⟩

theorem check_ok_iff (d : Domain) : d.check = .ok () ↔ d.Sound := by
  cases d with
  | boolean => simp [check, Sound]
  | constant value => simp [check, Sound]
  | nominal elements => exact checkElementList_ok_iff elements
  | multiSelect elements min max =>
      simp only [check, Sound, check_bind_ok_iff, checkElementList_ok_iff]
      constructor
      · rintro ⟨sound, bounds⟩
        split at bounds
        · exact absurd bounds (by simp)
        · exact ⟨sound, by omega, by omega⟩
      · rintro ⟨sound, ordered, fits⟩
        exact ⟨sound, if_neg (by omega)⟩

/-! ## What validation accepts -/

theorem checkElements_ok_iff (elements met items : List Value) :
    checkElements elements met items = .ok () ↔
      (∀ v ∈ items, v ∈ elements) ∧ items.Nodup ∧ ∀ v ∈ items, v ∉ met := by
  induction items generalizing met with
  | nil => simp [checkElements]
  | cons v rest ih =>
      simp only [checkElements]
      by_cases outside : v ∈ elements
      · by_cases known : v ∈ met
        · simp [outside, known]
        · rw [if_neg (not_not.mpr outside), if_neg known, ih]
          simp only [List.mem_cons, forall_eq_or_imp, List.nodup_cons, not_or]
          constructor
          · rintro ⟨inside, nodup, fresh⟩
            exact ⟨⟨outside, inside⟩, ⟨fun again => (fresh v again).1 rfl, nodup⟩,
              known, fun w member => (fresh w member).2⟩
          · rintro ⟨⟨_, inside⟩, ⟨new, nodup⟩, _, fresh⟩
            exact ⟨inside, nodup, fun w member => ⟨fun same => new (same ▸ member), fresh w member⟩⟩
      · simp [outside]

theorem filter_mem_eq_of_sublist {items elements : List Value} (sub : items.Sublist elements)
    (nodup : elements.Nodup) : elements.filter (· ∈ items) = items := by
  induction sub with
  | slnil => rfl
  | @cons items elements v sub ih =>
      obtain ⟨new, rest⟩ := List.nodup_cons.mp nodup
      have absent : v ∉ items := fun member => new (sub.subset member)
      rw [List.filter_cons_of_neg (by simpa using absent), ih rest]
  | @cons_cons items elements v sub ih =>
      obtain ⟨new, rest⟩ := List.nodup_cons.mp nodup
      have unchanged : elements.filter (· ∈ v :: items) = elements.filter (· ∈ items) := by
        apply List.filter_congr
        intro w member
        have different : w ≠ v := fun same => new (same ▸ member)
        simp [different]
      rw [List.filter_cons_of_pos (by simp), unchanged, ih rest]

theorem validate_multiSelect_ok_iff (elements items : List Value) (min max : Nat) (value : Value) :
    (Domain.multiSelect elements min max).validate (.selection items) = .ok value ↔
      (∀ v ∈ items, v ∈ elements) ∧ items.Nodup ∧ min ≤ items.length ∧ items.length ≤ max ∧
        value = .selection (elements.filter (· ∈ items)) := by
  simp only [validate, check_bind_ok_iff, checkElements_ok_iff]
  constructor
  · rintro ⟨⟨inside, nodup, _⟩, bounds⟩
    split at bounds
    · exact absurd bounds (by simp)
    · exact ⟨inside, nodup, by omega, by omega, (Except.ok.inj bounds).symm⟩
  · rintro ⟨inside, nodup, atLeast, atMost, rfl⟩
    exact ⟨⟨inside, nodup, by simp⟩, if_neg (by omega)⟩

theorem filter_mem_perm {elements items : List Value} (distinct : elements.Nodup)
    (nodup : items.Nodup) (inside : ∀ v ∈ items, v ∈ elements) :
    (elements.filter (· ∈ items)).Perm items := by
  apply (List.perm_ext_iff_of_nodup (distinct.filter _) nodup).mpr
  intro v
  simp only [List.mem_filter, decide_eq_true_eq]
  exact ⟨fun both => both.2, fun member => ⟨inside v member, member⟩⟩

theorem canonicalForm_of_validate {d : Domain} (sound : d.Sound) {value result : Value}
    (run : d.validate value = .ok result) : d.CanonicalForm value result := by
  cases d with
  | boolean =>
      cases value with
      | bool b =>
          obtain rfl := Except.ok.inj run
          exact ⟨.boolean b, .inl rfl⟩
      | int i => simp [validate] at run
      | text s => simp [validate] at run
      | selection items => simp [validate] at run
  | constant c =>
      simp only [validate] at run
      split at run
      · rename_i same
        obtain rfl := Except.ok.inj run
        exact ⟨same ▸ .constant c, .inl rfl⟩
      · exact absurd run (by simp)
  | nominal elements =>
      simp only [validate] at run
      split at run
      · rename_i member
        obtain rfl := Except.ok.inj run
        exact ⟨.nominal member, .inl rfl⟩
      · exact absurd run (by simp)
  | multiSelect elements min max =>
      cases value with
      | bool b => simp [validate] at run
      | int i => simp [validate] at run
      | text s => simp [validate] at run
      | selection items =>
          obtain ⟨inside, nodup, atLeast, atMost, rfl⟩ :=
            (validate_multiSelect_ok_iff elements items min max result).mp run
          have reordered := filter_mem_perm sound.1.nodup nodup inside
          have size := reordered.length_eq
          refine ⟨.multiSelect List.filter_sublist (by omega) (by omega), .inr ?_⟩
          exact ⟨items, _, rfl, rfl, reordered⟩

theorem canonical_of_validate {d : Domain} (sound : d.Sound) {value result : Value}
    (run : d.validate value = .ok result) : d.Canonical result :=
  (canonicalForm_of_validate sound run).canonical

theorem validate_self_iff {d : Domain} (sound : d.Sound) (value : Value) :
    d.validate value = .ok value ↔ d.Canonical value := by
  constructor
  · exact canonical_of_validate sound
  · intro canonical
    cases canonical with
    | boolean b => rfl
    | constant value => exact if_pos rfl
    | nominal member => exact if_pos member
    | @multiSelect elements items min max sub atLeast atMost =>
        have nodup : elements.Nodup := sound.1.nodup
        refine (validate_multiSelect_ok_iff elements items min max _).mpr
          ⟨fun v member => sub.subset member, nodup.sublist sub, atLeast, atMost, ?_⟩
        rw [filter_mem_eq_of_sublist sub nodup]

theorem canonical_selection {d : Domain} (sound : d.Sound) {chosen : List Value}
    (canonical : d.Canonical (.selection chosen)) :
    ∃ elements min max, d = .multiSelect elements min max ∧ chosen.Sublist elements ∧
      min ≤ chosen.length ∧ chosen.length ≤ max := by
  cases canonical with
  | constant value => exact absurd sound (by simp [Sound, Value.isSelection])
  | nominal member => exact absurd (sound.plain _ member) (by simp [Value.isSelection])
  | multiSelect sub atLeast atMost => exact ⟨_, _, _, rfl, sub, atLeast, atMost⟩

theorem validate_ok_iff {d : Domain} (sound : d.Sound) (value form : Value) :
    d.validate value = .ok form ↔ d.CanonicalForm value form := by
  constructor
  · exact canonicalForm_of_validate sound
  · rintro ⟨canonical, rfl | ⟨items, chosen, rfl, rfl, reordered⟩⟩
    · exact (validate_self_iff sound form).mpr canonical
    · obtain ⟨elements, min, max, rfl, sub, atLeast, atMost⟩ := canonical_selection sound canonical
      have nodup : elements.Nodup := sound.1.nodup
      have kept : elements.filter (· ∈ items) = chosen := by
        rw [← filter_mem_eq_of_sublist sub nodup]
        exact List.filter_congr fun v _ => by simp [reordered.mem_iff]
      refine (validate_multiSelect_ok_iff elements items min max _).mpr
        ⟨fun v member => sub.subset (reordered.mem_iff.mpr member),
          reordered.nodup_iff.mp (nodup.sublist sub), ?_, ?_, by rw [kept]⟩
      · rwa [← reordered.length_eq]
      · rwa [← reordered.length_eq]

/-! ## Which canonical values are selected -/

/-- Whether every canonical value of the domain counts as selected. -/
def mustSelect : Domain → Bool
  | .boolean => false
  | .constant _ => true
  | .nominal elements => .bool false ∉ elements
  | .multiSelect _ min _ => 0 < min

def listsFalse : Domain → Bool
  | .nominal elements => .bool false ∈ elements
  | _ => false

theorem mustSelect_eq (d : Domain) : d.mustSelect = (d.isAlwaysSelected && !d.listsFalse) := by
  cases d <;> simp [mustSelect, isAlwaysSelected, listsFalse]

theorem unselected?_isSome (d : Domain) : d.unselected?.isSome = !d.isAlwaysSelected := by
  cases d with
  | boolean => rfl
  | constant value => rfl
  | nominal elements => rfl
  | multiSelect elements min max => cases min <;> simp [unselected?, isAlwaysSelected]

theorem unselected?_eq_some_iff (d : Domain) (value : Value) :
    d.unselected? = some value ↔
      d = .boolean ∧ value = .bool false ∨
        ∃ elements max, d = .multiSelect elements 0 max ∧ value = .selection [] := by
  cases d with
  | boolean => simp [unselected?, eq_comm]
  | constant c => simp [unselected?]
  | nominal elements => simp [unselected?]
  | multiSelect elements min max => cases min <;> simp [unselected?, eq_comm]

theorem canonical_of_unselected? {d : Domain} {value : Value} (off : d.unselected? = some value) :
    d.Canonical value ∧ d.selects value = false := by
  cases d with
  | boolean =>
      obtain rfl := Option.some.inj off
      exact ⟨.boolean false, rfl⟩
  | constant c => simp [unselected?] at off
  | nominal elements => simp [unselected?] at off
  | multiSelect elements min max =>
      cases min with
      | zero =>
          obtain rfl := Option.some.inj off
          exact ⟨.multiSelect (List.nil_sublist _) (Nat.zero_le _) (Nat.zero_le _), rfl⟩
      | succ min => simp [unselected?] at off

/-- A canonical value that counts as selected only if all of them do. -/
def least : Domain → Value
  | .boolean => .bool false
  | .constant value => value
  | .nominal elements => if .bool false ∈ elements then .bool false else elements.headD default
  | .multiSelect elements min _ => .selection (elements.take min)

theorem canonical_least {d : Domain} (sound : d.Sound) : d.Canonical d.least := by
  cases d with
  | boolean => exact .boolean false
  | constant value => exact .constant value
  | nominal elements =>
      apply Canonical.nominal
      by_cases listed : .bool false ∈ elements
      · rw [least, if_pos listed]
        exact listed
      · obtain ⟨v, rest, rfl⟩ := List.exists_cons_of_ne_nil sound.nonempty
        rw [least, if_neg listed]
        exact List.mem_cons_self
  | multiSelect elements min max =>
      obtain ⟨_, ordered, fits⟩ := sound
      have size : (elements.take min).length = min := by
        rw [List.length_take]
        omega
      apply Canonical.multiSelect (List.take_sublist _ _)
      · omega
      · omega

theorem isSelected_of_plain {value : Value} (plain : value.isSelection = false)
    (notFalse : value ≠ .bool false) : value.isSelected = true := by
  cases value with
  | bool b => simpa [Value.isSelected] using notFalse
  | int i => rfl
  | text s => rfl
  | selection items => simp [Value.isSelection] at plain

theorem selects_of_mustSelect {d : Domain} (sound : d.Sound) (must : d.mustSelect = true)
    {value : Value} (canonical : d.Canonical value) : d.selects value = true := by
  cases canonical with
  | boolean b => simp [mustSelect] at must
  | constant value => rfl
  | nominal member =>
      have absent := of_decide_eq_true must
      exact isSelected_of_plain (sound.plain value member) fun same => absent (same ▸ member)
  | @multiSelect elements items min max _ atLeast _ =>
      have positive : 0 < min := of_decide_eq_true must
      have filled : items ≠ [] := by
        rintro rfl
        simp at atLeast
        omega
      simpa [selects, Value.isSelected] using filled

theorem selects_least {d : Domain} (sound : d.Sound) : d.selects d.least = d.mustSelect := by
  cases must : d.mustSelect with
  | true => exact selects_of_mustSelect sound must (canonical_least sound)
  | false =>
      cases d with
      | boolean => rfl
      | constant value => simp [mustSelect] at must
      | nominal elements =>
          have listed : .bool false ∈ elements := by
            simpa [mustSelect] using must
          simp only [least, if_pos listed]
          rfl
      | multiSelect elements min max =>
          have zero : min = 0 := by
            simpa [mustSelect] using must
          rw [zero]
          rfl

end DecisionSpace.Domain
