import DecisionSpace.Proofs.Meaning
import DecisionSpace.Proofs.Resolution

/-!
# Joining facts

A fact is given by a scope, a reference seen from there, and a value.  However given facts are
joined into a context, in one piece or step by step, the context has an entry for each variable
that they name, with the canonical form of the value given last.  So it is valid for the model
that the facts are made by, and an assignment of this model satisfies it when it holds what the
last values stand for.
-/

set_option autoImplicit false

namespace DecisionSpace

open Fallible

structure Given where
  scope : Nat
  reference : String
  value : Value
  deriving DecidableEq

namespace Given

def fact (m : Model) (g : Given) : Except Failure Fact := m.factIn g.scope g.reference g.value

def names (m : Model) (id : Nat) (g : Given) : Bool :=
  (m.resolveIn g.scope g.reference).toOption = some id

def last? (m : Model) (given : List Given) (id : Nat) : Option Given :=
  given.reverse.find? (names m id)

end Given

/-- The ways to join facts into a context, with the facts that they join. -/
inductive Joining where
  | empty
  | ofPairs (pairs : List (String × Value))
  | ofFact (g : Given)
  | ofFacts (facts : List Given)
  | insert (base : Joining) (g : Given)
  | extend (base : Joining) (facts : List Given)

namespace Joining

def given : Joining → List Given
  | .empty => []
  | .ofPairs pairs => pairs.map fun p => ⟨0, p.1, p.2⟩
  | .ofFact g => [g]
  | .ofFacts facts => facts
  | .insert base g => base.given ++ [g]
  | .extend base facts => base.given ++ facts

def run (m : Model) : Joining → Except Failure Context
  | .empty => .ok .empty
  | .ofPairs pairs => Context.ofPairs m pairs
  | .ofFact g => (g.fact m).map Context.ofFact
  | .ofFacts facts => (facts.mapM (Given.fact m)).map Context.ofFacts
  | .insert base g => do
      let c ← base.run m
      let f ← g.fact m
      .ok (c.insert f)
  | .extend base facts => do
      let c ← base.run m
      let fs ← facts.mapM (Given.fact m)
      .ok (c.extend fs)

end Joining

/-! ## All ways are one -/

namespace Joining

theorem ofFacts_append (m : Model) (given facts : List Given) :
    ((given ++ facts).mapM (Given.fact m)).map Context.ofFacts = (do
      let c ← (given.mapM (Given.fact m)).map Context.ofFacts
      let fs ← facts.mapM (Given.fact m)
      .ok (c.extend fs)) := by
  rw [List.mapM_append]
  cases given.mapM (Given.fact m) with
  | error e => rfl
  | ok gs =>
      cases facts.mapM (Given.fact m) with
      | error e => rfl
      | ok fs => exact congrArg Except.ok List.foldl_append

theorem run_eq (m : Model) (j : Joining) :
    j.run m = (j.given.mapM (Given.fact m)).map Context.ofFacts := by
  induction j with
  | empty => rfl
  | ofPairs pairs =>
      rw [run, given, Context.ofPairs, List.mapM_map]
      rfl
  | ofFact g =>
      rw [run, given, List.mapM_cons, List.mapM_nil]
      cases g.fact m with
      | error e => rfl
      | ok f => rfl
  | ofFacts facts => rfl
  | insert base g ih =>
      rw [run, given, ofFacts_append, ih, List.mapM_cons, List.mapM_nil]
      cases (base.given.mapM (Given.fact m)).map Context.ofFacts with
      | error e => rfl
      | ok c =>
          cases g.fact m with
          | error e => rfl
          | ok f => rfl
  | extend base facts ih => rw [run, given, ofFacts_append, ih]

end Joining

/-! ## The last fact counts -/

theorem Context.get?_extend (c : Context) (facts : List Fact) (id : Nat) :
    (c.extend facts).get? id =
      ((facts.reverse.find? (·.id = id)).map (·.value)).or (c.get? id) := by
  induction facts generalizing c with
  | nil => rfl
  | cons f rest ih =>
      change ((c.insert f).extend rest).get? id = _
      rw [ih, get?_insert, List.reverse_cons, List.find?_append]
      cases rest.reverse.find? (·.id = id) with
      | some g => rfl
      | none =>
          by_cases same : id = f.id
          · simp [same]
          · simp [same, Ne.symm same]

theorem rel_find? {α β : Type} {R : α → β → Prop} {p : α → Bool} {q : β → Bool} {xs : List α}
    {ys : List β} (related : List.Forall₂ R xs ys) (same : ∀ x y, R x y → p x = q y) :
    Option.Rel R (xs.find? p) (ys.find? q) := by
  induction related with
  | nil => exact .none
  | @cons x y xs ys head tail ih =>
      rw [List.find?_cons, List.find?_cons, same x y head]
      cases q y with
      | true => exact .some head
      | false => exact ih

section
variable {m : Model} (tree : m.IsTree)

include tree

theorem Model.IsTree.resolveIn_lt {scope : Nat} {reference : String} {v : Nat}
    (found : m.resolveIn scope reference = .ok v) : v < m.vars.length := by
  by_cases inRange : scope < m.scopes.length
  · exact (tree.declaredIn_of_resolveIn inRange found).1
  · by_cases separated : Path.hasSeparator reference = true
    · rw [resolveIn_of_separator separated] at found
      split at found
      · rename_i first search
        obtain rfl := Except.ok.inj found
        exact (List.findIdx?_eq_some_iff_getElem.mp search).1
      · exact absurd found (by simp)
    · -- a scope that does not exist has no variables
      have only := (resolveIn_name_ok_iff (by simpa using separated) v).mp found
      have unknown : m.scopeAt scope = default := by simp [scopeAt, Nat.not_lt.mp inRange]
      have empty : (default : Scope).subtree = [] := rfl
      rw [candidates, unknown, empty] at only
      exact absurd only (by simp)

theorem Given.fact_ok_iff (g : Given) (f : Fact) :
    g.fact m = .ok f ↔
      g.names m f.id = true ∧
        ∃ v, m.vars[f.id]? = some v ∧ v.domain.validate g.value = .ok f.value := by
  simp only [fact, names, Model.factIn, bind_ok_iff, mapError_ok_iff, Variable.validate,
    decide_eq_true_eq, toOption_eq_some_iff]
  constructor
  · rintro ⟨id, found, x, valid, made⟩
    obtain rfl := Except.ok.inj made
    have inRange := tree.resolveIn_lt found
    exact ⟨found, m.variableAt id, by simp [Model.variableAt, inRange], valid⟩
  · rintro ⟨found, v, known, valid⟩
    obtain rfl := Model.variableAt_of_getElem? known
    exact ⟨f.id, found, f.value, valid, rfl⟩

section
variable {given : List Given} {facts : List Fact}
  (made : List.Forall₂ (fun g f => g.fact m = .ok f) given facts)

include made

theorem rel_last? (id : Nat) :
    Option.Rel (fun g f => g.fact m = .ok f) (Given.last? m given id)
      (facts.reverse.find? (·.id = id)) := by
  refine rel_find? (List.forall₂_reverse_iff.mpr made) fun g f run => ?_
  have about := ((g.fact_ok_iff tree f).mp run).1
  rw [Given.names, decide_eq_true_eq] at about
  simp [Given.names, about]

theorem rel_get?_ofFacts (id : Nat) :
    Option.Rel (fun g x => ∃ v, m.vars[id]? = some v ∧ v.domain.validate g.value = .ok x)
      (Given.last? m given id) ((Context.ofFacts facts).get? id) := by
  have related := rel_last? tree made id
  have unset : Context.empty.get? id = none := rfl
  rw [Context.ofFacts, Context.get?_extend, unset, Option.or_none]
  generalize Given.last? m given id = last at related ⊢
  cases search : facts.reverse.find? (·.id = id) with
  | none =>
      rw [search] at related
      cases related
      exact .none
  | some f =>
      rw [search] at related
      cases related with
      | @some g _ run =>
          obtain rfl : f.id = id := by simpa using List.find?_some search
          exact .some ((g.fact_ok_iff tree f).mp run).2

theorem exists_last_of_get? {id : Nat} {x : Value}
    (held : (Context.ofFacts facts).get? id = some x) :
    ∃ g v, Given.last? m given id = some g ∧ m.vars[id]? = some v ∧
      v.domain.validate g.value = .ok x := by
  have related := rel_get?_ofFacts tree made id
  cases last : Given.last? m given id with
  | none => simp [last, held] at related
  | some g => simpa [last, held] using related

theorem exists_get?_of_last {id : Nat} {g : Given} (last : Given.last? m given id = some g) :
    ∃ v x, m.vars[id]? = some v ∧ v.domain.validate g.value = .ok x ∧
      (Context.ofFacts facts).get? id = some x := by
  have related := rel_get?_ofFacts tree made id
  cases held : (Context.ofFacts facts).get? id with
  | none => simp [last, held] at related
  | some x => simpa [last, held] using related

/-! ## Joined contexts -/

variable (sound : ∀ v ∈ m.vars, v.domain.Sound)

include sound

theorem validate_ofFacts : (Context.ofFacts facts).validate m = .ok () := by
  refine (Context.validate_ok_iff m _).mpr fun id x held => ?_
  obtain ⟨g, v, _, known, valid⟩ := exists_last_of_get? tree made held
  have sound := sound v (List.mem_of_getElem? known)
  have canonical := Domain.canonical_of_validate sound valid
  exact ⟨v, known, (Domain.validate_self_iff sound x).mpr canonical⟩

theorem satisfies_ofFacts_iff {a : Assignment} (own : Assignment.MadeFor m a) :
    a.satisfies (Context.ofFacts facts) = true ↔ ∀ id g, Given.last? m given id = some g →
      ∃ y, a.value? id = some y ∧ y.Same g.value := by
  have settled := Assignment.settled_of_ofSlots sound (own.ofSlots_slots sound)
  rw [Assignment.satisfies_iff]
  constructor
  · intro holds id g last
    obtain ⟨v, x, known, valid, fixed⟩ := exists_get?_of_last tree made last
    have sound := sound v (List.mem_of_getElem? known)
    exact ⟨x, holds id x fixed, Domain.same_of_validate sound valid⟩
  · intro holds id x fixed
    obtain ⟨g, v, last, known, valid⟩ := exists_last_of_get? tree made fixed
    obtain ⟨y, held, same⟩ := holds id g last
    have sound := sound v (List.mem_of_getElem? known)
    -- what the assignment holds is canonical too, so it is the same value
    have filled : Assignment.fillSlot v (a.value? id) = .ok (a.value? id) :=
      settled.fillSlot_value known
    rw [held] at filled
    have canonical := Assignment.canonical_of_fillSlot sound filled
    rw [held, canonical.eq_of_same sound (Domain.canonical_of_validate sound valid)
      (same.trans (Domain.same_of_validate sound valid).symm)]

end

end

theorem validate_iff_canonical {m : Model} (sound : ∀ v ∈ m.vars, v.domain.Sound)
    (c : Context) :
    c.validate m = .ok () ↔ ∀ id x, (id, x) ∈ c.entries →
      ∃ v, m.vars[id]? = some v ∧ v.domain.Canonical x := by
  simp only [Context.validate_ok_iff, Context.mem_entries_iff]
  refine forall₃_congr fun id x _ => exists_congr fun v => and_congr_right fun known => ?_
  exact Domain.validate_self_iff (sound v (List.mem_of_getElem? known)) x

/-- However the facts that a built model makes are joined, they give the same context.  It has
one entry for each variable that is named, in the order of the variables, with the canonical
form of the value given last; it is valid for the model; and an assignment of the model
satisfies it when it holds what these values stand for.  Any context at all, whatever model
its facts are from, is valid exactly when its entries are canonical values of variables of the
model. -/
theorem joining_usable {serial : Nat} {d : Declaration} {m : Model}
    (built : d.build serial = .ok m) :
    (∀ given : List Given, (∀ g ∈ given, ∃ f, g.fact m = .ok f) →
      ∃ c : Context, (∀ j : Joining, j.given = given → j.run m = .ok c) ∧
        c.entries.Pairwise (fun e f => e.1 < f.1) ∧
        (∀ id x, (id, x) ∈ c.entries ↔ ∃ g v, Given.last? m given id = some g ∧
          m.vars[id]? = some v ∧ v.domain.CanonicalForm g.value x) ∧
        c.validate m = .ok () ∧
        ∀ a, Assignment.MadeFor m a →
          (a.satisfies c = true ↔ ∀ id g, Given.last? m given id = some g →
            ∃ y, a.value? id = some y ∧ y.Same g.value)) ∧
    ∀ c : Context, c.validate m = .ok () ↔ ∀ id x, (id, x) ∈ c.entries →
      ∃ v, m.vars[id]? = some v ∧ v.domain.Canonical x := by
  have laid := Declaration.build_laid built
  have tree := laid.isTree
  have sound := laid.domain_sound
  refine ⟨fun given all => ?_, validate_iff_canonical sound⟩
  obtain ⟨facts, made⟩ := exists_forall₂_iff.mpr all
  refine ⟨Context.ofFacts facts, fun j same => ?_, (Context.ofFacts facts).table.ascending,
    fun id x => ?_, validate_ofFacts tree made sound,
    fun a own => satisfies_ofFacts_iff tree made sound own⟩
  · rw [j.run_eq, same, mapM_ok_iff.mpr made]
    rfl
  · rw [Context.mem_entries_iff]
    constructor
    · intro held
      obtain ⟨g, v, last, known, valid⟩ := exists_last_of_get? tree made held
      exact ⟨g, v, last, known,
        Domain.canonicalForm_of_validate (sound v (List.mem_of_getElem? known)) valid⟩
    · rintro ⟨g, v, last, known, becomes⟩
      obtain ⟨w, y, again, valid, held⟩ := exists_get?_of_last tree made last
      obtain rfl : w = v := Option.some.inj (again.symm.trans known)
      have run := (Domain.validate_ok_iff (sound w (List.mem_of_getElem? known)) _ x).mpr becomes
      obtain rfl := Except.ok.inj (valid.symm.trans run)
      exact held

theorem joining_usable_nested :
    let m := Examples.nestedModel
    let tags : Value := .selection [.text "blue", .text "red"]
    let inner : Given := ⟨1, "/flag", .bool true⟩
    let outer : Given := ⟨0, "Inner/flag", .bool false⟩
    Examples.nested.build 0 = .ok m ∧
      (∃ c, (Joining.insert (.extend (.ofPairs [("tags", tags)]) [inner]) outer).run m = .ok c ∧
        (Joining.ofFacts [⟨0, "tags", tags⟩, inner, outer]).run m = .ok c ∧
        c.validate m = .ok () ∧ (2, .bool false) ∈ c.entries ∧
        ∀ a, Assignment.MadeFor m a → a.satisfies c = true →
          ∃ y, a.value? 1 = some y ∧ y.Same tags) ∧
      ¬ (Context.ofFact ⟨1, tags⟩).validate m = .ok () := by
  have first : Given.fact Examples.nestedModel ⟨0, "tags", .selection [.text "blue", .text "red"]⟩ =
    .ok ⟨1, .selection [.text "red", .text "blue"]⟩ := by rfl
  have second : Given.fact Examples.nestedModel ⟨1, "/flag", .bool true⟩ = .ok ⟨2, .bool true⟩ := by
    rfl
  have third : Given.fact Examples.nestedModel ⟨0, "Inner/flag", .bool false⟩ =
    .ok ⟨2, .bool false⟩ := by rfl
  intro m tags inner outer
  let given : List Given := [⟨0, "tags", tags⟩, inner, outer]
  have built : Examples.nested.build 0 = .ok m := rfl
  obtain ⟨joined, valid⟩ := joining_usable built
  have all : ∀ g ∈ given, ∃ f, g.fact m = .ok f := by
    simp only [given, List.forall_mem_cons]
    exact ⟨⟨_, first⟩, ⟨_, second⟩, ⟨_, third⟩, by simp⟩
  have last : Given.last? m given 2 = some outer := by decide
  have only : Given.last? m given 1 = some ⟨0, "tags", tags⟩ := by decide
  obtain ⟨c, same, _, entries, usable, satisfied⟩ := joined given all
  refine ⟨built, ⟨c, same _ rfl, same _ rfl, usable, ?_, fun a own holds => ?_⟩, ?_⟩
  · exact (entries 2 _).mpr ⟨outer, m.variableAt 2, last, rfl, .boolean false, .inl rfl⟩
  · exact (satisfied a own).mp holds 1 _ only
  · rw [valid]
    intro canonical
    obtain ⟨v, known, own⟩ := canonical 1 tags (by decide)
    obtain rfl : m.variableAt 1 = v := Option.some.inj known
    have own : Domain.Canonical (.multiSelect [.text "red", .text "green", .text "blue"] 0 2)
      (.selection [.text "blue", .text "red"]) := own
    cases own with
    | multiSelect sub => exact absurd sub (by decide)

end DecisionSpace
