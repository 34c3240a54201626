import DecisionSpace.Table
import Mathlib.Data.List.Nodup

/-!
# Tables as finite maps

The keys of a table are different, so what a key stands for is found among the
entries, and a table made of entries with different keys holds exactly these.
-/

set_option autoImplicit false

namespace DecisionSpace.Table

section
variable {κ β : Type} [DecidableEq κ]

theorem lookup_eq_some_iff_mem {entries : List (κ × β)} (nodup : (entries.map (·.1)).Nodup)
    (key : κ) (value : β) : entries.lookup key = some value ↔ (key, value) ∈ entries := by
  induction entries with
  | nil => simp
  | cons head rest ih =>
      obtain ⟨k, v⟩ := head
      obtain ⟨new, tail⟩ := List.nodup_cons.mp nodup
      rw [lookup_cons_eq_ite, List.mem_cons, Prod.mk.injEq]
      by_cases same : key = k
      · subst same
        have absent : (key, value) ∉ rest := fun member => new (List.mem_map.mpr ⟨_, member, rfl⟩)
        simp [absent, eq_comm]
      · simp [same, ih tail]

theorem lookup_eq_none_iff_notMem {entries : List (κ × β)} {key : κ} :
    entries.lookup key = none ↔ key ∉ entries.map (·.1) := by
  rw [List.lookup_eq_none_iff]
  constructor
  · intro others member
    obtain ⟨e, listed, rfl⟩ := List.mem_map.mp member
    simpa using others e listed
  · intro absent e listed
    have different : key ≠ e.1 := fun same => absent (same ▸ List.mem_map_of_mem listed)
    simpa using different

end

section
variable {κ β : Type} [LT κ] [Std.Irrefl (α := κ) (· < ·)]

theorem keys_nodup (t : Table κ β) : (t.entries.map (·.1)).Nodup := by
  refine List.pairwise_map.mpr (t.ascending.imp fun {a b} before same => ?_)
  rw [same] at before
  exact Std.Irrefl.irrefl _ before

theorem get?_eq_some_iff [DecidableEq κ] (t : Table κ β) (key : κ) (value : β) :
    t.get? key = some value ↔ (key, value) ∈ t.entries :=
  lookup_eq_some_iff_mem t.keys_nodup key value

end

section
variable {κ β : Type} [LT κ] [DecidableLT κ] [DecidableEq κ] [KeyOrder κ]

theorem get?_insertMany (t : Table κ β) {entries : List (κ × β)}
    (nodup : (entries.map (·.1)).Nodup) (key : κ) :
    (t.insertMany entries).get? key = (entries.lookup key).or (t.get? key) := by
  induction entries generalizing t with
  | nil => rfl
  | cons head rest ih =>
      obtain ⟨k, v⟩ := head
      obtain ⟨new, tail⟩ := List.nodup_cons.mp nodup
      have step : t.insertMany ((k, v) :: rest) = (t.insert k v).insertMany rest := rfl
      rw [step, ih _ tail, get?_insert, lookup_cons_eq_ite]
      by_cases same : key = k
      · subst same
        simp [lookup_eq_none_iff_notMem.mpr new]
      · simp [same]

theorem get?_ofList {entries : List (κ × β)} (nodup : (entries.map (·.1)).Nodup) (key : κ)
    (value : β) : (ofList entries).get? key = some value ↔ (key, value) ∈ entries := by
  have none : (empty : Table κ β).get? key = none := rfl
  rw [ofList, get?_insertMany empty nodup, none, Option.or_none, lookup_eq_some_iff_mem nodup]

end

end DecisionSpace.Table
