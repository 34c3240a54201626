/-! # Tables

A table is a list of entries in strictly ascending order of their keys, so that
a key has one entry at most and equal tables have equal lists.  `insert` keeps
the order; `get?_insert` says what it does to what the keys stand for. -/
set_option autoImplicit false
namespace DecisionSpace

class KeyOrder (κ : Type) [LT κ] : Prop where
  trans : ∀ {a b c : κ}, a < b → b < c → a < c
  connected : ∀ {a b : κ}, ¬ a < b → a ≠ b → b < a

instance : KeyOrder Nat where
  trans := Nat.lt_trans
  connected h different := Nat.lt_of_le_of_ne (Nat.le_of_not_lt h) (Ne.symm different)

instance : KeyOrder String where
  trans := String.lt_trans
  connected h different :=
    Decidable.byContradiction fun h' =>
      different (String.le_antisymm (String.not_lt.mp h') (String.not_lt.mp h))

structure Table (κ β : Type) [LT κ] where
  entries : List (κ × β)
  ascending : entries.Pairwise fun a b => a.1 < b.1

namespace Table

section
variable {κ β : Type} [LT κ]

instance [DecidableEq κ] [DecidableEq β] : DecidableEq (Table κ β) := fun s t =>
  if h : s.entries = t.entries then
    .isTrue (by cases s; cases t; cases h; rfl)
  else .isFalse fun e => h (e ▸ rfl)

def empty : Table κ β := ⟨[], List.Pairwise.nil⟩

instance : Inhabited (Table κ β) := ⟨empty⟩

def size (t : Table κ β) : Nat := t.entries.length

def isEmpty (t : Table κ β) : Bool := t.entries.isEmpty

variable [DecidableEq κ]

def get? (t : Table κ β) (key : κ) : Option β := t.entries.lookup key

def contains (t : Table κ β) (key : κ) : Bool := (t.get? key).isSome

end

section
variable {κ β : Type} [LT κ] [DecidableLT κ] [DecidableEq κ]

/-- Puts an entry in its place; an entry with the same key is replaced. -/
def insertEntry (key : κ) (value : β) : List (κ × β) → List (κ × β)
  | [] => [(key, value)]
  | (k, v) :: rest =>
      if key < k then (key, value) :: (k, v) :: rest
      else if key = k then (key, value) :: rest
      else (k, v) :: insertEntry key value rest

theorem mem_insertEntry {key : κ} {value : β} {entries : List (κ × β)} {e : κ × β}
    (h : e ∈ insertEntry key value entries) : e = (key, value) ∨ e ∈ entries := by
  induction entries with
  | nil => exact Or.inl (List.mem_singleton.mp h)
  | cons head rest ih =>
      obtain ⟨k, v⟩ := head
      simp only [insertEntry] at h
      split at h
      · exact List.mem_cons.mp h
      · split at h
        · rcases List.mem_cons.mp h with rfl | h
          · exact Or.inl rfl
          · exact Or.inr (List.mem_cons_of_mem _ h)
        · rcases List.mem_cons.mp h with rfl | h
          · exact Or.inr List.mem_cons_self
          · exact (ih h).imp id (List.mem_cons_of_mem _)

theorem ascending_insertEntry [KeyOrder κ] (key : κ) (value : β) {entries : List (κ × β)}
    (h : entries.Pairwise fun a b => a.1 < b.1) :
    (insertEntry key value entries).Pairwise fun a b => a.1 < b.1 := by
  induction entries with
  | nil => exact List.pairwise_singleton _ _
  | cons head rest ih =>
      obtain ⟨k, v⟩ := head
      obtain ⟨least, tail⟩ := List.pairwise_cons.mp h
      simp only [insertEntry]
      split
      · rename_i before
        refine List.pairwise_cons.mpr ⟨fun e member => ?_, h⟩
        rcases List.mem_cons.mp member with rfl | member
        · exact before
        · exact KeyOrder.trans before (least e member)
      · split
        · subst k
          exact List.pairwise_cons.mpr ⟨least, tail⟩
        · rename_i notBefore different
          refine List.pairwise_cons.mpr ⟨fun e member => ?_, ih tail⟩
          rcases mem_insertEntry member with rfl | member
          · exact KeyOrder.connected notBefore different
          · exact least e member

variable [KeyOrder κ]

def insert (t : Table κ β) (key : κ) (value : β) : Table κ β :=
  ⟨insertEntry key value t.entries, ascending_insertEntry key value t.ascending⟩

def insertMany (t : Table κ β) (entries : List (κ × β)) : Table κ β :=
  entries.foldl (fun t e => t.insert e.1 e.2) t

def ofList (entries : List (κ × β)) : Table κ β := insertMany empty entries

end

section
variable {κ β : Type} [DecidableEq κ]

theorem lookup_cons_eq_ite (k key : κ) (v : β) (rest : List (κ × β)) :
    ((k, v) :: rest).lookup key = if key = k then some v else rest.lookup key := by
  by_cases h : key = k
  · simp [h]
  · simp [List.lookup_cons, beq_false_of_ne h, h]

variable [LT κ] [DecidableLT κ]

theorem lookup_insertEntry (key other : κ) (value : β) (entries : List (κ × β)) :
    (insertEntry key value entries).lookup other =
      if other = key then some value else entries.lookup other := by
  induction entries with
  | nil => simp [insertEntry, lookup_cons_eq_ite]
  | cons e rest ih =>
      obtain ⟨k, v⟩ := e
      simp only [insertEntry]
      split
      · rw [lookup_cons_eq_ite]
      · split
        · subst k
          by_cases h : other = key <;> simp [lookup_cons_eq_ite, h]
        · by_cases h : other = key
          · simp_all [lookup_cons_eq_ite]
          · simp [lookup_cons_eq_ite, h, ih]

/-- An insertion changes what one key stands for, and nothing else. -/
theorem get?_insert [KeyOrder κ] (t : Table κ β) (key other : κ) (value : β) :
    (t.insert key value).get? other = if other = key then some value else t.get? other :=
  lookup_insertEntry key other value t.entries

end

end Table

end DecisionSpace
