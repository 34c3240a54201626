/-! # Counts

What happens is counted in 64 bits: after the largest count comes zero again.
Where a number is wanted, a count is read as one. -/
set_option autoImplicit false
namespace DecisionSpace

abbrev Count := UInt64

namespace Count

instance : Coe Count Nat := ⟨UInt64.toNat⟩

def raise (c : Count) (n : Nat) : Count := c + .ofNat n

@[simp]
theorem raise_zero (c : Count) : c.raise 0 = c := UInt64.add_zero c

theorem raise_one (c : Count) : c.raise 1 = c + 1 := rfl

theorem raise_add (c : Count) (n k : Nat) : c.raise (n + k) = (c.raise n).raise k := by
  rw [raise, raise, raise, UInt64.ofNat_add, UInt64.add_assoc]

/-- A count that does not start over grows by the number of the events. -/
theorem toNat_raise {c : Count} {n : Nat} (fits : (c : Nat) + n < UInt64.size) :
    (c.raise n : Nat) = c + n := by
  rw [raise, UInt64.toNat_add, UInt64.toNat_ofNat_of_lt' (by omega), Nat.mod_eq_of_lt fits]

end Count

end DecisionSpace
