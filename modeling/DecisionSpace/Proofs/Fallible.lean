import Mathlib.Data.List.Forall2

/-!
# Fallible steps

When a composition of steps that may fail succeeds.  A list of steps succeeds
exactly when each of them does, and then its results stand in the same order.
-/

set_option autoImplicit false

namespace DecisionSpace.Fallible

variable {ε ε' α β : Type}

theorem bind_ok_iff {x : Except ε α} {f : α → Except ε β} {b : β} :
    x >>= f = .ok b ↔ ∃ a, x = .ok a ∧ f a = .ok b := by
  cases x with
  | error e => simp [bind, Except.bind]
  | ok a => simp [bind, Except.bind]

theorem bind_error_iff {x : Except ε α} {f : α → Except ε β} {e : ε} :
    x >>= f = .error e ↔ x = .error e ∨ ∃ a, x = .ok a ∧ f a = .error e := by
  cases x with
  | error e' => simp [bind, Except.bind]
  | ok a => simp [bind, Except.bind]

theorem check_bind_ok_iff {x : Except ε Unit} {f : Unit → Except ε β} {b : β} :
    x >>= f = .ok b ↔ x = .ok () ∧ f () = .ok b := by
  rw [bind_ok_iff]
  exact ⟨fun ⟨(), run, rest⟩ => ⟨run, rest⟩, fun ⟨run, rest⟩ => ⟨(), run, rest⟩⟩

theorem map_ok_iff {x : Except ε α} {f : α → β} {b : β} :
    x.map f = .ok b ↔ ∃ a, x = .ok a ∧ f a = b := by
  cases x with
  | error e => simp [Except.map]
  | ok a => simp [Except.map]

theorem mapError_ok_iff {x : Except ε α} {f : ε → ε'} {a : α} :
    x.mapError f = .ok a ↔ x = .ok a := by
  cases x with
  | error e => simp [Except.mapError]
  | ok b => simp [Except.mapError]

theorem mapError_error_iff {x : Except ε α} {f : ε → ε'} {e : ε'} :
    x.mapError f = .error e ↔ ∃ cause, x = .error cause ∧ f cause = e := by
  cases x with
  | error e' => simp [Except.mapError]
  | ok a => simp [Except.mapError]

theorem toOption_eq_some_iff {x : Except ε α} {a : α} : x.toOption = some a ↔ x = .ok a := by
  cases x with
  | error e => simp [Except.toOption]
  | ok b => simp [Except.toOption]

theorem mapM_ok_iff {f : α → Except ε β} {xs : List α} {ys : List β} :
    xs.mapM f = .ok ys ↔ List.Forall₂ (fun x y => f x = .ok y) xs ys := by
  induction xs generalizing ys with
  | nil =>
      rw [List.forall₂_nil_left_iff, List.mapM_nil]
      exact ⟨fun success => (Except.ok.inj success).symm, fun empty => empty ▸ rfl⟩
  | cons x xs ih =>
      rw [List.mapM_cons, bind_ok_iff]
      constructor
      · rintro ⟨y, head, rest⟩
        obtain ⟨tail, tailRun, result⟩ := bind_ok_iff.mp rest
        obtain rfl : y :: tail = ys := Except.ok.inj result
        exact .cons head (ih.mp tailRun)
      · rintro (_ | ⟨head, tail⟩)
        exact ⟨_, head, bind_ok_iff.mpr ⟨_, ih.mpr tail, rfl⟩⟩

theorem exists_of_forall₂ {R : α → β → Prop} {xs : List α} {ys : List β}
    (related : List.Forall₂ R xs ys) {x : α} (member : x ∈ xs) : ∃ y ∈ ys, R x y := by
  induction related with
  | nil => simp at member
  | @cons z y xs ys head tail ih =>
      rcases List.mem_cons.mp member with rfl | member
      · exact ⟨y, List.mem_cons_self, head⟩
      · obtain ⟨w, found, step⟩ := ih member
        exact ⟨w, List.mem_cons_of_mem _ found, step⟩

theorem forall₂_set {R : α → β → Prop} {xs : List α} {ys : List β}
    (related : List.Forall₂ R xs ys) {i : Nat} {x : α} {y : β} (known : xs[i]? = some x)
    (partner : R x y) : List.Forall₂ R xs (ys.set i y) := by
  induction related generalizing i with
  | nil => simp at known
  | cons head tail ih =>
      cases i with
      | zero =>
          obtain rfl := Option.some.inj known
          exact .cons partner tail
      | succ i => exact .cons head (ih known)

theorem exists_forall₂_iff {R : α → β → Prop} {xs : List α} :
    (∃ ys, List.Forall₂ R xs ys) ↔ ∀ x ∈ xs, ∃ y, R x y := by
  constructor
  · rintro ⟨ys, related⟩ x member
    obtain ⟨y, _, step⟩ := exists_of_forall₂ related member
    exact ⟨y, step⟩
  · intro each
    induction xs with
    | nil => exact ⟨[], .nil⟩
    | cons x xs ih =>
        obtain ⟨⟨y, head⟩, rest⟩ := List.forall_mem_cons.mp each
        obtain ⟨ys, tail⟩ := ih rest
        exact ⟨y :: ys, .cons head tail⟩

theorem mapM_error_iff {f : α → Except ε β} {xs : List α} {e : ε} :
    xs.mapM f = .error e ↔ ∃ before x after, xs = before ++ x :: after ∧
      (∀ y ∈ before, ∃ z, f y = .ok z) ∧ f x = .error e := by
  induction xs with
  | nil => simp [pure, Except.pure]
  | cons first rest ih =>
      rw [List.mapM_cons, bind_error_iff]
      constructor
      · intro failure
        obtain head | ⟨z, head, failure⟩ := failure
        · exact ⟨[], first, rest, rfl, by simp, head⟩
        · obtain later | ⟨zs, _, impossible⟩ := bind_error_iff.mp failure
          · obtain ⟨before, x, after, rfl, fine, fails⟩ := ih.mp later
            exact ⟨first :: before, x, after, rfl, List.forall_mem_cons.mpr ⟨⟨z, head⟩, fine⟩,
              fails⟩
          · simp [pure, Except.pure] at impossible
      · intro split
        obtain ⟨before, x, after, same, fine, fails⟩ := split
        cases before with
        | nil =>
            obtain ⟨rfl, rfl⟩ := List.cons.inj same
            exact .inl fails
        | cons y before =>
            obtain ⟨rfl, rfl⟩ := List.cons.inj same
            obtain ⟨⟨z, head⟩, fine⟩ := List.forall_mem_cons.mp fine
            have later := ih.mpr ⟨before, x, after, rfl, fine, fails⟩
            exact .inr ⟨z, head, bind_error_iff.mpr (.inl later)⟩

theorem exists_of_mapM_ok {f : α → Except ε β} {xs : List α} {ys : List β}
    (run : xs.mapM f = .ok ys) {y : β} (member : y ∈ ys) : ∃ x ∈ xs, f x = .ok y :=
  exists_of_forall₂ (mapM_ok_iff.mp run).flip member

theorem forM_ok_iff {f : α → Except ε Unit} {xs : List α} :
    xs.forM f = .ok () ↔ ∀ x ∈ xs, f x = .ok () := by
  induction xs with
  | nil => simp [List.forM, pure, Except.pure]
  | cons x xs ih =>
      rw [List.forall_mem_cons, ← ih]
      exact check_bind_ok_iff

theorem exists_of_forM_error {f : α → Except ε Unit} {xs : List α} {e : ε}
    (failure : xs.forM f = .error e) : ∃ x ∈ xs, f x = .error e := by
  induction xs with
  | nil => simp [List.forM, pure, Except.pure] at failure
  | cons x xs ih =>
      change (f x >>= fun _ => xs.forM f) = .error e at failure
      cases head : f x with
      | error e' =>
          rw [head] at failure
          exact ⟨x, List.mem_cons_self, head.trans failure⟩
      | ok u =>
          rw [head] at failure
          obtain ⟨y, member, found⟩ := ih failure
          exact ⟨y, List.mem_cons_of_mem _ member, found⟩

end DecisionSpace.Fallible
