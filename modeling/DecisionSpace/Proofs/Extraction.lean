import DecisionSpace.Assignment
import DecisionSpace.Proofs.Fallible

/-!
# Typed extraction

Reading a value at a shape is the way back from embedding.  It gives an element of the type
exactly when the value is what the element embeds to, and refuses any other value with a
mismatch under the given name: the first one that is met when selections are read from left
to right.
-/

set_option autoImplicit false

namespace DecisionSpace

open Fallible

/-- One value lies so many selections deep in another. -/
inductive Value.Within (inner : Value) : Nat → Value → Prop where
  | here : Within inner 0 inner
  | deeper {item : Value} {items : List Value} {depth : Nat} (member : item ∈ items)
      (within : Within inner depth item) : Within inner (depth + 1) (.selection items)

namespace Shape

/-! ## Why a value cannot be read -/

def Fits (i : Int64) : Prop := -0x80000000 ≤ i.toInt ∧ i.toInt < 0x80000000

instance (i : Int64) : Decidable (Fits i) := inferInstanceAs (Decidable (_ ∧ _))

def hasForm : Shape → Value → Bool
  | .any, _ => true
  | .bool, v => v.asBool?.isSome
  | .int, v | .int32, v => v.asInt?.isSome
  | .text, v => v.asText?.isSome
  | .list _, v => v.asSelection?.isSome

/-- What is reported of a value that cannot be read at a shape: its kind, an integer that is
too wide, or what is reported of the first such element. -/
inductive Fault (name : String) : Shape → Value → Failure → Prop where
  | form {s : Shape} {v : Value} (other : s.hasForm v = false) : Fault name s v (s.mismatch name v)
  | wide {i : Int64} (outside : ¬ Fits i) :
      Fault name .int32 (.int i) (.typeMismatch name "int (32-bit)" "int (64-bit)")
  | element {s : Shape} {before after : List Value} {item : Value} {e : Failure}
      (readable : ∀ v ∈ before, ∃ x, s.embed x = v) (fault : Fault name s item e) :
      Fault name (.list s) (.selection (before ++ item :: after)) e

def nested (s : Shape) : Nat → Shape
  | 0 => s
  | depth + 1 => .list (s.nested depth)

theorem toInt64_toInt32_iff (i : Int64) : i.toInt32.toInt64 = i ↔ Fits i := by
  rw [← Int64.toInt_inj, Int32.toInt_toInt64, Int64.toInt_toInt32, Int.bmod_eq_iff (by decide),
    Fits]
  omega

theorem fits_toInt64 (x : Int32) : Fits x.toInt64 := by
  rw [← toInt64_toInt32_iff, Int32.toInt32_toInt64]

theorem narrow?_eq_some_iff (i : Int64) (x : Int32) : narrow? i = some x ↔ x.toInt64 = i := by
  rw [narrow?]
  constructor
  · intro narrowed
    split at narrowed
    · rename_i kept
      rw [← Option.some.inj narrowed, kept]
    · simp at narrowed
  · intro widened
    rw [← widened, Int32.toInt32_toInt64, if_pos rfl]

theorem narrow?_eq_none_iff (i : Int64) : narrow? i = none ↔ ¬ Fits i := by
  rw [narrow?, ← toInt64_toInt32_iff]
  split
  · rename_i kept
    simp [kept]
  · rename_i lost
    simp [lost]

/-! ## Reading at a shape -/

theorem elim_ok_iff {ε α : Type} {found : Option α} {e : ε} {x : α} :
    found.elim (.error e) .ok = (.ok x : Except ε α) ↔ found = some x := by
  cases found with
  | none => simp
  | some y => simp

theorem asBool?_eq_some_iff {v : Value} {b : Bool} : v.asBool? = some b ↔ .bool b = v := by
  cases v <;> simp [Value.asBool?, eq_comm]

theorem asInt?_eq_some_iff {v : Value} {i : Int64} : v.asInt? = some i ↔ .int i = v := by
  cases v <;> simp [Value.asInt?, eq_comm]

theorem asText?_eq_some_iff {v : Value} {t : String} : v.asText? = some t ↔ .text t = v := by
  cases v <;> simp [Value.asText?, eq_comm]

theorem extract_int32_ok_iff (name : String) (v : Value) (x : Int32) :
    Shape.int32.extract name v = .ok x ↔ .int x.toInt64 = v := by
  rw [← asInt?_eq_some_iff]
  unfold extract
  cases v.asInt? with
  | none => simp
  | some i =>
      rw [Option.some.injEq, @eq_comm _ i, ← narrow?_eq_some_iff]
      exact elim_ok_iff

theorem extract_selection_ok_iff (element : Shape) (name : String) (items : List Value)
    (xs : List element.Carrier) :
    (Shape.list element).extract name (.selection items) = .ok xs ↔
      List.Forall₂ (fun item x => element.extract name item = .ok x) items xs :=
  mapM_ok_iff

theorem embed_selection_iff (element : Shape) (xs : List element.Carrier) (items : List Value) :
    (Shape.list element).embed xs = .selection items ↔
      List.Forall₂ (fun item x => element.embed x = item) items xs := by
  change Value.selection (xs.map element.embed) = .selection items ↔ _
  rw [Value.selection.injEq, ← List.forall₂_eq_eq_eq, List.forall₂_map_left_iff]
  exact ⟨List.Forall₂.flip, List.Forall₂.flip⟩

theorem extract_selection_iff_embed {element : Shape} {name : String}
    (each : ∀ v x, element.extract name v = .ok x ↔ element.embed x = v) (items : List Value)
    (xs : List element.Carrier) :
    (Shape.list element).extract name (.selection items) = .ok xs ↔
      (Shape.list element).embed xs = .selection items := by
  rw [extract_selection_ok_iff, embed_selection_iff]
  simp only [each]

theorem extract_selection_error_iff (element : Shape) (name : String) (items : List Value)
    (e : Failure) :
    (Shape.list element).extract name (.selection items) = .error e ↔
      ∃ before item after, items = before ++ item :: after ∧
        (∀ v ∈ before, ∃ x, element.extract name v = .ok x) ∧ element.extract name item = .error e :=
  mapM_error_iff

section
variable (s : Shape) (name : String) (v : Value)

theorem extract_ok_iff (x : s.Carrier) : s.extract name v = .ok x ↔ s.embed x = v := by
  induction s generalizing v with
  | any => exact ⟨fun read => (Except.ok.inj read).symm, fun same => same ▸ rfl⟩
  | bool => exact elim_ok_iff.trans asBool?_eq_some_iff
  | int => exact elim_ok_iff.trans asInt?_eq_some_iff
  | int32 => exact extract_int32_ok_iff name v x
  | text => exact elim_ok_iff.trans asText?_eq_some_iff
  | list element ih =>
      cases v with
      | selection items => exact extract_selection_iff_embed ih items x
      | _ => simp [extract, embed, Value.asSelection?]

theorem extract_of_other (other : s.hasForm v = false) :
    s.extract name v = .error (s.mismatch name v) := by
  cases s with
  | any => nomatch other
  | bool =>
      cases v with
      | bool b => nomatch other
      | _ => rfl
  | int =>
      cases v with
      | int i => nomatch other
      | _ => rfl
  | int32 =>
      cases v with
      | int i => nomatch other
      | _ => rfl
  | text =>
      cases v with
      | text t => nomatch other
      | _ => rfl
  | list element =>
      cases v with
      | selection items => nomatch other
      | _ => rfl

theorem extract_of_wide (name : String) {i : Int64} (outside : ¬ Fits i) :
    Shape.int32.extract name (.int i) = .error (.typeMismatch name "int (32-bit)" "int (64-bit)") := by
  change (narrow? i).elim (.error (.typeMismatch name "int (32-bit)" "int (64-bit)")) .ok =
    (.error _ : Except Failure Int32)
  rw [(narrow?_eq_none_iff i).mpr outside]
  rfl

variable {s name v}

theorem extract_of_fault {e : Failure} (fault : s.Fault name v e) : s.extract name v = .error e := by
  induction fault with
  | form other => exact extract_of_other _ name _ other
  | wide outside => exact extract_of_wide name outside
  | element readable _ ih =>
      refine (extract_selection_error_iff _ name _ _).mpr ⟨_, _, _, rfl, ?_, ih⟩
      intro v member
      obtain ⟨x, same⟩ := readable v member
      exact ⟨x, (extract_ok_iff _ name v x).mpr same⟩

theorem fault_of_other {e : Failure} (other : s.hasForm v = false)
    (failure : s.extract name v = .error e) : s.Fault name v e := by
  rw [extract_of_other s name v other] at failure
  rw [← Except.error.inj failure]
  exact .form other

theorem fault_of_extract {e : Failure} (failure : s.extract name v = .error e) :
    s.Fault name v e := by
  induction s generalizing v e with
  | any => nomatch failure
  | bool =>
      cases v with
      | bool b => nomatch failure
      | _ => exact fault_of_other rfl failure
  | int =>
      cases v with
      | int i => nomatch failure
      | _ => exact fault_of_other rfl failure
  | int32 =>
      cases v with
      | int i =>
          by_cases fits : Fits i
          · have read := (extract_ok_iff .int32 name (.int i) i.toInt32).mpr
              (congrArg Value.int ((toInt64_toInt32_iff i).mpr fits))
            rw [read] at failure
            nomatch failure
          · rw [extract_of_wide name fits] at failure
            rw [← Except.error.inj failure]
            exact .wide fits
      | _ => exact fault_of_other rfl failure
  | text =>
      cases v with
      | text t => nomatch failure
      | _ => exact fault_of_other rfl failure
  | list element ih =>
      cases v with
      | selection items =>
          obtain ⟨before, item, after, rfl, readable, failure⟩ :=
            (extract_selection_error_iff element name items e).mp failure
          refine .element (fun v member => ?_) (ih failure)
          obtain ⟨x, read⟩ := readable v member
          exact ⟨x, (extract_ok_iff element name v x).mp read⟩
      | _ => exact fault_of_other rfl failure

theorem Fault.isMismatch {e : Failure} (fault : s.Fault name v e) :
    ∃ expected found, e = .typeMismatch name expected found := by
  induction fault with
  | form _ => exact ⟨_, _, rfl⟩
  | wide _ => exact ⟨_, _, rfl⟩
  | element _ _ ih => exact ih

theorem exists_fault (unread : ∀ x, s.embed x ≠ v) :
    ∃ e, s.Fault name v e ∧ s.extract name v = .error e := by
  cases read : s.extract name v with
  | ok x => exact absurd ((extract_ok_iff s name v x).mp read) (unread x)
  | error e => exact ⟨e, fault_of_extract read, rfl⟩

end

theorem fits_of_within {i : Int64} {depth : Nat} {v : Value} (within : Value.Within (.int i) depth v)
    (x : (Shape.int32.nested depth).Carrier) (same : (Shape.int32.nested depth).embed x = v) :
    Fits i := by
  induction within with
  | here =>
      have widened : Int32.toInt64 x = i := Value.int.inj same
      rw [← widened]
      exact fits_toInt64 x
  | @deeper item items depth member _ ih =>
      have each := (embed_selection_iff (Shape.int32.nested depth) x items).mp same
      obtain ⟨y, _, embedded⟩ := exists_of_forall₂ each member
      exact ih y embedded

end Shape

/-! ## Reading a variable -/

namespace Assignment

variable (a : Assignment) (reference : String)

theorem getSelection_eq : a.getSelection reference = a.getAs (.list .any) reference := by
  rw [getSelection, getAs]
  cases a.get reference with
  | error e => rfl
  | ok v =>
      cases v with
      | selection items =>
          have whole := (Shape.embed_selection_iff .any items items).mpr
            (List.forall₂_same.mpr fun _ _ => rfl)
          exact ((Shape.extract_ok_iff (.list .any) reference (.selection items) items).mpr whole).symm
      | _ => rfl

end Assignment

/-- Reading at a shape is the way back from embedding: it gives just those elements that embed to
the value.  Any other value is refused with a mismatch under the given name, which is that of the
first part that does not fit; so is an integer beyond 32 bits that lies as deep as the lists of a
shape go.  A list is read element by element.  The readers of an assignment for the single kinds
are reading at their shapes. -/
theorem Shape.extract_inverts_embed (name : String) :
    (∀ (s : Shape) (v : Value) (x : s.Carrier), s.extract name v = .ok x ↔ s.embed x = v) ∧
    (∀ (s : Shape) (v : Value), (∀ x, s.embed x ≠ v) ↔
      ∃ expected found, s.extract name v = .error (.typeMismatch name expected found)) ∧
    (∀ (s : Shape) (v : Value) (e : Failure), s.extract name v = .error e ↔ s.Fault name v e) ∧
    (∀ (i : Int64) (depth : Nat) (v : Value), ¬ Fits i → Value.Within (.int i) depth v →
      ∃ expected found, (Shape.int32.nested depth).extract name v =
        .error (.typeMismatch name expected found)) ∧
    (∀ (s : Shape) (items : List Value) (xs : List s.Carrier),
      (Shape.list s).extract name (.selection items) = .ok xs ↔
        List.Forall₂ (fun item x => s.extract name item = .ok x) items xs) ∧
    ∀ a : Assignment,
      a.getBool name = a.getAs .bool name ∧ a.getInt name = a.getAs .int name ∧
      a.getText name = a.getAs .text name ∧ a.getSelection name = a.getAs (.list .any) name := by
  have refused : ∀ (s : Shape) (v : Value), (∀ x, s.embed x ≠ v) →
      ∃ expected found, s.extract name v = .error (.typeMismatch name expected found) := by
    intro s v unread
    obtain ⟨e, fault, failure⟩ := exists_fault unread
    obtain ⟨expected, found, rfl⟩ := fault.isMismatch
    exact ⟨expected, found, failure⟩
  refine ⟨fun s => s.extract_ok_iff name, fun s v => ⟨refused s v, ?_⟩,
    fun s v e => ⟨fault_of_extract, extract_of_fault⟩, ?_,
    fun s => s.extract_selection_ok_iff name, fun a => ⟨rfl, rfl, rfl, a.getSelection_eq name⟩⟩
  · intro failure x same
    obtain ⟨expected, found, failure⟩ := failure
    rw [(extract_ok_iff s name v x).mpr same] at failure
    nomatch failure
  · intro i depth v wide within
    exact refused _ v fun x same => wide (fits_of_within within x same)

theorem Shape.extract_inverts_embed_nested :
    let narrow : Value := .selection [.int 7, .int (-2147483648)]
    let wide : Value := .selection [.int 0, .int 2147483648]
    (Shape.int32.nested 1).extract "m" narrow = .ok ([7, -2147483648] : List Int32) ∧
      ∃ expected found, (Shape.int32.nested 2).extract "m" (.selection [narrow, wide]) =
        .error (.typeMismatch "m" expected found) := by
  intro narrow wide
  obtain ⟨inverts, _, _, deep, _⟩ := Shape.extract_inverts_embed "m"
  have outside : ¬ Fits 2147483648 := by decide
  have listed : Value.Within (.int 2147483648) 1 wide := .deeper (by simp) .here
  refine ⟨(inverts (Shape.int32.nested 1) narrow _).mpr rfl, deep _ 2 _ outside ?_⟩
  exact .deeper (by simp) listed

end DecisionSpace
