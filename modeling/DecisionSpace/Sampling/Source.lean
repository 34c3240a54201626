/-! # Random sources

A source of decisions tosses coins and picks numbers below a bound; that is all
a search needs.  A source of words gives 32 or 64 random bits at a time, from
which decisions and unit floats are made.  Every source is a value: a draw
returns what it drew together with the source that is left. -/
set_option autoImplicit false
namespace DecisionSpace.Sampling

class Chance (σ : Type) where
  coin : σ → Bool × σ
  below : Nat → σ → Nat × σ
  below_lt : ∀ (n : Nat) (s : σ), 0 < n → (below n s).1 < n

def pick {α σ : Type} [Chance σ] (x : α) (rest : List α) (s : σ) : α × σ :=
  let (i, s) := Chance.below (rest.length + 1) s
  ((x :: rest).getD i x, s)

theorem pick_mem {α σ : Type} [Chance σ] (x : α) (rest : List α) (s : σ) :
    (pick x rest s).1 ∈ x :: rest := by
  have h : (Chance.below (rest.length + 1) s).1 < (x :: rest).length :=
    Chance.below_lt _ s (Nat.succ_pos _)
  have e : (pick x rest s).1 = (x :: rest)[(Chance.below (rest.length + 1) s).1] := by
    simp only [pick, List.getD_eq_getElem?_getD, List.getElem?_eq_getElem h, Option.getD_some]
  rw [e]
  exact List.getElem_mem h

def draws {α σ : Type} (draw : σ → α × σ) : Nat → σ → List α × σ
  | 0, s => ([], s)
  | n + 1, s =>
      let (x, s) := draw s
      let (xs, s) := draws draw n s
      (x :: xs, s)

class Words (σ : Type) where
  next32 : σ → UInt32 × σ
  next64 : σ → UInt64 × σ

/-- The product of a word, one of `span` many, and a bound, cut into the part above
the word and the part inside it. -/
def scale (span word n : Nat) : Nat × Nat := (word * n / span, word * n % span)

/-- The part above the word, corrected by what a second word would carry over. -/
def carried (span second n : Nat) (high low : Nat) : Nat :=
  if span ≤ low + (scale span second n).1 then high + 1 else high

def mayCarry (span n low : Nat) : Bool := span < low + n

theorem scale_fst_lt {span word n : Nat} (hw : word < span) (hn : 0 < n) :
    (scale span word n).1 < n :=
  Nat.div_lt_of_lt_mul (Nat.mul_lt_mul_of_pos_right hw hn)

theorem scale_fst_succ_lt {span word n : Nat} (hw : word < span) (hn : 0 < n)
    (hc : mayCarry span n (scale span word n).2 = true) : (scale span word n).1 + 1 < n := by
  have hlt := scale_fst_lt hw hn
  have hsum : span * (scale span word n).1 + (scale span word n).2 = word * n :=
    Nat.div_add_mod _ _
  have hbound : word * n + n ≤ span * n := by
    calc word * n + n = (word + 1) * n := (Nat.succ_mul word n).symm
      _ ≤ span * n := Nat.mul_le_mul_right n hw
  have hcarry : span < (scale span word n).2 + n := by simpa [mayCarry] using hc
  rcases Nat.lt_or_ge ((scale span word n).1 + 1) n with h | h
  · exact h
  · have : span * n ≤ span * ((scale span word n).1 + 1) := Nat.mul_le_mul_left _ h
    rw [Nat.mul_succ] at this
    omega

section Words
variable {σ : Type} [Words σ]

def below32 (n : Nat) (s : σ) : Nat × σ :=
  let (word, s) := Words.next32 s
  let (high, low) := scale UInt32.size word.toNat n
  if mayCarry UInt32.size n low then
    let (second, s) := Words.next32 s
    (carried UInt32.size second.toNat n high low, s)
  else (high, s)

def below64 (n : Nat) (s : σ) : Nat × σ :=
  let (word, s) := Words.next64 s
  let (high, low) := scale UInt64.size word.toNat n
  if mayCarry UInt64.size n low then
    let (second, s) := Words.next64 s
    (carried UInt64.size second.toNat n high low, s)
  else (high, s)

theorem carried_lt {span word second n : Nat} (hw : word < span) (hn : 0 < n)
    (hc : mayCarry span n (scale span word n).2 = true) :
    carried span second n (scale span word n).1 (scale span word n).2 < n := by
  have := scale_fst_succ_lt hw hn hc
  unfold carried
  split <;> omega

theorem below32_lt (n : Nat) (s : σ) (hn : 0 < n) : (below32 n s).1 < n := by
  have hw : (Words.next32 s).1.toNat < UInt32.size := (Words.next32 s).1.toNat_lt_size
  simp only [below32]
  split
  · exact carried_lt hw hn (by assumption)
  · exact scale_fst_lt hw hn

theorem below64_lt (n : Nat) (s : σ) (hn : 0 < n) : (below64 n s).1 < n := by
  have hw : (Words.next64 s).1.toNat < UInt64.size := (Words.next64 s).1.toNat_lt_size
  simp only [below64]
  split
  · exact carried_lt hw hn (by assumption)
  · exact scale_fst_lt hw hn

/-- Decisions made of words: a coin is the top bit, a number the upper part of a
product. -/
instance : Chance σ where
  coin s :=
    let (word, s) := Words.next64 s
    (word < 0x8000000000000000, s)
  below n s := if n < UInt32.size then below32 n s else below64 n s
  below_lt n s hn := by
    split
    · exact below32_lt n s hn
    · exact below64_lt n s hn

def unit (s : σ) : Float × σ :=
  let (word, s) := Words.next64 s
  ((word >>> 11).toFloat * (1.0 / 9007199254740992.0), s)

def withFraction (e : UInt64) (word : UInt64) : Float :=
  Float.ofBits ((word >>> 12) ||| ((1023 + e) <<< 52))

def openUnitOf (word : UInt64) : Float :=
  withFraction 0 word - (1.0 - 1.0 / 9007199254740992.0)

def openUnit (s : σ) : Float × σ :=
  let (word, s) := Words.next64 s
  (openUnitOf word, s)

/-- Draws until a step accepts, or gives the fallback after so many steps. -/
def untilAccepted {α : Type} (step : σ → Option α × σ) (fallback : α) : Nat → σ → α × σ
  | 0, s => (fallback, s)
  | n + 1, s =>
      match step s with
      | (some a, s) => (a, s)
      | (none, s) => untilAccepted step fallback n s

def patience : Nat := Nat.pow 2 62

end Words

end DecisionSpace.Sampling
