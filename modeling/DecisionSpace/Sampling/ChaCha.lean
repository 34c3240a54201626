import DecisionSpace.Sampling.Source

/-! # The ChaCha generator with eight rounds

A block of sixteen words is a function of a key, a block number and a stream
number.  The generator hands out the words of block after block; a 64-bit draw
takes two words, the low half first. -/
set_option autoImplicit false
namespace DecisionSpace.Sampling

structure Row where
  a : UInt32
  b : UInt32
  c : UInt32
  d : UInt32
  deriving DecidableEq, Inhabited

namespace Row

def add (x y : Row) : Row := ⟨x.a + y.a, x.b + y.b, x.c + y.c, x.d + y.d⟩

def xor (x y : Row) : Row := ⟨x.a ^^^ y.a, x.b ^^^ y.b, x.c ^^^ y.c, x.d ^^^ y.d⟩

def rotate (x : Row) (k : UInt32) : Row :=
  let turn (w : UInt32) := (w <<< k) ||| (w >>> (32 - k))
  ⟨turn x.a, turn x.b, turn x.c, turn x.d⟩

def shift (x : Row) : Row := ⟨x.b, x.c, x.d, x.a⟩

def toList (x : Row) : List UInt32 := [x.a, x.b, x.c, x.d]

end Row

structure Block where
  r0 : Row
  r1 : Row
  r2 : Row
  r3 : Row
  deriving DecidableEq, Inhabited

namespace Block

def mixInto (x y z : Row) (k : UInt32) : Row × Row :=
  let x := x.add y
  (x, (z.xor x).rotate k)

def columns (s : Block) : Block :=
  let (r0, r3) := mixInto s.r0 s.r1 s.r3 16
  let (r2, r1) := mixInto s.r2 r3 s.r1 12
  let (r0, r3) := mixInto r0 r1 r3 8
  let (r2, r1) := mixInto r2 r3 r1 7
  ⟨r0, r1, r2, r3⟩

def doubleRound (s : Block) : Block :=
  let s := s.columns
  let s := columns ⟨s.r0, s.r1.shift, s.r2.shift.shift, s.r3.shift.shift.shift⟩
  ⟨s.r0, s.r1.shift.shift.shift, s.r2.shift.shift, s.r3.shift⟩

def add (s t : Block) : Block := ⟨s.r0.add t.r0, s.r1.add t.r1, s.r2.add t.r2, s.r3.add t.r3⟩

def toList (s : Block) : List UInt32 := s.r0.toList ++ s.r1.toList ++ s.r2.toList ++ s.r3.toList

end Block

structure ChaCha where
  keyLow : Row
  keyHigh : Row
  stream : UInt64
  counter : UInt64
  pending : List UInt32
  deriving DecidableEq, Inhabited

namespace ChaCha

/-- The input of the rounds: four fixed words, the key, block and stream
number. -/
def input (g : ChaCha) : Block where
  r0 := ⟨0x61707865, 0x3320646e, 0x79622d32, 0x6b206574⟩
  r1 := g.keyLow
  r2 := g.keyHigh
  r3 := ⟨g.counter.toUInt32, (g.counter >>> 32).toUInt32, g.stream.toUInt32,
    (g.stream >>> 32).toUInt32⟩

def block (g : ChaCha) : List UInt32 :=
  (g.input.doubleRound.doubleRound.doubleRound.doubleRound.add g.input).toList

def next32 (g : ChaCha) : UInt32 × ChaCha :=
  match g.pending with
  | word :: rest => (word, { g with pending := rest })
  | [] =>
      match g.block with
      | word :: rest => (word, { g with counter := g.counter + 1, pending := rest })
      | [] => (0, g)

def next64 (g : ChaCha) : UInt64 × ChaCha :=
  let (low, g) := g.next32
  let (high, g) := g.next32
  (low.toUInt64 ||| (high.toUInt64 <<< 32), g)

instance : Words ChaCha := ⟨next32, next64⟩

def seedStep (s : UInt64) : UInt64 := s * 6364136223846793005 + 11634580027462260723

def seedWord (s : UInt64) : UInt32 :=
  let x := (((s >>> 18) ^^^ s) >>> 27).toUInt32
  let k := (s >>> 59).toUInt32
  (x >>> k) ||| (x <<< ((32 - k) % 32))

def seedRow (s : UInt64) : Row × UInt64 :=
  let s1 := seedStep s
  let s2 := seedStep s1
  let s3 := seedStep s2
  let s4 := seedStep s3
  (⟨seedWord s1, seedWord s2, seedWord s3, seedWord s4⟩, s4)

/-- The generator of a seed at the start of a stream; streams of one seed are
independent. -/
def ofStream (seed stream : UInt64) : ChaCha :=
  let (keyLow, s) := seedRow seed
  let (keyHigh, _) := seedRow s
  ⟨keyLow, keyHigh, stream, 0, []⟩

def ofSeed (seed : UInt64) : ChaCha := ofStream seed 0

end ChaCha

end DecisionSpace.Sampling
