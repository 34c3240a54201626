import DecisionSpace.Sampling.ChaCha

/-! # Generators

A generator is either seeded or scripted.  A scripted generator gives the words
of a list in order and starts over at its end, so that a run can be steered. -/
set_option autoImplicit false
namespace DecisionSpace.Sampling

structure Script where
  words : List UInt64
  pending : List UInt64
  deriving DecidableEq

namespace Script

def ofWords (words : List UInt64) : Script := ⟨words, words⟩

def next64 (s : Script) : UInt64 × Script :=
  match s.pending with
  | word :: rest => (word, { s with pending := rest })
  | [] =>
      match s.words with
      | word :: rest => (word, { s with pending := rest })
      | [] => (0, s)

def next32 (s : Script) : UInt32 × Script :=
  let (word, s) := s.next64
  (word.toUInt32, s)

instance : Words Script := ⟨next32, next64⟩

end Script

inductive Generator where
  | seeded (g : ChaCha)
  | scripted (s : Script)
  deriving DecidableEq

namespace Generator

def next32 : Generator → UInt32 × Generator
  | .seeded g => let (word, g) := g.next32; (word, .seeded g)
  | .scripted s => let (word, s) := s.next32; (word, .scripted s)

def next64 : Generator → UInt64 × Generator
  | .seeded g => let (word, g) := g.next64; (word, .seeded g)
  | .scripted s => let (word, s) := s.next64; (word, .scripted s)

instance : Words Generator := ⟨next32, next64⟩

end Generator

end DecisionSpace.Sampling
