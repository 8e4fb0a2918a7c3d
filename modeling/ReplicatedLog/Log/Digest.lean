import ReplicatedLog.Text.Ascii

/-!
# The digest of a key

A keyed entry without a partition of its own goes to the partition that the
digest of its key names.  The digest is the 64-bit sum of a four-word state that
is mixed once per word of input and three times at the end, without secret key.
The input is the length of the key as a word, then the key, then a last word
that holds the bytes left over and the length of the input.
-/

namespace ReplicatedLog
namespace Digest

/-- The state of the mixer. -/
structure State where
  a : UInt64
  b : UInt64
  c : UInt64
  d : UInt64
  deriving DecidableEq, Repr

/-- The state before any input. -/
def start : State :=
  ⟨0x736f6d6570736575, 0x646f72616e646f6d, 0x6c7967656e657261, 0x7465646279746573⟩

/-- Rotates a word to the left. -/
def rotate (x : UInt64) (n : UInt64) : UInt64 :=
  (x <<< n) ||| (x >>> (64 - n))

/-- Mixes the state once. -/
def State.mix (s : State) : State :=
  let a := s.a + s.b
  let b := rotate s.b 13 ^^^ a
  let a := rotate a 32
  let c := s.c + s.d
  let d := rotate s.d 16 ^^^ c
  let a := a + d
  let d := rotate d 21 ^^^ a
  let c := c + b
  let b := rotate b 17 ^^^ c
  let c := rotate c 32
  ⟨a, b, c, d⟩

/-- Takes in one word. -/
def State.absorb (s : State) (word : UInt64) : State :=
  let t := { s with d := s.d ^^^ word }.mix
  { t with a := t.a ^^^ word }

/-- The word that bytes denote, lowest first. -/
def word (bytes : Bytes) : UInt64 :=
  bytes.foldr (fun b w => (w <<< 8) ||| b.toUInt64) 0

/-- Takes in whole words while there are any, and then the bytes left over with the length. -/
def State.absorbAll (length : Nat) : Bytes → State → State
  | b₀ :: b₁ :: b₂ :: b₃ :: b₄ :: b₅ :: b₆ :: b₇ :: rest, s =>
      absorbAll length rest (s.absorb (word [b₀, b₁, b₂, b₃, b₄, b₅, b₆, b₇]))
  | rest, s => s.absorb (word rest ||| (length.toUInt64 <<< 56))

/-- The sum at the end of the input. -/
def State.finish (s : State) : UInt64 :=
  let s := { s with c := s.c ^^^ 0xff }.mix.mix.mix
  s.a ^^^ s.b ^^^ s.c ^^^ s.d

/-- The digest of a key. -/
def ofKey (key : Bytes) : UInt64 :=
  let s := start.absorb key.length.toUInt64
  (s.absorbAll (key.length + 8) key).finish

end Digest
end ReplicatedLog
