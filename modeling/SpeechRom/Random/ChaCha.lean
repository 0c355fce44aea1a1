/-!
# A stream of random words

The stream cipher ChaCha with twelve rounds, run as a generator: a key of eight
words and a block counter determine sixteen words a block.  The key is expanded
from a 64-bit seed by a linear congruential step with a permuted output.
-/

namespace SpeechRom.Random

/-- Rotate the bits of a word to the left. -/
def rotateLeft (x : UInt32) (count : UInt32) : UInt32 := (x <<< count) ||| (x >>> (32 - count))

/-- Rotate the bits of a word to the right, by at most 31. -/
def rotateRight (x : UInt32) (count : UInt32) : UInt32 :=
  (x >>> count) ||| (x <<< ((32 - count) % 32))

/-- The sixteen words that a block is made from. -/
abbrev BlockState := Vector UInt32 16

/-- One quarter round on the words at four places. -/
def quarterRound (a b c d : Fin 16) (s : BlockState) : BlockState :=
  let s := s.set a (s[a] + s[b])
  let s := s.set d (rotateLeft (s[d] ^^^ s[a]) 16)
  let s := s.set c (s[c] + s[d])
  let s := s.set b (rotateLeft (s[b] ^^^ s[c]) 12)
  let s := s.set a (s[a] + s[b])
  let s := s.set d (rotateLeft (s[d] ^^^ s[a]) 8)
  let s := s.set c (s[c] + s[d])
  s.set b (rotateLeft (s[b] ^^^ s[c]) 7)

/-- A round down the columns and a round along the diagonals. -/
def doubleRound (s : BlockState) : BlockState :=
  let s := quarterRound 0 4 8 12 s
  let s := quarterRound 1 5 9 13 s
  let s := quarterRound 2 6 10 14 s
  let s := quarterRound 3 7 11 15 s
  let s := quarterRound 0 5 10 15 s
  let s := quarterRound 1 6 11 12 s
  let s := quarterRound 2 7 8 13 s
  quarterRound 3 4 9 14 s

/-- The start of a block: four constants, the key, the counter and an empty nonce. -/
def initialState (key : Vector UInt32 8) (counter : UInt64) : BlockState :=
  let constants : Vector UInt32 4 := #v[0x61707865, 0x3320646e, 0x79622d32, 0x6b206574]
  let position : Vector UInt32 4 := #v[counter.toUInt32, (counter >>> 32).toUInt32, 0, 0]
  constants ++ key ++ position

/-- The words of a block: twelve rounds, then the start added in. -/
def block (key : Vector UInt32 8) (counter : UInt64) : BlockState :=
  let start := initialState key counter
  let mixed := doubleRound (doubleRound (doubleRound (doubleRound (doubleRound
    (doubleRound start)))))
  Vector.zipWith (· + ·) mixed start

/-! ## From seed to key -/

/-- The step of the seed's congruential generator. -/
def seedStep (state : UInt64) : UInt64 := state * 6364136223846793005 + 11634580027462260723

/-- The word that a state of the seed's generator gives. -/
def seedWord (state : UInt64) : UInt32 :=
  rotateRight (((state >>> 18) ^^^ state) >>> 27).toUInt32 (state >>> 59).toUInt32

/-- The words of a key: one for each of the states that follow the seed. -/
def keyWords : (count : Nat) → (state : UInt64) → List UInt32
  | 0, _ => []
  | count + 1, state => seedWord (seedStep state) :: keyWords count (seedStep state)

theorem length_keyWords (count : Nat) (state : UInt64) :
    (keyWords count state).length = count := by
  induction count generalizing state with
  | zero => rfl
  | succ count ih => simp [keyWords, ih]

/-- The key of a seed. -/
def keyOfSeed (seed : UInt64) : Vector UInt32 8 :=
  ⟨(keyWords 8 seed).toArray, by simp [length_keyWords]⟩

/-! ## Draws of 64 bits -/

/-- A random stream: its key, the next block, and the draws left of the last one. -/
structure Stream where
  key : Vector UInt32 8
  counter : UInt64
  pending : List UInt64

/-- The stream of a seed, from its beginning. -/
def Stream.ofSeed (seed : UInt64) : Stream := ⟨keyOfSeed seed, 0, []⟩

/-- Words taken two by two, the first as the low half. -/
def pairWords : List UInt32 → List UInt64
  | low :: high :: rest => (high.toUInt64 <<< 32 ||| low.toUInt64) :: pairWords rest
  | _ => []

/-- The next draw, from the block at hand or from a new one. -/
def Stream.next (stream : Stream) : UInt64 × Stream :=
  match stream.pending with
  | draw :: rest => (draw, { stream with pending := rest })
  | [] =>
    match pairWords (block stream.key stream.counter).toList with
    | draw :: rest => (draw, { stream with counter := stream.counter + 1, pending := rest })
    | [] => (0, stream)

end SpeechRom.Random
