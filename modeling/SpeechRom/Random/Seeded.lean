import SpeechRom.Random.ChaCha
import SpeechRom.Random.Source

/-!
# Uniform choices from a stream

A draw `v` of 64 bits gives the choice `v * n / 2 ^ 64` among `n`.  So that no
choice is favoured, a draw counts only if the low half of the product lies in a
zone whose size is a multiple of `n`; else the next draw is tried.
-/

namespace SpeechRom.Random

/-- The last low half that counts: the largest multiple `n * 2 ^ k` below `2 ^ 64`, less one. -/
def acceptedZone (n : Nat) : Nat := n <<< (63 - n.log2) - 1

/-- The number of draws after which a stream repeats: eight for each value of its counter. -/
def period : Nat := 8 * UInt64.size

/-- The share of `n` that a draw stands for is below `n`. -/
theorem share_lt (draw : UInt64) {n : Nat} (hn : 0 < n) : draw.toNat * n / UInt64.size < n := by
  refine Nat.div_lt_of_lt_mul ?_
  exact Nat.mul_lt_mul_of_pos_right draw.toNat_lt_size hn

/-- Try draws until one counts; a stream that never gives one gives the choice 0. -/
def chooseWithin (n : Nat) (hn : 0 < n) : (draws : Nat) → Stream → Fin n × Stream
  | 0, stream => (⟨0, hn⟩, stream)
  | draws + 1, stream =>
    let (draw, stream) := stream.next
    if draw.toNat * n % UInt64.size ≤ acceptedZone n then
      (⟨draw.toNat * n / UInt64.size, share_lt draw hn⟩, stream)
    else chooseWithin n hn draws stream

/-- The choices of a stream. -/
def streamSource : ChoiceSource Stream where
  choose count hcount stream := chooseWithin count hcount period stream

/-- Whether a source repeats its choices or takes its seed from outside. -/
inductive Mode where
  | predictable
  | uniform
  deriving DecidableEq, Repr

/-- How the mode is named. -/
def Mode.describe : Mode → String
  | .predictable => "Predictable"
  | .uniform => "RandomUniform"

/-- A random source: its mode and its stream. -/
structure Seeded where
  mode : Mode
  stream : Stream

namespace Seeded

/-- The source whose choices follow from a seed. -/
def predictable (seed : UInt64) : Seeded := ⟨.predictable, .ofSeed seed⟩

/-- A source seeded with entropy from outside. -/
def uniform (entropy : UInt64) : Seeded := ⟨.uniform, .ofSeed entropy⟩

end Seeded

end SpeechRom.Random
