import SpeechRom.Random.Source
import SpeechRom.Rom.Reader

/-!
# Playing an image

The walk of a player through an image: choose a phrase of the primary bank and
follow its tokens from left to right, into banks and to words.  A bank that is
reached while it is being played is a defect.

Banks in play have distinct offsets below the speech data, which bounds the
depth and gives the fuel of `playBank`.
-/

namespace SpeechRom.Rom.Reader

variable {σ : Type}

/-- Play a phrase of the bank at an offset, while the banks in `active` are being played. -/
def playBank (reader : Reader) (source : ChoiceSource σ) : (fuel : Nat) →
    (active : List UInt16) → UInt16 → Attempt Defect σ (List UInt16)
  | 0, _, offset => throw (.bankWithinItself offset)
  | fuel + 1, active, offset =>
    if offset ∈ active then throw (.bankWithinItself offset)
    else do
      let bank ← Attempt.ofExcept (reader.readBank offset)
      let choice ← source.draw bank.phrases.length bank.populated
      let phrase ← Attempt.ofExcept (reader.readPhrase bank.phrases[choice])
      let parts ← phrase.tokens.mapM fun token => do
        match ← Attempt.ofExcept (reader.target token) with
        | .word pointer => return [pointer]
        | .bank nested => playBank reader source fuel (offset :: active) nested
      return parts.flatten

/-- Play a phrase of the primary bank: the addresses of its words in speaking order. -/
def play (reader : Reader) (source : ChoiceSource σ) : Attempt Defect σ (List UInt16) :=
  reader.playBank source (reader.speechStart.toNat + 1) [] reader.primary

end SpeechRom.Rom.Reader
