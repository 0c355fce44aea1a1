import SpeechRom.Attempt

/-!
# Sources of choices

Saying a phrase takes one choice after another.  A source answers every request
for a choice with an index below the count asked for; that the index is in
range, and that the count is not zero, is part of its type.
-/

namespace SpeechRom

/-- A deterministic source of choices with states in `σ`. -/
structure ChoiceSource (σ : Type) where
  /-- The next choice among `count` and the state after it. -/
  choose : (count : Nat) → 0 < count → σ → Fin count × σ

/-- Take the next choice among `count`. -/
def ChoiceSource.draw {ε σ : Type} (source : ChoiceSource σ) (count : Nat) (hcount : 0 < count) :
    Attempt ε σ (Fin count) :=
  ExceptT.lift (modifyGet (source.choose count hcount))

end SpeechRom
