import SpeechRom.Proofs.Attempt
import SpeechRom.Rom.Playback

/-!
# Playing a bank, step by step

The banks that are being played form a *trail*: distinct offsets in front of the
speech data.  A trail is no longer than the speech data is far from the start of the
image, so a walk that puts a new bank on its trail with every call ends before its
fuel does.

`playBank_succ` opens one level of `playBank` on a trail that the bank is not on.
-/

namespace SpeechRom.Rom.Reader

variable {reader : Reader}

/-! ## Trails -/

/-- Distinct offsets in front of the speech data. -/
structure Trail (reader : Reader) (active : List UInt16) : Prop where
  nodup : active.Nodup
  before : ∀ offset ∈ active, offset.toNat < reader.speechStart.toNat

theorem Trail.nil (reader : Reader) : reader.Trail [] :=
  ⟨List.nodup_nil, fun _ hmem => absurd hmem List.not_mem_nil⟩

theorem Trail.cons {active : List UInt16} (htrail : reader.Trail active) {offset : UInt16}
    (hnew : offset ∉ active) (hbefore : offset.toNat < reader.speechStart.toNat) :
    reader.Trail (offset :: active) :=
  ⟨List.nodup_cons.mpr ⟨hnew, htrail.nodup⟩,
    List.forall_mem_cons.mpr ⟨hbefore, htrail.before⟩⟩

/-- A trail is no longer than the speech data is far. -/
theorem Trail.length_le {active : List UInt16} (htrail : reader.Trail active) :
    active.length ≤ reader.speechStart.toNat :=
  length_le_of_nodup (fun _ _ heq => UInt16.toNat_inj.mp heq) htrail.nodup htrail.before

/-! ## One level of playing -/

variable {σ : Type} {source : ChoiceSource σ}

/-- Play what one pointer leads to, while the banks in `active` are being played. -/
def playToken (reader : Reader) (source : ChoiceSource σ) (fuel : Nat) (active : List UInt16)
    (token : UInt16) : Attempt Defect σ (List UInt16) := do
  match ← Attempt.ofExcept (reader.target token) with
  | .word pointer => return [pointer]
  | .bank nested => reader.playBank source fuel active nested

theorem playBank_of_mem {fuel : Nat} {active : List UInt16} {offset : UInt16}
    (hmem : offset ∈ active) :
    reader.playBank source fuel active offset = throw (.bankWithinItself offset) := by
  cases fuel with
  | zero => rfl
  | succ fuel => rw [playBank, if_pos hmem]

/-- A bank off the trail is played by choosing a phrase and playing its tokens. -/
theorem playBank_succ {fuel : Nat} {active : List UInt16} {offset : UInt16} {bank : BankRecord}
    (hnew : offset ∉ active) (hbank : reader.readBank offset = .ok bank) :
    reader.playBank source (fuel + 1) active offset = do
      let choice ← source.draw bank.phrases.length bank.populated
      let phrase ← Attempt.ofExcept (reader.readPhrase (bank.phrases.get choice))
      let parts ← phrase.tokens.mapM (reader.playToken source fuel (offset :: active))
      return parts.flatten := by
  rw [playBank, if_neg hnew, hbank, Attempt.ofExcept_ok_bind]
  rfl

end SpeechRom.Rom.Reader
