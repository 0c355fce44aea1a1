import SpeechRom.Pack.Speech
import SpeechRom.Proofs.Attempt
import SpeechRom.Proofs.Pack.WellFormed

/-!
# Saying a bank, step by step

The banks that are being said form a *trail*: distinct banks of the pack.  A trail
is no longer than the pack has banks, so a search or a walk that puts a new bank on
its trail with every call ends before its fuel does.

`sayBank_succ` opens one level of `sayBank` on a trail that the bank is not on.
-/

namespace SpeechRom.Pack

variable {pack : Pack}

/-! ## Trails -/

/-- Distinct banks of the pack. -/
structure Trail (pack : Pack) (active : List BankId) : Prop where
  nodup : active.Nodup
  present : ∀ id ∈ active, id.index < pack.banks.size

theorem Trail.nil (pack : Pack) : pack.Trail [] :=
  ⟨List.nodup_nil, fun _ hmem => absurd hmem List.not_mem_nil⟩

theorem Trail.cons {active : List BankId} (htrail : pack.Trail active) {id : BankId}
    (hnew : id ∉ active) (hpresent : id.index < pack.banks.size) : pack.Trail (id :: active) :=
  ⟨List.nodup_cons.mpr ⟨hnew, htrail.nodup⟩,
    List.forall_mem_cons.mpr ⟨hpresent, htrail.present⟩⟩

/-- A trail is no longer than the pack has banks. -/
theorem Trail.length_le {active : List BankId} (htrail : pack.Trail active) :
    active.length ≤ pack.banks.size :=
  length_le_of_nodup (fun _ _ heq => congrArg BankId.mk heq) htrail.nodup htrail.present

/-! ## One level of saying -/

variable {σ : Type} {source : ChoiceSource σ}

/-- Say one token, while the banks in `active` are being said. -/
def sayToken (pack : Pack) (source : ChoiceSource σ) (fuel : Nat) (active : List BankId) :
    Token → Attempt BuildError σ (List String)
  | .word id =>
    match pack.word? id with
    | some word => pure [word.text]
    | none => throw (.danglingHandle (.word id))
  | .bank id => pack.sayBank source fuel active id

theorem sayBank_of_mem {fuel : Nat} {active : List BankId} {id : BankId} (hmem : id ∈ active) :
    pack.sayBank source fuel active id =
      throw (.ring ((id :: active).reverse.map pack.bankName)) := by
  cases fuel with
  | zero => rfl
  | succ fuel => rw [sayBank, if_pos hmem]

/-- A bank off the trail is said by choosing a phrase and saying its tokens. -/
theorem sayBank_succ {fuel : Nat} {active : List BankId} {id : BankId} {bank : Bank}
    (hnew : id ∉ active) (hbank : pack.bank? id = some bank)
    (hpopulated : 0 < bank.phrases.length) :
    pack.sayBank source (fuel + 1) active id = do
      let choice ← source.draw bank.phrases.length hpopulated
      let parts ← (bank.phrases.get choice).tokens.mapM (pack.sayToken source fuel (id :: active))
      return parts.flatten := by
  rw [sayBank, if_neg hnew]
  simp only [hbank, dif_pos hpopulated]
  refine bind_congr fun choice => ?_
  congr 2

theorem sayBank_of_none {fuel : Nat} {active : List BankId} {id : BankId}
    (hnew : id ∉ active) (hbank : pack.bank? id = none) :
    pack.sayBank source (fuel + 1) active id = throw (.danglingHandle (.bank id)) := by
  rw [sayBank, if_neg hnew]
  simp only [hbank]

theorem sayBank_of_empty {fuel : Nat} {active : List BankId} {id : BankId} {bank : Bank}
    (hnew : id ∉ active) (hbank : pack.bank? id = some bank)
    (hempty : ¬ 0 < bank.phrases.length) :
    pack.sayBank source (fuel + 1) active id = throw (.emptyBank bank.name) := by
  rw [sayBank, if_neg hnew]
  simp only [hbank, dif_neg hempty]

end SpeechRom.Pack
