import SpeechRom.Pack.Check
import SpeechRom.Random.Source

/-!
# Saying a phrase

A bank is said by choosing one of its phrases and saying its tokens from left
to right; a bank token says a phrase of that bank in turn.  A bank that is
asked for while it is being said would go on for ever, so that is refused.

The banks being said are distinct, so their number bounds the depth, which is
where the fuel of `sayBank` comes from.
-/

namespace SpeechRom.Pack

variable {σ : Type}

/-- Say a phrase of a bank, while the banks in `active` (newest first) are being said. -/
def sayBank (pack : Pack) (source : ChoiceSource σ) : (fuel : Nat) → (active : List BankId) →
    BankId → Attempt BuildError σ (List String)
  | 0, active, bank => throw (.ring ((bank :: active).reverse.map pack.bankName))
  | fuel + 1, active, bank =>
    if bank ∈ active then throw (.ring ((bank :: active).reverse.map pack.bankName))
    else
      match pack.bank? bank with
      | none => throw (.danglingHandle (.bank bank))
      | some entry =>
        if hpopulated : 0 < entry.phrases.length then do
          let choice ← source.draw entry.phrases.length hpopulated
          let parts ← entry.phrases[choice].tokens.mapM fun
            | .word id =>
              match pack.word? id with
              | some word => pure [word.text]
              | none => throw (.danglingHandle (.word id))
            | .bank id => sayBank pack source fuel (bank :: active) id
          return parts.flatten
        else throw (.emptyBank entry.name)

/-- The words of a phrase of a bank. -/
def sayWords (pack : Pack) (source : ChoiceSource σ) (bank : BankId) :
    Attempt BuildError σ (List String) :=
  pack.sayBank source (pack.banks.size + 1) [] bank

/-- A phrase of the bank with the given name, its words separated by spaces. -/
def say (pack : Pack) (source : ChoiceSource σ) (bank : String) : Attempt BuildError σ String :=
  match pack.findBank? bank with
  | none => throw (.unknownBank bank)
  | some entry => do
    let words ← pack.sayWords source entry.id
    return " ".intercalate words

end SpeechRom.Pack
