import Mathlib.Data.List.Perm.Basic
import SpeechRom.Proofs.Pack.Handles

/-!
# Well-formed packs

A pack is well-formed when handles are positions, every phrase says something and
points at entries that exist, no two phrases share a number, and no bank is empty.
Packs that were read from sources are so; what is linked and spoken relies on it.
-/

namespace SpeechRom.Pack

/-- A token points at an entry of the pack. -/
def Resolves (pack : Pack) : Token → Prop
  | .word id => id.index < pack.words.size
  | .bank id => id.index < pack.banks.size

/-- What a token points at is an entry with that handle. -/
theorem Indexed.exists_word {pack : Pack} (hindexed : pack.Indexed) {id : WordId}
    (hresolves : pack.Resolves (.word id)) : ∃ word ∈ pack.words.values, word.id = id := by
  obtain ⟨word, hword⟩ := word?_isSome_of_lt hresolves
  exact ⟨word, mem_words_of_word? hword, hindexed.id_of_word? hword⟩

theorem Indexed.exists_bank {pack : Pack} (hindexed : pack.Indexed) {id : BankId}
    (hresolves : pack.Resolves (.bank id)) : ∃ bank ∈ pack.banks.values, bank.id = id := by
  obtain ⟨bank, hbank⟩ := bank?_isSome_of_lt hresolves
  exact ⟨bank, mem_banks_of_bank? hbank, hindexed.id_of_bank? hbank⟩

/-- A phrase says something, and all it points at is there. -/
structure Sayable (pack : Pack) (phrase : Phrase) : Prop where
  tokens_ne_nil : phrase.tokens ≠ []
  resolves : ∀ token ∈ phrase.tokens, pack.Resolves token

/-- The numbers of all phrases, bank by bank. -/
def phraseIds (pack : Pack) : List PhraseId :=
  pack.banks.values.flatMap fun bank => bank.phrases.map (·.id)

/-- What holds of every pack that was read from sources. -/
structure WellFormed (pack : Pack) : Prop where
  indexed : pack.Indexed
  sayable : ∀ bank ∈ pack.banks.values, ∀ phrase ∈ bank.phrases, pack.Sayable phrase
  distinct : pack.phraseIds.Nodup
  populated : ∀ bank ∈ pack.banks.values, bank.phrases ≠ []

/-! ## Adding a phrase -/

theorem perm_phraseIds_addPhrase {pack : Pack} {id : BankId} (hlt : id.index < pack.banks.size)
    (phrase : Phrase) :
    (pack.addPhrase id phrase).phraseIds.Perm (phrase.id :: pack.phraseIds) := by
  unfold phraseIds addPhrase
  rw [OrderedMap.values_modifyAt]
  exact perm_flatMap_modify (by simp) (by rwa [OrderedMap.length_values])

end SpeechRom.Pack
