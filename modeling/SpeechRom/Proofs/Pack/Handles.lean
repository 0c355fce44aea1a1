import Mathlib.Data.List.Nodup
import SpeechRom.Pack.Basic
import SpeechRom.Proofs.OrderedMap

/-!
# Handles

A pack is *indexed* when every word and every bank carries its own position as
its handle and its own key as its text or name.  The empty pack is indexed, and
entering words, entering banks and adding phrases keep a pack indexed, so a
handle leads back to the entry that it was given out for.

A pack *extends* another when nothing was lost on the way: the words stand
where they stood, and every bank still has its phrases, in front of new ones.
-/

namespace SpeechRom.Pack

/-- Handles are positions, and entries are filed under their own text or name. -/
structure Indexed (pack : Pack) : Prop where
  words : pack.words.Filed fun position text word => word = ⟨⟨position⟩, text⟩
  banks : pack.banks.Filed fun position name bank => bank.id = ⟨position⟩ ∧ bank.name = name

/-! ## Following handles -/

theorem word?_isSome_of_lt {pack : Pack} {id : WordId} (hlt : id.index < pack.words.size) :
    ∃ word, pack.word? id = some word :=
  OrderedMap.exists_at?_of_lt hlt

theorem bank?_isSome_of_lt {pack : Pack} {id : BankId} (hlt : id.index < pack.banks.size) :
    ∃ bank, pack.bank? id = some bank :=
  OrderedMap.exists_at?_of_lt hlt

theorem mem_words_of_word? {pack : Pack} {id : WordId} {word : Word}
    (hword : pack.word? id = some word) : word ∈ pack.words.values :=
  OrderedMap.mem_values_of_at? hword

theorem mem_banks_of_bank? {pack : Pack} {id : BankId} {bank : Bank}
    (hbank : pack.bank? id = some bank) : bank ∈ pack.banks.values :=
  OrderedMap.mem_values_of_at? hbank

namespace Indexed

variable {pack : Pack}

theorem id_of_word? (hindexed : pack.Indexed) {id : WordId} {word : Word}
    (hword : pack.word? id = some word) : word.id = id := by
  obtain ⟨text, rfl⟩ := hindexed.words.exists_key hword
  rfl

theorem id_of_bank? (hindexed : pack.Indexed) {id : BankId} {bank : Bank}
    (hbank : pack.bank? id = some bank) : bank.id = id := by
  obtain ⟨name, hid, _⟩ := hindexed.banks.exists_key hbank
  exact hid

theorem word?_of_mem (hindexed : pack.Indexed) {word : Word} (hmem : word ∈ pack.words.values) :
    pack.word? word.id = some word := by
  obtain ⟨position, text, rfl, hat⟩ := hindexed.words.exists_position_of_mem hmem
  exact hat

theorem bank?_of_mem (hindexed : pack.Indexed) {bank : Bank} (hmem : bank ∈ pack.banks.values) :
    pack.bank? bank.id = some bank := by
  obtain ⟨position, name, ⟨hid, _⟩, hat⟩ := hindexed.banks.exists_position_of_mem hmem
  rw [hid]
  exact hat

theorem name_of_findBank? (hindexed : pack.Indexed) {name : String} {bank : Bank}
    (hfind : pack.findBank? name = some bank) : bank.name = name := by
  obtain ⟨position, ⟨_, hname⟩, _⟩ := hindexed.banks.exists_position_of_get? hfind
  exact hname

/-- A bank that stands in the pack is the one that is filed under its name. -/
theorem findBank?_of_mem (hindexed : pack.Indexed) {bank : Bank}
    (hmem : bank ∈ pack.banks.values) : pack.findBank? bank.name = some bank := by
  obtain ⟨⟨name, stored⟩, hentry, rfl⟩ := List.mem_map.mp hmem
  have hget : pack.banks.get? name = some stored := OrderedMap.get?_eq_some_iff.mpr hentry
  rw [hindexed.name_of_findBank? hget]
  exact hget

/-- A word that stands in the pack is the one that is filed under its text. -/
theorem getWord_of_mem (hindexed : pack.Indexed) {word : Word}
    (hmem : word ∈ pack.words.values) : pack.words.get? word.text = some word := by
  obtain ⟨⟨text, stored⟩, hentry, rfl⟩ := List.mem_map.mp hmem
  have hget : pack.words.get? text = some stored := OrderedMap.get?_eq_some_iff.mpr hentry
  obtain ⟨position, rfl, _⟩ := hindexed.words.exists_position_of_get? hget
  exact hget

/-- Words with the same handle are the same word. -/
theorem word_injective (hindexed : pack.Indexed) {first second : Word}
    (hfirst : first ∈ pack.words.values) (hsecond : second ∈ pack.words.values)
    (hid : first.id = second.id) : first = second := by
  have hword := hindexed.word?_of_mem hfirst
  rw [hid, hindexed.word?_of_mem hsecond] at hword
  exact (Option.some.inj hword).symm

/-- Banks with the same handle are the same bank. -/
theorem bank_injective (hindexed : pack.Indexed) {first second : Bank}
    (hfirst : first ∈ pack.banks.values) (hsecond : second ∈ pack.banks.values)
    (hid : first.id = second.id) : first = second := by
  have hbank := hindexed.bank?_of_mem hfirst
  rw [hid, hindexed.bank?_of_mem hsecond] at hbank
  exact (Option.some.inj hbank).symm

theorem map_id_words (hindexed : pack.Indexed) :
    pack.words.values.map (·.id) = (List.range pack.words.size).map WordId.mk :=
  hindexed.words.map_values fun _ _ _ hword => by rw [hword]

theorem map_id_banks (hindexed : pack.Indexed) :
    pack.banks.values.map (·.id) = (List.range pack.banks.size).map BankId.mk :=
  hindexed.banks.map_values fun _ _ _ hbank => hbank.1

theorem map_text_words (hindexed : pack.Indexed) :
    pack.words.values.map (·.text) = pack.words.keys :=
  hindexed.words.map_values_eq_keys fun _ _ _ hword => by rw [hword]

theorem nodup_map_id_words (hindexed : pack.Indexed) : (pack.words.values.map (·.id)).Nodup := by
  rw [hindexed.map_id_words]
  exact List.nodup_range.map fun _ _ heq => WordId.mk.inj heq

theorem nodup_map_id_banks (hindexed : pack.Indexed) : (pack.banks.values.map (·.id)).Nodup := by
  rw [hindexed.map_id_banks]
  exact List.nodup_range.map fun _ _ heq => BankId.mk.inj heq

end Indexed

/-! ## Growing keeps a pack indexed -/

theorem indexed_empty : Pack.empty.Indexed := ⟨.empty, .empty⟩

theorem Indexed.enterWord {pack : Pack} (hindexed : pack.Indexed) (text : String) :
    (pack.enterWord text).2.Indexed := by
  unfold Pack.enterWord
  split
  · exact hindexed
  · rename_i hnew
    exact ⟨hindexed.words.insert (OrderedMap.get?_eq_none_iff.mp hnew) rfl, hindexed.banks⟩

theorem Indexed.enterBank {pack : Pack} (hindexed : pack.Indexed) (name : String) :
    (pack.enterBank name).2.Indexed := by
  unfold Pack.enterBank
  split
  · exact hindexed
  · rename_i hnew
    exact ⟨hindexed.words,
      hindexed.banks.insert (OrderedMap.get?_eq_none_iff.mp hnew) ⟨rfl, rfl⟩⟩

theorem Indexed.addPhrase {pack : Pack} (hindexed : pack.Indexed) (id : BankId)
    (phrase : Phrase) : (pack.addPhrase id phrase).Indexed :=
  ⟨hindexed.words, hindexed.banks.modifyAt _ fun _ _ hfiled => hfiled⟩

/-! ## What entering gives and changes -/

/-- A word that is known keeps its handle, and the pack stays as it is. -/
theorem enterWord_of_getWord {pack : Pack} {text : String} {word : Word}
    (hget : pack.words.get? text = some word) : pack.enterWord text = (word.id, pack) := by
  rw [enterWord, hget]

/-- A bank that is known keeps its handle, and the pack stays as it is. -/
theorem enterBank_of_findBank? {pack : Pack} {name : String} {bank : Bank}
    (hfind : pack.findBank? name = some bank) : pack.enterBank name = (bank.id, pack) := by
  rw [findBank?] at hfind
  rw [enterBank, hfind]

theorem enterWord_banks (pack : Pack) (text : String) :
    (pack.enterWord text).2.banks = pack.banks := by
  unfold enterWord
  split <;> rfl

theorem enterBank_words (pack : Pack) (name : String) :
    (pack.enterBank name).2.words = pack.words := by
  unfold enterBank
  split <;> rfl

theorem keys_enterWord (pack : Pack) (text : String) :
    (pack.enterWord text).2.words.keys =
      if text ∈ pack.words.keys then pack.words.keys else pack.words.keys ++ [text] := by
  unfold enterWord
  split
  · rename_i hget
    rw [if_pos (OrderedMap.mem_keys_of_get? hget)]
  · exact OrderedMap.keys_insert _ _ _

theorem keys_enterBank (pack : Pack) (name : String) :
    (pack.enterBank name).2.banks.keys =
      if name ∈ pack.banks.keys then pack.banks.keys else pack.banks.keys ++ [name] := by
  unfold enterBank
  split
  · rename_i hget
    rw [if_pos (OrderedMap.mem_keys_of_get? hget)]
  · exact OrderedMap.keys_insert _ _ _

theorem word?_enterWord {pack : Pack} (hindexed : pack.Indexed) (text : String) :
    (pack.enterWord text).2.word? (pack.enterWord text).1 =
      some ⟨(pack.enterWord text).1, text⟩ := by
  unfold Pack.enterWord
  split
  · rename_i word hget
    obtain ⟨position, hword, hat⟩ := hindexed.words.exists_position_of_get? hget
    subst hword
    exact hat
  · rename_i hnew
    dsimp only
    rw [word?, OrderedMap.at?_insert_of_not_mem (OrderedMap.get?_eq_none_iff.mp hnew), if_pos rfl]

/-- A new bank gets a handle that led nowhere. -/
theorem bank?_fst_enterBank {pack : Pack} {name : String} (hnew : pack.findBank? name = none) :
    pack.bank? (pack.enterBank name).1 = none := by
  rw [findBank?] at hnew
  rw [enterBank, hnew, bank?, OrderedMap.at?_eq_getElem?_values, ← OrderedMap.length_values]
  exact List.getElem?_eq_none (Nat.le_refl _)

/-- A new bank has no phrases, and all other handles lead where they led. -/
theorem bank?_enterBank {pack : Pack} {name : String} (hnew : pack.findBank? name = none)
    (id : BankId) :
    (pack.enterBank name).2.bank? id =
      if id = (pack.enterBank name).1 then some ⟨id, name, []⟩ else pack.bank? id := by
  obtain ⟨position⟩ := id
  rw [findBank?] at hnew
  simp only [enterBank, hnew, bank?,
    OrderedMap.at?_insert_of_not_mem (OrderedMap.get?_eq_none_iff.mp hnew), BankId.mk.injEq]
  split
  · rename_i hlast
    rw [hlast]
  · rfl

/-- A handle that is in use leads where it led. -/
theorem bank?_enterBank_of_bank? {pack : Pack} {id : BankId} {bank : Bank}
    (hbank : pack.bank? id = some bank) (name : String) :
    (pack.enterBank name).2.bank? id = some bank := by
  cases hfind : pack.findBank? name with
  | some known =>
      rw [enterBank_of_findBank? hfind]
      exact hbank
  | none =>
      have hother : id ≠ (pack.enterBank name).1 := by
        rintro rfl
        rw [bank?_fst_enterBank hfind] at hbank
        cases hbank
      rw [bank?_enterBank hfind, if_neg hother]
      exact hbank

theorem bank?_addPhrase (pack : Pack) (id other : BankId) (phrase : Phrase) :
    (pack.addPhrase id phrase).bank? other =
      if other = id then
        (pack.bank? other).map fun bank => { bank with phrases := bank.phrases ++ [phrase] }
      else pack.bank? other := by
  obtain ⟨position⟩ := id
  obtain ⟨place⟩ := other
  simp [bank?, addPhrase, OrderedMap.at?_modifyAt]

/-! ## What growing leaves in place -/

/-- The second pack holds all that the first one holds, at the same handles. -/
structure Extends (before after : Pack) : Prop where
  words : before.words.entries <+: after.words.entries
  banks : ∀ id bank, before.bank? id = some bank → ∃ grown, after.bank? id = some grown ∧
    grown.name = bank.name ∧ bank.phrases <+: grown.phrases

namespace Extends

theorem refl (pack : Pack) : pack.Extends pack :=
  ⟨List.prefix_rfl, fun _ bank hbank => ⟨bank, hbank, rfl, List.prefix_rfl⟩⟩

theorem trans {first second third : Pack} (hfirst : first.Extends second)
    (hsecond : second.Extends third) : first.Extends third := by
  refine ⟨hfirst.words.trans hsecond.words, fun id bank hbank => ?_⟩
  obtain ⟨middle, hmiddle, hname, hphrases⟩ := hfirst.banks id bank hbank
  obtain ⟨last, hlast, hname', hphrases'⟩ := hsecond.banks id middle hmiddle
  exact ⟨last, hlast, hname'.trans hname, hphrases.trans hphrases'⟩

theorem word? {before after : Pack} (hextends : before.Extends after) {id : WordId}
    {word : Word} (hword : before.word? id = some word) : after.word? id = some word := by
  obtain ⟨entry, hentry, rfl⟩ := Option.map_eq_some_iff.mp hword
  obtain ⟨hlt, hget⟩ := List.getElem?_eq_some_iff.mp hentry
  obtain ⟨added, hadded⟩ := hextends.words
  refine Option.map_eq_some_iff.mpr ⟨entry, ?_, rfl⟩
  rw [← hadded, List.getElem?_append_left hlt]
  exact hentry

end Extends

theorem extends_enterWord (pack : Pack) (text : String) :
    pack.Extends (pack.enterWord text).2 := by
  unfold enterWord
  split
  · exact .refl pack
  · rename_i hnew
    refine ⟨?_, fun _ bank hbank => ⟨bank, hbank, rfl, List.prefix_rfl⟩⟩
    rw [OrderedMap.entries_insert_of_not_mem (OrderedMap.get?_eq_none_iff.mp hnew)]
    exact List.prefix_append _ _

theorem extends_enterBank (pack : Pack) (name : String) :
    pack.Extends (pack.enterBank name).2 := by
  refine ⟨?_, fun id bank hbank => ⟨bank, bank?_enterBank_of_bank? hbank name, rfl,
    List.prefix_rfl⟩⟩
  simp only [enterBank_words, List.prefix_rfl]

theorem extends_addPhrase (pack : Pack) (id : BankId) (phrase : Phrase) :
    pack.Extends (pack.addPhrase id phrase) := by
  refine ⟨List.prefix_rfl, fun other bank hbank => ?_⟩
  rw [bank?_addPhrase]
  split
  · exact ⟨{ bank with phrases := bank.phrases ++ [phrase] }, by simp [hbank], rfl,
      List.prefix_append _ _⟩
  · exact ⟨bank, hbank, rfl, List.prefix_rfl⟩

end SpeechRom.Pack
