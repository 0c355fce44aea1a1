import SpeechRom.Proofs.Pack.Speech
import SpeechRom.Proofs.Rom.Playing
import SpeechRom.Proofs.Rom.RoundTrip

/-!
# Playing an image is saying its pack

The walk through the banks of a pack and the walk through the bytes of its image
take the same turns.  From equal states of the source they end alike: they speak
the same words, or both are caught in a ring, and either way they have made the
same choices (`play_inStep_sayWords`).

## Strategy

`Fits.banksInStep` is an induction on the fuel of the first walk.  The banks
on the trail and the offsets on the trail are the same, since banks have distinct
addresses, so both walks meet a ring at the same bank.  A trail is no longer than
the pack has banks, and both walks carry more fuel than the trail leaves room for,
so neither runs out first.
-/

namespace SpeechRom.Rom

variable {σ : Type} {source : ChoiceSource σ} {reader : Reader}

/-! ## What the two walks have in common -/

/-- The pointers lead to the words that are spoken, one to one. -/
def SpokenAs (pack : Pack) (addresses : AddressTable) : List String → List UInt16 → Prop :=
  List.Forall₂ fun text pointer => ∃ word ∈ pack.words.values,
    word.text = text ∧ addresses.offset? (.word word.id) = some pointer.toNat

/-- Both walks have come back to a bank that is still open. -/
def CaughtInRing (failure : BuildError) (defect : Defect) : Prop :=
  (∃ chain, failure = .ring chain) ∧ ∃ offset, defect = .bankWithinItself offset

section Walks

variable {pack : Pack} {vocabulary : Vocabulary} {start : Bank}

/-- Banks of a pack have distinct addresses. -/
theorem Fits.bank_injective (hfits : Fits pack vocabulary) {first second : Bank}
    (hfirst : first ∈ pack.banks.values) (hsecond : second ∈ pack.banks.values)
    (heq : (imageTable pack vocabulary).addressOf (.bank first.id) =
      (imageTable pack vocabulary).addressOf (.bank second.id)) : first = second := by
  have hpart : directoryPart first = directoryPart second := hfits.part_injective
    (regionParts_subset (directoryPart_mem hfirst)) (regionParts_subset (directoryPart_mem hsecond))
    (size_directoryPart_pos first) (size_directoryPart_pos second) heq
  have hentity : Entity.bank first.id = .bank second.id := congrArg Part.entity hpart
  exact hfits.well.indexed.bank_injective hfirst hsecond (Entity.bank.inj hentity)

/-- Words of a pack have distinct addresses. -/
theorem Fits.word_injective (hfits : Fits pack vocabulary) {first second : Word}
    (hfirst : first ∈ pack.words.values) (hsecond : second ∈ pack.words.values)
    (heq : (imageTable pack vocabulary).addressOf (.word first.id) =
      (imageTable pack vocabulary).addressOf (.word second.id)) : first = second := by
  have hpart : wordPart vocabulary first = wordPart vocabulary second :=
    hfits.part_injective (wordPart_mem hfirst) (wordPart_mem hsecond)
      (hfits.size_word_pos hfirst) (hfits.size_word_pos hsecond) heq
  have hentity : Entity.word first.id = .word second.id := congrArg Part.entity hpart
  exact hfits.well.indexed.word_injective hfirst hsecond (Entity.word.inj hentity)

/-- The addresses of the banks of a trail. -/
def addressesOf (pack : Pack) (vocabulary : Vocabulary) (active : List BankId) : List UInt16 :=
  active.map fun id => (imageTable pack vocabulary).addressOf (.bank id)

/-- A bank is on a trail exactly when its address is among the addresses of the trail. -/
theorem Fits.mem_addressesOf_iff (hfits : Fits pack vocabulary) {active : List BankId}
    (htrail : pack.Trail active) {bank : Bank} (hbank : bank ∈ pack.banks.values) :
    (imageTable pack vocabulary).addressOf (.bank bank.id) ∈ addressesOf pack vocabulary active ↔
      bank.id ∈ active := by
  constructor
  · intro hmem
    obtain ⟨id, hid, heq⟩ := List.mem_map.mp hmem
    obtain ⟨other, hother⟩ := Pack.bank?_isSome_of_lt (htrail.present id hid)
    have hsame : other.id = id := hfits.well.indexed.id_of_bank? hother
    subst hsame
    rwa [← hfits.bank_injective (Pack.mem_banks_of_bank? hother) hbank heq]
  · exact fun hmem => List.mem_map.mpr ⟨bank.id, hmem, rfl⟩

/-- On a trail, with fuel for either side, every bank is said and played in step. -/
def BanksInStep (pack : Pack) (vocabulary : Vocabulary) (reader : Reader)
    (source : ChoiceSource σ) (fuel other : Nat) (active : List BankId) : Prop :=
  ∀ bank ∈ pack.banks.values,
    Attempt.InStep (SpokenAs pack (imageTable pack vocabulary)) CaughtInRing
      (pack.sayBank source fuel active bank.id)
      (reader.playBank source other (addressesOf pack vocabulary active)
        ((imageTable pack vocabulary).addressOf (.bank bank.id)))

/-- Saying a token and playing its pointer are in step, if this is so for the banks. -/
theorem Fits.inStep_token (hfits : Fits pack vocabulary)
    (hshows : reader.Shows pack vocabulary start) {fuel other : Nat} {active : List BankId}
    (hbanks : BanksInStep pack vocabulary reader source fuel other active)
    {token : Token} (hresolves : pack.Resolves token) :
    Attempt.InStep (SpokenAs pack (imageTable pack vocabulary)) CaughtInRing
      (pack.sayToken source fuel active token)
      (reader.playToken source other (addressesOf pack vocabulary active)
        ((imageTable pack vocabulary).addressOf (.ofToken token))) := by
  have hmeets := hfits.meets hshows hresolves
  have htarget := Reader.target_eq_ok_iff.mpr ⟨hmeets.follows, rfl⟩
  rw [hmeets.kind] at htarget
  rw [Reader.playToken, htarget, Attempt.ofExcept_ok_bind]
  cases token with
  | word id =>
      obtain ⟨word, hword⟩ := Pack.word?_isSome_of_lt hresolves
      have hid : word.id = id := hfits.well.indexed.id_of_word? hword
      simp only [Pack.sayToken, hword, Target.ofToken]
      refine .pure (.cons ⟨word, Pack.mem_words_of_word? hword, rfl, ?_⟩ .nil)
      rw [hid]
      exact hmeets.address
  | bank id =>
      obtain ⟨bank, hbank⟩ := Pack.bank?_isSome_of_lt hresolves
      have hid : bank.id = id := hfits.well.indexed.id_of_bank? hbank
      subst hid
      exact hbanks bank (Pack.mem_banks_of_bank? hbank)

/-- Saying the tokens of a phrase and playing its record are in step, if this is so for the
banks. -/
theorem Fits.inStep_phrase (hfits : Fits pack vocabulary)
    (hshows : reader.Shows pack vocabulary start) {fuel other : Nat} {active : List BankId}
    (hbanks : BanksInStep pack vocabulary reader source fuel other active)
    {phrase : Phrase} (hsayable : pack.Sayable phrase) :
    Attempt.InStep (SpokenAs pack (imageTable pack vocabulary)) CaughtInRing
      (do
        let parts ← phrase.tokens.mapM (pack.sayToken source fuel active)
        return parts.flatten)
      (do
        let parts ← (targetsOf (imageTable pack vocabulary) phrase).mapM
          (reader.playToken source other (addressesOf pack vocabulary active))
        return parts.flatten) := by
  have hpointers : List.Forall₂ (fun token pointer =>
      pointer = (imageTable pack vocabulary).addressOf (.ofToken token))
      phrase.tokens (targetsOf (imageTable pack vocabulary) phrase) :=
    List.forall₂_map_right_iff.mpr (List.forall₂_same.mpr fun _ _ => rfl)
  have htokens : Attempt.InStep (List.Forall₂ (SpokenAs pack (imageTable pack vocabulary)))
      CaughtInRing (phrase.tokens.mapM (pack.sayToken source fuel active))
      ((targetsOf (imageTable pack vocabulary) phrase).mapM
        (reader.playToken source other (addressesOf pack vocabulary active))) := by
    refine Attempt.InStep.mapM hpointers ?_
    rintro token htoken _ rfl
    exact hfits.inStep_token hshows hbanks (hsayable.resolves token htoken)
  exact htokens.bind fun parts pointers hparts => .pure (List.rel_flatten hparts)

/-- **Saying a bank and playing its record are in step**, on any trail and with any fuel that the
trail cannot use up. -/
theorem Fits.banksInStep (hfits : Fits pack vocabulary)
    (hshows : reader.Shows pack vocabulary start) {fuel other : Nat} {active : List BankId}
    (htrail : pack.Trail active) (hfuel : pack.banks.size < fuel + active.length)
    (hother : pack.banks.size < other + active.length) :
    BanksInStep pack vocabulary reader source fuel other active := by
  induction fuel generalizing other active with
  | zero =>
      -- a trail this long would hold more banks than the pack has
      have hlength := htrail.length_le
      omega
  | succ fuel ih =>
      intro bank hbank
      by_cases hmem : bank.id ∈ active
      · rw [Pack.sayBank_of_mem hmem,
          Reader.playBank_of_mem ((hfits.mem_addressesOf_iff htrail hbank).mpr hmem)]
        exact .throw ⟨⟨_, rfl⟩, ⟨_, rfl⟩⟩
      · have hlength := htrail.length_le
        obtain ⟨other, rfl⟩ : ∃ less, other = less + 1 := ⟨other - 1, by omega⟩
        have hfound := hfits.well.indexed.bank?_of_mem hbank
        have hpopulated : 0 < bank.phrases.length :=
          List.length_pos_iff.mpr (hfits.well.populated bank hbank)
        have hnested : BanksInStep pack vocabulary reader source fuel other
            (bank.id :: active) := by
          refine ih (htrail.cons hmem (OrderedMap.lt_size_of_at? hfound)) ?_ ?_
          · rw [List.length_cons]
            omega
          · rw [List.length_cons]
            omega
        obtain ⟨hrecord, hphrases⟩ := hfits.readBank_eq hshows hbank
        have hnew : (imageTable pack vocabulary).addressOf (.bank bank.id) ∉
            addressesOf pack vocabulary active :=
          fun h => hmem ((hfits.mem_addressesOf_iff htrail hbank).mp h)
        rw [Pack.sayBank_succ hmem hfound hpopulated, Reader.playBank_succ hnew hrecord]
        refine (Attempt.InStep.draw source _ _ (by simp [decodedOf, directoryOf])).bind ?_
        -- both sides choose the same place, and the directory leads to the phrase there
        rintro ⟨choice, hchoice⟩ ⟨place, hplace⟩ hsame
        obtain rfl : choice = place := hsame
        have hphrase : bank.phrases[choice] ∈ bank.phrases := List.getElem_mem hchoice
        have hpointer : (decodedOf (imageTable pack vocabulary) bank
            (hfits.well.populated bank hbank)).record.phrases[choice] =
              (imageTable pack vocabulary).addressOf (.phrase bank.phrases[choice].id) :=
          List.getElem_map _
        have hread : reader.readPhrase (decodedOf (imageTable pack vocabulary) bank
            (hfits.well.populated bank hbank)).record.phrases[choice] =
              .ok (phraseRecordOf (imageTable pack vocabulary) bank.phrases[choice]) := by
          rw [hpointer]
          exact hphrases _ hphrase
        simp only [List.get_eq_getElem, hread, Attempt.ofExcept_ok_bind]
        exact hfits.inStep_phrase hshows hnested (hfits.well.sayable bank hbank _ hphrase)

/-- Every bank takes a byte of the phrase region at least. -/
theorem length_le_span_bankParts (banks : List Bank) :
    banks.length ≤ span (banks.flatMap bankParts) := by
  induction banks with
  | nil => exact Nat.le_refl 0
  | cons bank rest ih =>
      have hpos := size_directoryPart_pos bank
      rw [List.length_cons, List.flatMap_cons, span_append, bankParts, span_cons]
      omega

/-- The two walks through a linked image and its pack are in step. -/
theorem Fits.inStep_sayWords_play (hfits : Fits pack vocabulary)
    (hshows : reader.Shows pack vocabulary start) (hstart : start ∈ pack.banks.values) :
    Attempt.InStep (SpokenAs pack (imageTable pack vocabulary)) CaughtInRing
      (pack.sayWords source start.id) (reader.play source) := by
  have hbanks := length_le_span_bankParts pack.banks.values
  rw [OrderedMap.length_values] at hbanks
  have hfuel : pack.banks.size < reader.speechStart.toNat + 1 + ([] : List BankId).length := by
    rw [hshows.speechStart, regionEnd, regionParts, List.length_nil]
    omega
  rw [Pack.sayWords, Reader.play, hshows.primary]
  have hsay : pack.banks.size < pack.banks.size + 1 + ([] : List BankId).length :=
    Nat.lt_succ_self _
  exact hfits.banksInStep hshows (Pack.Trail.nil pack) hsay hfuel start hstart

end Walks

/-! ## The main statement -/

/-- **Playing a linked image is saying its pack.**  Over any number of turns in a row, each from
the state that the turn before has left, both sides succeed or both are caught in a ring; the
pointers of a turn lead to its words, one to one; and both leave the source in the same state. -/
theorem play_inStep_sayWords {sources : List Source} {pack : Pack}
    (hread : Pack.ofSources sources = .ok pack) {vocabulary : Vocabulary}
    (hspoken : ∀ data ∈ vocabulary.values, data ≠ []) {primary : String} {image : Image}
    (hlinked : Image.ofPack pack vocabulary primary = .ok image) (source : ChoiceSource σ) :
    ∃ reader start, Reader.open? image.bytes = .ok reader ∧
      pack.findBank? primary = some start ∧
      (∀ (count : Nat) (state : σ), List.Forall₂
        (Attempt.Alike (SpokenAs pack image.addresses) CaughtInRing)
        ((pack.sayWords source start.id).turns count state)
        ((reader.play source).turns count state)) ∧
      ∀ first ∈ pack.words.values, ∀ second ∈ pack.words.values,
        image.addresses.offset? (.word first.id) = image.addresses.offset? (.word second.id) →
          first = second := by
  obtain ⟨hfits, start, hmem, hstart, rfl⟩ := fits_of_linked hread hspoken hlinked
  obtain ⟨reader, hopen, hshows⟩ := hfits.exists_reader hmem
  refine ⟨reader, start, hopen, hstart, ?_, ?_⟩
  · exact fun count state => (hfits.inStep_sayWords_play hshows hmem).turns count state
  · intro first hfirst second hsecond heq
    have hleft := hfits.offset?_eq (wordPart_mem hfirst)
    have hright := hfits.offset?_eq (wordPart_mem hsecond)
    refine hfits.word_injective hfirst hsecond (UInt16.toNat_inj.mp (Option.some.inj ?_))
    exact hleft.symm.trans (heq.trans hright)

/-- A source that repeats every choice once and then moves on. -/
def pacing : ChoiceSource Nat where
  choose count hcount state := (⟨state / 2 % count, Nat.mod_lt _ hcount⟩, state + 1)

/-- The first turn speaks, the second one is caught in the ring of the two banks. -/
theorem play_inStep_sayWords_greeting :
    Pack.ofSources greetingSources = .ok greetingPack ∧
      (∀ data ∈ greetingVocabulary.values, data ≠ []) ∧
      ∃ image reader, Image.ofPack greetingPack greetingVocabulary "primary" = .ok image ∧
        Reader.open? image.bytes = .ok reader ∧
        (greetingPack.sayWords pacing ⟨0⟩).turns 2 0 =
          [(.ok ["hello", "world"], 2), (.error (.ring ["primary", "friend", "primary"]), 4)] ∧
        List.Forall₂ (Attempt.Alike (SpokenAs greetingPack image.addresses) CaughtInRing)
          ((greetingPack.sayWords pacing ⟨0⟩).turns 2 0) ((reader.play pacing).turns 2 0) := by
  obtain ⟨image, hlinked⟩ :
      ∃ image, Image.ofPack greetingPack greetingVocabulary "primary" = .ok image := ⟨_, rfl⟩
  obtain ⟨reader, start, hopen, hstart, hturns, _⟩ := play_inStep_sayWords
    ofSources_greetingSources ne_nil_of_mem_greetingVocabulary hlinked pacing
  have hid : start.id = ⟨0⟩ := by
    cases hstart
    rfl
  rw [hid] at hturns
  exact ⟨ofSources_greetingSources, ne_nil_of_mem_greetingVocabulary, image, reader, hlinked,
    hopen, rfl, hturns 2 0⟩

end SpeechRom.Rom
