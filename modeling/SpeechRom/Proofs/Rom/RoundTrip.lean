import SpeechRom.Proofs.Pack.Contents
import SpeechRom.Proofs.Rom.Decoding
import SpeechRom.Proofs.Rom.Linking

/-!
# Reading back what was linked

A linked image opens, and decoding it gives every bank of the pack in order, with
the addresses that the table holds for the bank, its phrases and their tokens;
and at the address of a word stands its data (`decode_linked`).

The bridge is `decodedOf`, the record of a bank as the address table has it: its
bytes are the written form of the bank, so the phrase region of an image is the
written form of the records, which is what decoding accepts.
-/

namespace SpeechRom.Rom

/-! ## The records of a pack -/

section Records

variable (addresses : AddressTable)

/-- The record of a phrase. -/
def phraseRecordOf (phrase : Phrase) : PhraseRecord :=
  ⟨addresses.addressOf (.phrase phrase.id), targetsOf addresses phrase⟩

/-- The record of a bank that has phrases. -/
def decodedOf (bank : Bank) (hpopulated : bank.phrases ≠ []) : DecodedBank where
  record :=
    { offset := addresses.addressOf (.bank bank.id)
      phrases := directoryOf addresses bank
      populated := by
        rw [directoryOf, List.length_map]
        exact List.length_pos_iff.mpr hpopulated }
  phrases := bank.phrases.map (phraseRecordOf addresses)

theorem bytes_phraseRecordOf (phrase : Phrase) :
    (phraseRecordOf addresses phrase).bytes = phraseForm addresses phrase := rfl

theorem bytes_decodedOf {bank : Bank} (hpopulated : bank.phrases ≠ []) :
    (decodedOf addresses bank hpopulated).bytes = bankForm addresses bank := by
  rw [DecodedBank.bytes, bankForm, decodedOf, List.flatMap_map]
  rfl

theorem flatMap_bytes_decodedOf {banks : List Bank}
    (hpopulated : ∀ bank ∈ banks, bank.phrases ≠ []) :
    (banks.pmap (decodedOf addresses) hpopulated).flatMap DecodedBank.bytes =
      banks.flatMap (bankForm addresses) := by
  induction banks with
  | nil => rfl
  | cons bank rest ih =>
      rw [List.pmap_cons, List.flatMap_cons, List.flatMap_cons, bytes_decodedOf, ih]

end Records

/-! ## The records stand in the image -/

namespace Reader

variable {reader : Reader} {addresses : AddressTable}

/-- Every token of a phrase points at a place that a player can go to. -/
def Followable (reader : Reader) (addresses : AddressTable) (phrase : Phrase) : Prop :=
  ∀ pointer ∈ targetsOf addresses phrase, reader.Follows pointer

theorem phrasesAt_map {bank : String} {index position : Nat} {phrases : List Phrase}
    (hagrees : Agrees addresses (stack position (phraseParts bank index phrases)))
    (hsettled : ∀ entry ∈ stack position (phraseParts bank index phrases), refusal entry = none)
    (hholds : HoldsAt reader.image.toList position (phrases.flatMap (phraseForm addresses)))
    (hfollowable : ∀ phrase ∈ phrases, reader.Followable addresses phrase) :
    reader.PhrasesAt position (phrases.map (phraseRecordOf addresses)) := by
  induction phrases generalizing position index with
  | nil => trivial
  | cons phrase rest ih =>
      rw [phraseParts_cons, stack] at hagrees hsettled
      obtain ⟨hplace, hagrees⟩ := agrees_cons.mp hagrees
      obtain ⟨hphrase, hsettled⟩ := List.forall_mem_cons.mp hsettled
      obtain ⟨hcount, hspace⟩ := refusal_eq_none_iff.mp hphrase
      rw [List.flatMap_cons, holdsAt_append, length_phraseForm] at hholds
      rw [List.map_cons, PhrasesAt, bytes_phraseRecordOf, length_phraseForm]
      refine ⟨toNat_addressOf hplace hspace, ⟨?_, hholds.1⟩,
        hfollowable phrase List.mem_cons_self, ih hagrees hsettled hholds.2 ?_⟩
      · rw [phraseRecordOf, targetsOf, List.length_map]
        exact objection_phrasePart_eq_none_iff.mp hcount
      · exact fun other hother => hfollowable other (List.mem_cons_of_mem _ hother)

theorem bankAt_decodedOf {position : Nat} {bank : Bank} (hpopulated : bank.phrases ≠ [])
    (hagrees : Agrees addresses (stack position (bankParts bank)))
    (hsettled : ∀ entry ∈ stack position (bankParts bank), refusal entry = none)
    (hholds : HoldsAt reader.image.toList position (bankForm addresses bank))
    (hfollowable : ∀ phrase ∈ bank.phrases, reader.Followable addresses phrase) :
    reader.BankAt position (decodedOf addresses bank hpopulated) := by
  rw [bankParts, stack] at hagrees hsettled
  obtain ⟨hplace, hagrees⟩ := agrees_cons.mp hagrees
  obtain ⟨hdirectory, hsettled⟩ := List.forall_mem_cons.mp hsettled
  obtain ⟨hcount, hspace⟩ := refusal_eq_none_iff.mp hdirectory
  have hlength : (directoryOf addresses bank).length = bank.phrases.length := by
    rw [directoryOf, List.length_map]
  have hsize : (recordBytes (directoryOf addresses bank)).length = (directoryPart bank).size := by
    rw [length_recordBytes, hlength]
    rfl
  rw [bankForm, holdsAt_append, hsize] at hholds
  refine ⟨toNat_addressOf hplace hspace, ⟨?_, hholds.1⟩, ?_, ?_⟩
  · exact hlength.trans_le (objection_directoryPart_eq_none_iff.mp hcount)
  · rw [decodedOf, List.map_map]
    rfl
  · have hphrases := phrasesAt_map hagrees hsettled hholds.2 hfollowable
    rw [decodedOf, hlength]
    exact hphrases

theorem banksAt_pmap {position : Nat} {banks : List Bank}
    (hpopulated : ∀ bank ∈ banks, bank.phrases ≠ [])
    (hagrees : Agrees addresses (stack position (banks.flatMap bankParts)))
    (hsettled : ∀ entry ∈ stack position (banks.flatMap bankParts), refusal entry = none)
    (hholds : HoldsAt reader.image.toList position (banks.flatMap (bankForm addresses)))
    (hfollowable : ∀ bank ∈ banks, ∀ phrase ∈ bank.phrases,
      reader.Followable addresses phrase) :
    reader.BanksAt position (banks.pmap (decodedOf addresses) hpopulated) := by
  induction banks generalizing position with
  | nil => trivial
  | cons bank rest ih =>
      rw [List.flatMap_cons, stack_append] at hagrees hsettled
      obtain ⟨hhere, hagrees⟩ := agrees_append.mp hagrees
      obtain ⟨hbank, hsettled⟩ := List.forall_mem_append.mp hsettled
      obtain ⟨hfollow, hfollowable⟩ := List.forall_mem_cons.mp hfollowable
      rw [List.flatMap_cons, holdsAt_append, length_bankForm] at hholds
      rw [List.pmap_cons, BanksAt, bytes_decodedOf, length_bankForm]
      exact ⟨bankAt_decodedOf _ hhere hbank hholds.1 hfollow,
        ih _ hagrees hsettled hholds.2 hfollowable⟩

end Reader

/-! ## Linked images and their readers -/

/-- A pack and speech data from which an image was linked. -/
structure Placed (pack : Pack) (vocabulary : Vocabulary) : Prop where
  well : pack.WellFormed
  settled : ∀ entry ∈ imageStack pack vocabulary, refusal entry = none
  size_le : imageSize pack vocabulary ≤ addressSpace

/-- All recordings have data besides. -/
structure Fits (pack : Pack) (vocabulary : Vocabulary) : Prop extends Placed pack vocabulary where
  spoken : ∀ data ∈ vocabulary.values, data ≠ []

/-- A reader whose image was linked from a pack. -/
structure Reader.Shows (reader : Reader) (pack : Pack) (vocabulary : Vocabulary)
    (start : Bank) : Prop where
  image : reader.image.toList = (linkedImage pack vocabulary start).bytes
  speechStart : reader.speechStart.toNat = regionEnd pack
  primary : reader.primary = (imageTable pack vocabulary).addressOf (.bank start.id)

/-- What a token points at, with its address. -/
def Target.ofToken (pointer : UInt16) : Token → Target
  | .word _ => .word pointer
  | .bank _ => .bank pointer

/-- A pointer in an image stands for a token of a pack. -/
structure Reader.Meets (reader : Reader) (addresses : AddressTable) (token : Token)
    (pointer : UInt16) : Prop where
  address : addresses.offset? (.ofToken token) = some pointer.toNat
  kind : reader.targetOf pointer = .ofToken pointer token
  follows : reader.Follows pointer

section Linked

variable {pack : Pack} {vocabulary : Vocabulary} {start : Bank} {reader : Reader}

theorem Placed.lt_of_mem (hplaced : Placed pack vocabulary) {part : Part} {offset : Nat}
    (hmem : (part, offset) ∈ imageStack pack vocabulary) : offset < addressSpace :=
  (refusal_eq_none_iff.mp (hplaced.settled _ hmem)).2

theorem Placed.regionEnd_lt (hplaced : Placed pack vocabulary) : regionEnd pack < addressSpace :=
  hplaced.lt_of_mem (mem_imageStack_speechStart pack vocabulary)

/-- The address of a part is the offset where it stands. -/
theorem Placed.toNat_address (hplaced : Placed pack vocabulary) {part : Part} {offset : Nat}
    (hmem : (part, offset) ∈ imageStack pack vocabulary) :
    ((imageTable pack vocabulary).addressOf part.entity).toNat = offset :=
  toNat_addressOf (offset?_of_mem_imageStack hplaced.well hmem) (hplaced.lt_of_mem hmem)

/-- Every part stands at its address. -/
theorem Placed.mem_imageStack (hplaced : Placed pack vocabulary) {part : Part}
    (hpart : part ∈ imageParts pack vocabulary) :
    (part, ((imageTable pack vocabulary).addressOf part.entity).toNat) ∈
      imageStack pack vocabulary := by
  obtain ⟨offset, hmem⟩ := exists_mem_imageStack hpart
  rwa [hplaced.toNat_address hmem]

theorem Placed.offset?_eq (hplaced : Placed pack vocabulary) {part : Part}
    (hpart : part ∈ imageParts pack vocabulary) :
    (imageTable pack vocabulary).offset? part.entity =
      some ((imageTable pack vocabulary).addressOf part.entity).toNat :=
  offset?_of_mem_imageStack hplaced.well (hplaced.mem_imageStack hpart)

/-- Parts that take bytes have distinct addresses. -/
theorem Placed.part_injective (hplaced : Placed pack vocabulary) {first second : Part}
    (hfirst : first ∈ imageParts pack vocabulary) (hsecond : second ∈ imageParts pack vocabulary)
    (hfirstSize : 0 < first.size) (hsecondSize : 0 < second.size)
    (heq : (imageTable pack vocabulary).addressOf first.entity =
      (imageTable pack vocabulary).addressOf second.entity) : first = second := by
  have hleft := hplaced.mem_imageStack hfirst
  have hright := hplaced.mem_imageStack hsecond
  rw [← heq] at hright
  exact eq_of_mem_stack hleft hright hfirstSize hsecondSize

/-- The address of a bank lies in the phrase region. -/
theorem Placed.address_bank (hplaced : Placed pack vocabulary) {bank : Bank}
    (hbank : bank ∈ pack.banks.values) :
    headerSize ≤ ((imageTable pack vocabulary).addressOf (.bank bank.id)).toNat ∧
      ((imageTable pack vocabulary).addressOf (.bank bank.id)).toNat < regionEnd pack := by
  obtain ⟨offset, hmem⟩ := exists_mem_stack (directoryPart_mem hbank) headerSize
  have haddress := hplaced.toNat_address (stack_regionParts_subset pack vocabulary hmem)
  rw [show (directoryPart bank).entity = .bank bank.id from rfl] at haddress
  have hbounds := bounds_of_mem_stack hmem
  have hpos := size_directoryPart_pos bank
  rw [haddress, regionEnd]
  omega

/-- Where a word is stacked, its data stands. -/
theorem exists_mem_stack_word {words : List Word} {word : Word} (hword : word ∈ words)
    (vocabulary : Vocabulary) (position : Nat) :
    ∃ offset, (wordPart vocabulary word, offset) ∈
        stack position (words.map (wordPart vocabulary)) ∧
      ∀ bytes, HoldsAt bytes position (words.flatMap (speechOf vocabulary)) →
        HoldsAt bytes offset (speechOf vocabulary word) := by
  obtain ⟨before, after, rfl⟩ := List.append_of_mem hword
  refine ⟨position + span (before.map (wordPart vocabulary)), ?_, fun bytes hholds => ?_⟩
  · rw [List.map_append, stack_append, List.map_cons, stack]
    exact List.mem_append_right _ List.mem_cons_self
  · rw [List.flatMap_append, holdsAt_append, List.flatMap_cons, holdsAt_append,
      ← span_words] at hholds
    exact hholds.2.1

theorem Placed.toNat_address_word (hplaced : Placed pack vocabulary) {word : Word} {offset : Nat}
    (hmem : (wordPart vocabulary word, offset) ∈ imageStack pack vocabulary) :
    ((imageTable pack vocabulary).addressOf (.word word.id)).toNat = offset := by
  have haddress := hplaced.toNat_address hmem
  rwa [show (wordPart vocabulary word).entity = .word word.id from rfl] at haddress

/-- The address of a word lies in the speech data, and its data with it. -/
theorem Placed.address_word (hplaced : Placed pack vocabulary) {word : Word}
    (hword : word ∈ pack.words.values) :
    regionEnd pack ≤ ((imageTable pack vocabulary).addressOf (.word word.id)).toNat ∧
      ((imageTable pack vocabulary).addressOf (.word word.id)).toNat +
        (wordPart vocabulary word).size ≤ imageSize pack vocabulary ∧
      ∀ bytes, HoldsAt bytes (regionEnd pack) (speechData pack vocabulary) →
        HoldsAt bytes ((imageTable pack vocabulary).addressOf (.word word.id)).toNat
          (speechOf vocabulary word) := by
  obtain ⟨offset, hmem, hdata⟩ := exists_mem_stack_word hword vocabulary (regionEnd pack)
  have hstack := mem_imageStack_of_words hmem
  have haddress := hplaced.toNat_address_word hstack
  have hbounds := bounds_of_mem_stack hmem
  rw [span_words] at hbounds
  rw [haddress]
  exact ⟨hbounds.1, hbounds.2, hdata⟩

theorem Placed.recorded (hplaced : Placed pack vocabulary) {word : Word}
    (hword : word ∈ pack.words.values) : (vocabulary.get? word.text).isSome :=
  isSome_get?_of_settled hplaced.settled hword

theorem Fits.size_word_pos (hfits : Fits pack vocabulary) {word : Word}
    (hword : word ∈ pack.words.values) : 0 < (wordPart vocabulary word).size :=
  size_pos_of_recorded hfits.spoken (hfits.recorded hword)

/-! ## Opening -/

theorem bytes_linkedImage (pack : Pack) (vocabulary : Vocabulary) (start : Bank) :
    (linkedImage pack vocabulary start).bytes =
      headerBytes (regionEnd pack) ((imageTable pack vocabulary).addressOf (.bank start.id)) ++
        regionBytes pack vocabulary ++ speechData pack vocabulary := rfl

/-- A linked image can be opened. -/
theorem Placed.exists_reader (hplaced : Placed pack vocabulary) (hstart : start ∈ pack.banks.values) :
    ∃ reader, Reader.open? (linkedImage pack vocabulary start).bytes = .ok reader ∧
      reader.Shows pack vocabulary start := by
  obtain ⟨hlow, hhigh⟩ := hplaced.address_bank hstart
  have hregion : (UInt16.ofNat (regionEnd pack)).toNat = regionEnd pack :=
    UInt16.toNat_ofNat_of_lt' hplaced.regionEnd_lt
  have hsize : regionEnd pack ≤ (linkedImage pack vocabulary start).bytes.toArray.size := by
    rw [List.size_toArray, length_linkedImage, imageSize]
    exact Nat.le_add_right _ _
  have hheader : HoldsAt (linkedImage pack vocabulary start).bytes 0
      (headerBytes (regionEnd pack) ((imageTable pack vocabulary).addressOf (.bank start.id))) := by
    rw [bytes_linkedImage, List.append_assoc]
    exact holdsAt_append_left [] _
  let reader : Reader :=
    { image := (linkedImage pack vocabulary start).bytes.toArray
      speechStart := UInt16.ofNat (regionEnd pack)
      primary := (imageTable pack vocabulary).addressOf (.bank start.id)
      headerSize_le_speechStart := by omega
      speechStart_le_size := by omega
      headerSize_le_primary := hlow
      primary_lt_speechStart := by omega }
  exact ⟨reader, Reader.open?_eq_ok_iff.mpr ⟨rfl, hheader⟩, rfl, hregion, rfl⟩

theorem Reader.Shows.size_image (hshows : reader.Shows pack vocabulary start) :
    reader.image.size = imageSize pack vocabulary := by
  rw [← Array.length_toList, hshows.image, length_linkedImage]

theorem Reader.Shows.holds_region (hshows : reader.Shows pack vocabulary start) :
    HoldsAt reader.image.toList headerSize (regionBytes pack vocabulary) := by
  rw [hshows.image, bytes_linkedImage]
  exact holdsAt_append_left _ _

theorem Reader.Shows.holds_speech (hshows : reader.Shows pack vocabulary start) :
    HoldsAt reader.image.toList (regionEnd pack) (speechData pack vocabulary) := by
  rw [hshows.image, bytes_linkedImage, ← List.append_nil (_ ++ speechData pack vocabulary)]
  have hlength : (headerBytes (regionEnd pack)
      ((imageTable pack vocabulary).addressOf (.bank start.id)) ++
        regionBytes pack vocabulary).length = regionEnd pack := by
    rw [List.length_append, length_headerBytes, length_regionBytes]
  rw [← hlength]
  exact holdsAt_append_left _ _

/-- The table has the place of what a token stands for. -/
theorem Placed.offset?_token (hplaced : Placed pack vocabulary) {token : Token}
    (hresolves : pack.Resolves token) :
    (imageTable pack vocabulary).offset? (.ofToken token) =
      some ((imageTable pack vocabulary).addressOf (.ofToken token)).toNat := by
  obtain ⟨part, hpart, hentity⟩ := exists_part_ofToken hplaced.well hresolves
  have haddress := hplaced.offset?_eq hpart
  rwa [hentity] at haddress

/-- What a token stands for is on the side of the speech data where its kind belongs. -/
theorem Placed.targetOf_token (hplaced : Placed pack vocabulary)
    (hshows : reader.Shows pack vocabulary start) {token : Token}
    (hresolves : pack.Resolves token) :
    reader.targetOf ((imageTable pack vocabulary).addressOf (.ofToken token)) =
      .ofToken ((imageTable pack vocabulary).addressOf (.ofToken token)) token := by
  have hspeech := hshows.speechStart
  cases token with
  | word id =>
      obtain ⟨word, hword, rfl⟩ := hplaced.well.indexed.exists_word hresolves
      obtain ⟨hlow, _, _⟩ := hplaced.address_word hword
      refine if_neg ?_
      rw [Entity.ofToken]
      omega
  | bank id =>
      obtain ⟨bank, hbank, rfl⟩ := hplaced.well.indexed.exists_bank hresolves
      obtain ⟨_, hhigh⟩ := hplaced.address_bank hbank
      refine if_pos ?_
      rw [Entity.ofToken]
      omega

/-- A player can go to every bank. -/
theorem Placed.follows_bank (hplaced : Placed pack vocabulary)
    (hshows : reader.Shows pack vocabulary start) {bank : Bank}
    (hbank : bank ∈ pack.banks.values) :
    reader.Follows ((imageTable pack vocabulary).addressOf (.bank bank.id)) := by
  obtain ⟨hlow, hhigh⟩ := hplaced.address_bank hbank
  have hsize := hshows.size_image
  have hregion : regionEnd pack ≤ imageSize pack vocabulary := Nat.le_add_right _ _
  exact ⟨hlow, by omega⟩

/-- A player can go to a word that stands in front of the end of the image. -/
theorem Placed.follows_word_iff (hplaced : Placed pack vocabulary)
    (hshows : reader.Shows pack vocabulary start) {word : Word}
    (hword : word ∈ pack.words.values) :
    reader.Follows ((imageTable pack vocabulary).addressOf (.word word.id)) ↔
      ((imageTable pack vocabulary).addressOf (.word word.id)).toNat < imageSize pack vocabulary := by
  obtain ⟨hlow, _, _⟩ := hplaced.address_word hword
  have hheader : headerSize ≤ regionEnd pack := Nat.le_add_right _ _
  rw [← hshows.size_image]
  exact ⟨And.right, fun hend => ⟨Nat.le_trans hheader hlow, hend⟩⟩

theorem Fits.follows_token (hfits : Fits pack vocabulary)
    (hshows : reader.Shows pack vocabulary start) {token : Token}
    (hresolves : pack.Resolves token) :
    reader.Follows ((imageTable pack vocabulary).addressOf (.ofToken token)) := by
  cases token with
  | word id =>
      obtain ⟨word, hword, rfl⟩ := hfits.well.indexed.exists_word hresolves
      obtain ⟨_, hhigh, _⟩ := hfits.address_word hword
      have hpos := hfits.size_word_pos hword
      exact (hfits.follows_word_iff hshows hword).mpr (by omega)
  | bank id =>
      obtain ⟨bank, hbank, rfl⟩ := hfits.well.indexed.exists_bank hresolves
      exact hfits.follows_bank hshows hbank

/-- The pointer of a token leads to what the token stands for. -/
theorem Fits.meets (hfits : Fits pack vocabulary) (hshows : reader.Shows pack vocabulary start)
    {token : Token} (hresolves : pack.Resolves token) :
    reader.Meets (imageTable pack vocabulary) token
      ((imageTable pack vocabulary).addressOf (.ofToken token)) where
  address := hfits.offset?_token hresolves
  kind := hfits.targetOf_token hshows hresolves
  follows := hfits.follows_token hshows hresolves

/-! ## Decoding -/

/-- A decoded bank has the addresses that a table holds for a bank of a pack. -/
structure Mirrors (addresses : AddressTable) (bank : Bank) (decoded : DecodedBank) : Prop where
  offset : addresses.offset? (.bank bank.id) = some decoded.record.offset.toNat
  directory : List.Forall₂ (fun phrase pointer =>
    addresses.offset? (.phrase phrase.id) = some pointer.toNat)
    bank.phrases decoded.record.phrases
  phrases : List.Forall₂ (fun phrase record =>
    addresses.offset? (.phrase phrase.id) = some record.offset.toNat ∧
      List.Forall₂ (fun token pointer =>
        addresses.offset? (.ofToken token) = some pointer.toNat) phrase.tokens record.tokens)
    bank.phrases decoded.phrases

theorem Fits.followable (hfits : Fits pack vocabulary)
    (hshows : reader.Shows pack vocabulary start) {bank : Bank}
    (hbank : bank ∈ pack.banks.values) {phrase : Phrase} (hphrase : phrase ∈ bank.phrases) :
    reader.Followable (imageTable pack vocabulary) phrase := by
  intro pointer hpointer
  obtain ⟨token, htoken, rfl⟩ := List.mem_map.mp hpointer
  have hresolves := (hfits.well.sayable bank hbank phrase hphrase).resolves token htoken
  exact (hfits.meets hshows hresolves).follows

/-- A token that points into the phrase region is a bank's. -/
theorem Placed.tokensHit (hplaced : Placed pack vocabulary)
    (hshows : reader.Shows pack vocabulary start) :
    reader.TokensHit (pack.banks.values.pmap (decodedOf (imageTable pack vocabulary))
      hplaced.well.populated) := by
  intro decoded hdecoded record hrecord pointer hpointer hregion
  obtain ⟨bank, hbank, rfl⟩ := List.mem_pmap.mp hdecoded
  obtain ⟨phrase, hphrase, rfl⟩ := List.mem_map.mp hrecord
  obtain ⟨token, htoken, rfl⟩ := List.mem_map.mp hpointer
  have hresolves := (hplaced.well.sayable bank hbank phrase hphrase).resolves token htoken
  have hkind := hplaced.targetOf_token hshows hresolves
  rw [Reader.targetOf, if_pos hregion] at hkind
  cases token with
  | word id => cases hkind
  | bank id =>
      obtain ⟨target, htarget, rfl⟩ := hplaced.well.indexed.exists_bank hresolves
      exact List.mem_map.mpr ⟨_, List.mem_pmap.mpr ⟨target, htarget, rfl⟩, rfl⟩

/-- The records of a pack stand in its image, if a player can follow their tokens. -/
theorem Placed.banksAt (hplaced : Placed pack vocabulary)
    (hshows : reader.Shows pack vocabulary start)
    (hfollowable : ∀ bank ∈ pack.banks.values, ∀ phrase ∈ bank.phrases,
      reader.Followable (imageTable pack vocabulary) phrase) :
    reader.BanksAt headerSize (pack.banks.values.pmap (decodedOf (imageTable pack vocabulary))
      hplaced.well.populated) := by
  refine Reader.banksAt_pmap _ (agrees_imageTable hplaced.well vocabulary) ?_
    hshows.holds_region hfollowable
  exact fun entry hentry => hplaced.settled entry (stack_regionParts_subset _ _ hentry)

theorem Fits.banksAt (hfits : Fits pack vocabulary)
    (hshows : reader.Shows pack vocabulary start) :
    reader.BanksAt headerSize (pack.banks.values.pmap (decodedOf (imageTable pack vocabulary))
      hfits.well.populated) :=
  hfits.toPlaced.banksAt hshows fun _ hbank _ hphrase => hfits.followable hshows hbank hphrase

/-- The records of a bank and of its phrases are read at their addresses. -/
theorem Fits.readBank_eq (hfits : Fits pack vocabulary)
    (hshows : reader.Shows pack vocabulary start) {bank : Bank}
    (hbank : bank ∈ pack.banks.values) :
    reader.readBank ((imageTable pack vocabulary).addressOf (.bank bank.id)) =
        .ok (decodedOf (imageTable pack vocabulary) bank (hfits.well.populated bank hbank)).record ∧
      ∀ phrase ∈ bank.phrases,
        reader.readPhrase ((imageTable pack vocabulary).addressOf (.phrase phrase.id)) =
          .ok (phraseRecordOf (imageTable pack vocabulary) phrase) := by
  obtain ⟨_, hat, _⟩ := (hfits.banksAt hshows).exists_position
    (List.mem_pmap.mpr ⟨bank, hbank, rfl⟩)
  refine ⟨hat.readBank_eq, fun phrase hphrase => ?_⟩
  have hrecord : phraseRecordOf (imageTable pack vocabulary) phrase ∈
      bank.phrases.map (phraseRecordOf (imageTable pack vocabulary)) :=
    List.mem_map_of_mem hphrase
  have hread := hat.phrases.readPhrase_eq hrecord
  rwa [phraseRecordOf] at hread ⊢

/-- A linked image decodes to the records of its pack. -/
theorem Placed.decode_eq (hplaced : Placed pack vocabulary)
    (hshows : reader.Shows pack vocabulary start) (hstart : start ∈ pack.banks.values)
    (hfollowable : ∀ bank ∈ pack.banks.values, ∀ phrase ∈ bank.phrases,
      reader.Followable (imageTable pack vocabulary) phrase) :
    reader.decode = .ok (pack.banks.values.pmap (decodedOf (imageTable pack vocabulary))
      hplaced.well.populated) := by
  refine Reader.decode_eq_ok_iff.mpr
    ⟨hplaced.banksAt hshows hfollowable, ?_, ?_, hplaced.tokensHit hshows⟩
  · rw [flatMap_bytes_decodedOf, hshows.speechStart]
    exact length_regionBytes pack vocabulary
  · rw [hshows.primary]
    exact List.mem_map.mpr ⟨_, List.mem_pmap.mpr ⟨start, hstart, rfl⟩, rfl⟩

theorem Fits.decode_eq (hfits : Fits pack vocabulary)
    (hshows : reader.Shows pack vocabulary start) (hstart : start ∈ pack.banks.values) :
    reader.decode = .ok (pack.banks.values.pmap (decodedOf (imageTable pack vocabulary))
      hfits.well.populated) :=
  hfits.toPlaced.decode_eq hshows hstart
    fun _ hbank _ hphrase => hfits.followable hshows hbank hphrase

theorem Placed.mirrors (hplaced : Placed pack vocabulary) {bank : Bank}
    (hbank : bank ∈ pack.banks.values) (hpopulated : bank.phrases ≠ []) :
    Mirrors (imageTable pack vocabulary) bank
      (decodedOf (imageTable pack vocabulary) bank hpopulated) := by
  have hphrases : ∀ phrase ∈ bank.phrases, (imageTable pack vocabulary).offset?
      (.phrase phrase.id) =
        some ((imageTable pack vocabulary).addressOf (.phrase phrase.id)).toNat := by
    intro phrase hphrase
    obtain ⟨index, hindex⟩ := List.mem_iff_getElem?.mp hphrase
    exact hplaced.offset?_eq (regionParts_subset (phrasePart_mem hbank hindex))
  refine ⟨hplaced.offset?_eq (regionParts_subset (directoryPart_mem hbank)), ?_, ?_⟩
  · exact List.forall₂_map_right_iff.mpr (List.forall₂_same.mpr hphrases)
  · refine List.forall₂_map_right_iff.mpr (List.forall₂_same.mpr fun phrase hphrase => ?_)
    refine ⟨hphrases phrase hphrase, ?_⟩
    refine List.forall₂_map_right_iff.mpr (List.forall₂_same.mpr fun token htoken => ?_)
    have hresolves := (hplaced.well.sayable bank hbank phrase hphrase).resolves token htoken
    obtain ⟨part, hpart, hentity⟩ := exists_part_ofToken hplaced.well hresolves
    rw [← hentity]
    exact hplaced.offset?_eq hpart

theorem fits_of_linked {sources : List Source} {primary : String} {image : Image}
    (hread : Pack.ofSources sources = .ok pack)
    (hspoken : ∀ data ∈ vocabulary.values, data ≠ [])
    (hlinked : Image.ofPack pack vocabulary primary = .ok image) :
    Fits pack vocabulary ∧ ∃ start ∈ pack.banks.values, pack.findBank? primary = some start ∧
      image = linkedImage pack vocabulary start := by
  have hwell := Pack.wellFormed_of_ofSources hread
  obtain ⟨start, hstart, hsettled, hsize, heq⟩ := (image_ofPack_eq_ok_iff hwell).mp hlinked
  exact ⟨⟨⟨hwell, hsettled, hsize⟩, hspoken⟩, start, OrderedMap.mem_values_of_get? hstart, hstart,
    heq⟩

end Linked

/-! ## The main statement -/

/-- **Opening and decoding undo linking.**  The reader has the header that was linked; decoding
gives every bank in order, with the addresses that the table holds for it, its phrases and their
tokens; a token's address leads to a bank or a word as the token does; and at the address of a
word stands its data. -/
theorem decode_linked {sources : List Source} {pack : Pack}
    (hread : Pack.ofSources sources = .ok pack) {vocabulary : Vocabulary}
    (hspoken : ∀ data ∈ vocabulary.values, data ≠ []) {primary : String} {image : Image}
    (hlinked : Image.ofPack pack vocabulary primary = .ok image) :
    ∃ reader start decoded, Reader.open? image.bytes = .ok reader ∧
      reader.speechStart.toNat = image.speechStart ∧
      pack.findBank? primary = some start ∧
      image.addresses.offset? (.bank start.id) = some reader.primary.toNat ∧
      reader.decode = .ok decoded ∧
      List.Forall₂ (Mirrors image.addresses) pack.banks.values decoded ∧
      (∀ bank ∈ pack.banks.values, ∀ phrase ∈ bank.phrases, ∀ token ∈ phrase.tokens,
        ∃ pointer, image.addresses.address (.ofToken token) = .ok pointer ∧
          reader.targetOf pointer = .ofToken pointer token) ∧
      ∀ word ∈ pack.words.values, ∃ offset data,
        image.addresses.offset? (.word word.id) = some offset ∧
          vocabulary.get? word.text = some data ∧
          (image.bytes.drop offset).take data.length = data := by
  obtain ⟨hfits, start, hmem, hstart, rfl⟩ := fits_of_linked hread hspoken hlinked
  obtain ⟨reader, hopen, hshows⟩ := hfits.exists_reader hmem
  refine ⟨reader, start, _, hopen, hshows.speechStart, hstart, ?_, hfits.decode_eq hshows hmem,
    ?_, ?_, ?_⟩
  · rw [hshows.primary]
    exact hfits.offset?_eq (regionParts_subset (directoryPart_mem hmem))
  · exact forall₂_pmap _ fun bank hpopulated hbank => hfits.mirrors hbank hpopulated
  · intro bank hbank phrase hphrase token htoken
    have hresolves := (hfits.well.sayable bank hbank phrase hphrase).resolves token htoken
    have hmeets := hfits.meets hshows hresolves
    exact ⟨_, address_eq_ok_iff.mpr ⟨by simp [linkedImage, hmeets.address], rfl⟩, hmeets.kind⟩
  · intro word hword
    obtain ⟨_, _, hdata⟩ := hfits.address_word hword
    obtain ⟨data, hget⟩ := Option.isSome_iff_exists.mp (hfits.recorded hword)
    have hholds := hdata _ hshows.holds_speech
    rw [speechOf, hget, hshows.image] at hholds
    exact ⟨_, data, hfits.offset?_eq (wordPart_mem hword), hget, hholds.take_drop_eq⟩

theorem decode_linked_greeting :
    Pack.ofSources greetingSources = .ok greetingPack ∧
      (∀ data ∈ greetingVocabulary.values, data ≠ []) ∧
      ∃ image reader decoded,
        Image.ofPack greetingPack greetingVocabulary "primary" = .ok image ∧
          Reader.open? image.bytes = .ok reader ∧ reader.speechStart.toNat = 23 ∧
          reader.decode = .ok decoded ∧
          List.Forall₂ (Mirrors image.addresses) greetingPack.banks.values decoded := by
  obtain ⟨image, hlinked, hstart⟩ : ∃ image,
      Image.ofPack greetingPack greetingVocabulary "primary" = .ok image ∧
        image.speechStart = 23 := ⟨_, rfl, rfl⟩
  obtain ⟨reader, _, decoded, hopen, hspeech, _, _, hdecode, hmirrors, _⟩ :=
    decode_linked ofSources_greetingSources ne_nil_of_mem_greetingVocabulary hlinked
  exact ⟨ofSources_greetingSources, ne_nil_of_mem_greetingVocabulary, image, reader, decoded,
    hlinked, hopen, hspeech.trans hstart, hdecode, hmirrors⟩

end SpeechRom.Rom
