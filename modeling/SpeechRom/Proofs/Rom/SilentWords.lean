import SpeechRom.Build
import SpeechRom.Proofs.Rom.Consistency
import SpeechRom.Proofs.Rom.RoundTrip

/-!
# Words without data

Encoding a recording gives data or fails, but a vocabulary can also be put together by hand, and
then a word may have none.  It is linked all the same: it takes no byte and stands where the next
word stands, or, if no word with data comes behind it, where the image ends.  A reader refuses to
follow a pointer to that place.

So whether an image that was linked can be read back is a matter of its last word alone
(`readable_unless_silent`): if this word has data, every token pointer in the image leads to
what it stands for, and the image can be decoded; if it has none, some pointer leads to the end
of the image, and decoding fails.

## Strategy

All words start where the last one starts or in front of it, and some phrase says the last one.
That decoding fails when one pointer cannot be followed needs that it meets this pointer: records
are determined by where they stand, so the ones it reads are those that were written
(`Reader.BanksAt.tokens_eq`).
-/

namespace SpeechRom.Rom

/-! ## Records are determined by their places -/

namespace Reader

variable {reader : Reader} {addresses : AddressTable}

theorem HasRecord.eq {offset : UInt16} {pointers others : List UInt16}
    (hpointers : reader.HasRecord offset.toNat pointers)
    (hothers : reader.HasRecord offset.toNat others) : pointers = others := by
  have hfirst : reader.record .phrase offset = .ok pointers := record_eq_ok_iff.mpr hpointers
  have hsecond : reader.record .phrase offset = .ok others := record_eq_ok_iff.mpr hothers
  exact Except.ok.inj (hfirst.symm.trans hsecond)

/-- Where phrases were written, phrases with these tokens are read. -/
theorem PhrasesAt.tokens_eq {position : Nat} {records : List PhraseRecord} {phrases : List Phrase}
    (hat : reader.PhrasesAt position records)
    (hholds : HoldsAt reader.image.toList position (phrases.flatMap (phraseForm addresses)))
    (hcounts : ∀ phrase ∈ phrases, phrase.tokens.length ≤ countLimit)
    (hlength : records.length = phrases.length) :
    records.map (·.tokens) = phrases.map (targetsOf addresses) := by
  induction phrases generalizing position records with
  | nil =>
      rw [List.length_eq_zero_iff.mp hlength]
      rfl
  | cons phrase rest ih =>
      cases records with
      | nil => cases hlength
      | cons record others =>
          obtain ⟨rfl, hrecord, _, hothers⟩ := hat
          rw [List.flatMap_cons, holdsAt_append] at hholds
          obtain ⟨hcount, hcounts⟩ := List.forall_mem_cons.mp hcounts
          have htokens : record.tokens = targetsOf addresses phrase := by
            refine hrecord.eq ⟨?_, hholds.1⟩
            rwa [targetsOf, List.length_map]
          have hbytes : record.bytes = phraseForm addresses phrase := congrArg recordBytes htokens
          rw [hbytes] at hothers
          rw [List.map_cons, List.map_cons, htokens,
            ih hothers hholds.2 hcounts (Nat.succ.inj hlength)]

theorem PhrasesAt.follows {position : Nat} {records : List PhraseRecord}
    (hat : reader.PhrasesAt position records) {record : PhraseRecord} (hrecord : record ∈ records)
    {token : UInt16} (htoken : token ∈ record.tokens) : reader.Follows token := by
  induction records generalizing position with
  | nil => cases hrecord
  | cons first rest ih =>
      obtain ⟨_, _, hfollows, hrest⟩ := hat
      rcases List.mem_cons.mp hrecord with rfl | hrecord
      · exact hfollows token htoken
      · exact ih hrest hrecord

/-- Where a bank was written, a bank with these tokens and bytes is read. -/
theorem BankAt.tokens_eq {position : Nat} {decoded : DecodedBank} {bank : Bank}
    (hat : reader.BankAt position decoded)
    (hholds : HoldsAt reader.image.toList position (bankForm addresses bank))
    (hdirectory : bank.phrases.length ≤ countLimit)
    (hcounts : ∀ phrase ∈ bank.phrases, phrase.tokens.length ≤ countLimit) :
    decoded.phrases.map (·.tokens) = bank.phrases.map (targetsOf addresses) ∧
      decoded.bytes = bankForm addresses bank := by
  obtain ⟨rfl, hrecord, hnames, hphrases⟩ := hat
  rw [bankForm, holdsAt_append] at hholds
  have hlengths : (directoryOf addresses bank).length = bank.phrases.length := by
    rw [directoryOf, List.length_map]
  have hdirectoryEq : decoded.record.phrases = directoryOf addresses bank :=
    hrecord.eq ⟨hlengths ▸ hdirectory, hholds.1⟩
  have hcount : decoded.phrases.length = bank.phrases.length := by
    rw [← hlengths, ← hdirectoryEq, hnames, List.length_map]
  rw [hdirectoryEq, hlengths] at hphrases
  have hplaced := hholds.2
  rw [length_recordBytes, hlengths] at hplaced
  have htokens := hphrases.tokens_eq hplaced hcounts hcount
  refine ⟨htokens, ?_⟩
  have hforms : decoded.phrases.flatMap PhraseRecord.bytes =
      bank.phrases.flatMap (phraseForm addresses) := by
    calc decoded.phrases.flatMap PhraseRecord.bytes
        = (decoded.phrases.map (·.tokens)).flatMap recordBytes := by rw [List.flatMap_map]; rfl
      _ = (bank.phrases.map (targetsOf addresses)).flatMap recordBytes := by rw [htokens]
      _ = bank.phrases.flatMap (phraseForm addresses) := by rw [List.flatMap_map]; rfl
  rw [DecodedBank.bytes, bankForm, hdirectoryEq, hforms]

/-- Where banks were written, banks with these tokens are read, if they end where the written ones
end. -/
theorem BanksAt.tokens_eq {position : Nat} {decoded : List DecodedBank} {banks : List Bank}
    (hat : reader.BanksAt position decoded)
    (hholds : HoldsAt reader.image.toList position (banks.flatMap (bankForm addresses)))
    (hdirectories : ∀ bank ∈ banks, bank.phrases.length ≤ countLimit)
    (hcounts : ∀ bank ∈ banks, ∀ phrase ∈ bank.phrases, phrase.tokens.length ≤ countLimit)
    (hlength : (decoded.flatMap DecodedBank.bytes).length =
      (banks.flatMap (bankForm addresses)).length) :
    decoded.map (fun bank => bank.phrases.map (·.tokens)) =
      banks.map (fun bank => bank.phrases.map (targetsOf addresses)) := by
  induction banks generalizing position decoded with
  | nil =>
      cases decoded with
      | nil => rfl
      | cons bank rest =>
          have hpos := bank.length_bytes_pos
          rw [List.flatMap_cons, List.length_append, List.flatMap_nil, List.length_nil] at hlength
          omega
  | cons bank rest ih =>
      cases decoded with
      | nil =>
          rw [List.flatMap_cons, List.length_append, bankForm, List.length_append,
            length_recordBytes, phraseRecordSize] at hlength
          simp only [List.flatMap_nil, List.length_nil] at hlength
          omega
      | cons first others =>
          rw [List.flatMap_cons, holdsAt_append] at hholds
          obtain ⟨hdirectory, hdirectories⟩ := List.forall_mem_cons.mp hdirectories
          obtain ⟨hcount, hcounts⟩ := List.forall_mem_cons.mp hcounts
          obtain ⟨htokens, hbytes⟩ := hat.1.tokens_eq hholds.1 hdirectory hcount
          have hothers := hat.2
          rw [hbytes] at hothers
          rw [List.flatMap_cons, List.flatMap_cons, List.length_append, List.length_append, hbytes,
            Nat.add_left_cancel_iff] at hlength
          rw [List.map_cons, List.map_cons, htokens,
            ih hothers hholds.2 hdirectories hcounts hlength]

/-- A reader refuses to go to the end of the image or behind it. -/
theorem target_of_size_le {pointer : UInt16} (hheader : headerSize ≤ pointer.toNat)
    (hend : reader.image.size ≤ pointer.toNat) :
    reader.target pointer = .error (.tokenOutside pointer) := by
  rw [target, if_neg (Nat.not_lt_of_le hheader), if_neg (Nat.not_lt_of_le hend)]

end Reader

/-! ## The last word -/

/-- The last word of the pack has no data. -/
def EndsSilent (pack : Pack) (vocabulary : Vocabulary) : Prop :=
  ∃ word, pack.words.values.getLast? = some word ∧ vocabulary.get? word.text = some []

section Placed

variable {pack : Pack} {vocabulary : Vocabulary} {start : Bank} {reader : Reader}

/-- The last word starts behind the data of all others. -/
theorem Placed.address_last (hplaced : Placed pack vocabulary) {front : List Word} {last : Word}
    (hwords : pack.words.values = front ++ [last]) :
    ((imageTable pack vocabulary).addressOf (.word last.id)).toNat =
      regionEnd pack + span (front.map (wordPart vocabulary)) := by
  have hmem : (wordPart vocabulary last, regionEnd pack + span (front.map (wordPart vocabulary))) ∈
      imageStack pack vocabulary := by
    refine mem_imageStack_of_words ?_
    rw [hwords, List.map_append, stack_append]
    exact List.mem_append_right _ List.mem_cons_self
  exact hplaced.toNat_address_word hmem

/-- The data of the last word ends with the image. -/
theorem Placed.address_last_add_size (hplaced : Placed pack vocabulary) {last : Word}
    (hlast : pack.words.values.getLast? = some last) :
    ((imageTable pack vocabulary).addressOf (.word last.id)).toNat +
      (wordPart vocabulary last).size = imageSize pack vocabulary := by
  obtain ⟨front, hwords⟩ := List.getLast?_eq_some_iff.mp hlast
  rw [hplaced.address_last hwords, imageSize, speechData, ← span_words, hwords, List.map_append,
    span_append, List.map_singleton, span_cons, span_nil]
  omega

/-- A last word without data stands where the image ends. -/
theorem Placed.address_silent_last (hplaced : Placed pack vocabulary) {last : Word}
    (hlast : pack.words.values.getLast? = some last)
    (hsilent : vocabulary.get? last.text = some []) :
    ((imageTable pack vocabulary).addressOf (.word last.id)).toNat = imageSize pack vocabulary := by
  have hend := hplaced.address_last_add_size hlast
  have hsize : (wordPart vocabulary last).size = 0 := by
    rw [wordPart, speechOf, hsilent]
    rfl
  omega

/-- No word starts behind the last one. -/
theorem Placed.address_le_last (hplaced : Placed pack vocabulary) {last : Word}
    (hlast : pack.words.values.getLast? = some last) {word : Word}
    (hword : word ∈ pack.words.values) :
    ((imageTable pack vocabulary).addressOf (.word word.id)).toNat ≤
      ((imageTable pack vocabulary).addressOf (.word last.id)).toNat := by
  obtain ⟨front, hwords⟩ := List.getLast?_eq_some_iff.mp hlast
  rw [hwords, List.mem_append, List.mem_singleton] at hword
  rcases hword with hword | rfl
  · obtain ⟨offset, hmem, _⟩ := exists_mem_stack_word hword vocabulary (regionEnd pack)
    have hstack : (wordPart vocabulary word, offset) ∈ imageStack pack vocabulary := by
      refine mem_imageStack_of_words ?_
      rw [hwords, List.map_append, stack_append]
      exact List.mem_append_left _ hmem
    have hbounds := bounds_of_mem_stack hmem
    rw [hplaced.toNat_address_word hstack, hplaced.address_last hwords]
    omega
  · exact Nat.le_refl _

/-- A player can go to all words exactly if the last one has data. -/
theorem Placed.follows_words_iff (hplaced : Placed pack vocabulary)
    (hshows : reader.Shows pack vocabulary start) :
    (∀ word ∈ pack.words.values,
        reader.Follows ((imageTable pack vocabulary).addressOf (.word word.id))) ↔
      ¬ EndsSilent pack vocabulary := by
  constructor
  · rintro hfollows ⟨last, hlast, hsilent⟩
    have hmem := List.mem_of_getLast? hlast
    have hlt := (hplaced.follows_word_iff hshows hmem).mp (hfollows last hmem)
    exact Nat.ne_of_lt hlt (hplaced.address_silent_last hlast hsilent)
  · intro hspoken word hword
    obtain ⟨last, hlast⟩ : ∃ last, pack.words.values.getLast? = some last :=
      ⟨_, List.getLast?_eq_some_getLast (List.ne_nil_of_mem hword)⟩
    have hpos : 0 < (wordPart vocabulary last).size :=
      size_wordPart_pos (hplaced.recorded (List.mem_of_getLast? hlast))
        fun hsilent => hspoken ⟨last, hlast, hsilent⟩
    have hle := hplaced.address_le_last hlast hword
    have hend := hplaced.address_last_add_size hlast
    exact (hplaced.follows_word_iff hshows hword).mpr (by omega)

/-! ## Following and decoding -/

/-- A player can go wherever the tokens point exactly if it can go to all words, since every word is
said by some phrase. -/
theorem Placed.followable_iff (hplaced : Placed pack vocabulary)
    (hshows : reader.Shows pack vocabulary start)
    (hused : ∀ word ∈ pack.words.values, ∃ bank ∈ pack.banks.values, ∃ phrase ∈ bank.phrases,
      Token.word word.id ∈ phrase.tokens) :
    (∀ bank ∈ pack.banks.values, ∀ phrase ∈ bank.phrases,
        reader.Followable (imageTable pack vocabulary) phrase) ↔
      ∀ word ∈ pack.words.values,
        reader.Follows ((imageTable pack vocabulary).addressOf (.word word.id)) := by
  constructor
  · intro hfollowable word hword
    obtain ⟨bank, hbank, phrase, hphrase, htoken⟩ := hused word hword
    exact hfollowable bank hbank phrase hphrase _ (List.mem_map.mpr ⟨_, htoken, rfl⟩)
  · intro hwords bank hbank phrase hphrase pointer hpointer
    obtain ⟨token, htoken, rfl⟩ := List.mem_map.mp hpointer
    have hresolves := (hplaced.well.sayable bank hbank phrase hphrase).resolves token htoken
    cases token with
    | word id =>
        obtain ⟨word, hword, rfl⟩ := hplaced.well.indexed.exists_word hresolves
        exact hwords word hword
    | bank id =>
        obtain ⟨target, htarget, rfl⟩ := hplaced.well.indexed.exists_bank hresolves
        exact hplaced.follows_bank hshows htarget

theorem Placed.linksSoundly (hplaced : Placed pack vocabulary) : LinksSoundly pack vocabulary where
  settled := hplaced.settled
  agrees := agrees_imageTable hplaced.well vocabulary
  knows bank hbank phrase hphrase token htoken := by
    have hresolves := (hplaced.well.sayable bank hbank phrase hphrase).resolves token htoken
    rw [hplaced.offset?_token hresolves]
    rfl

/-- Decoding succeeds exactly if a player can go wherever the tokens point. -/
theorem Placed.decode_succeeds_iff (hplaced : Placed pack vocabulary)
    (hshows : reader.Shows pack vocabulary start) (hstart : start ∈ pack.banks.values) :
    (∃ decoded, reader.decode = .ok decoded) ↔
      ∀ bank ∈ pack.banks.values, ∀ phrase ∈ bank.phrases,
        reader.Followable (imageTable pack vocabulary) phrase := by
  constructor
  · rintro ⟨decoded, hdecode⟩ bank hbank phrase hphrase
    obtain ⟨hat, hend, _, _⟩ := Reader.decode_eq_ok_iff.mp hdecode
    have hlength : (decoded.flatMap DecodedBank.bytes).length =
        (regionBytes pack vocabulary).length := by
      have hregion := length_regionBytes pack vocabulary
      rw [hshows.speechStart] at hend
      omega
    have htokens := hat.tokens_eq hshows.holds_region
      (fun _ => phrases_le_of_settled hplaced.settled)
      (fun _ hbank _ => tokens_le_of_settled hplaced.settled hbank) hlength
    have hmem : bank.phrases.map (targetsOf (imageTable pack vocabulary)) ∈
        decoded.map fun bank => bank.phrases.map (·.tokens) :=
      htokens ▸ List.mem_map.mpr ⟨bank, hbank, rfl⟩
    obtain ⟨found, hfound, hsame⟩ := List.mem_map.mp hmem
    have hrecord : targetsOf (imageTable pack vocabulary) phrase ∈ found.phrases.map (·.tokens) :=
      hsame ▸ List.mem_map.mpr ⟨phrase, hphrase, rfl⟩
    obtain ⟨record, hrecord, hpointers⟩ := List.mem_map.mp hrecord
    obtain ⟨_, hbankAt, _⟩ := hat.exists_position hfound
    intro pointer hpointer
    exact hbankAt.phrases.follows hrecord (hpointers ▸ hpointer)
  · intro hfollowable
    exact ⟨_, hplaced.decode_eq hshows hstart hfollowable⟩

/-- Every token has an address, and a player that can follow the tokens finds what each of them
stands for. -/
theorem Placed.exists_target_of_followable (hplaced : Placed pack vocabulary)
    (hshows : reader.Shows pack vocabulary start) {bank : Bank} (hbank : bank ∈ pack.banks.values)
    {phrase : Phrase} (hphrase : phrase ∈ bank.phrases)
    (hfollowable : reader.Followable (imageTable pack vocabulary) phrase) {token : Token}
    (htoken : token ∈ phrase.tokens) :
    ∃ pointer, (imageTable pack vocabulary).offset? (.ofToken token) = some pointer.toNat ∧
      reader.target pointer = .ok (.ofToken pointer token) := by
  have hresolves := (hplaced.well.sayable bank hbank phrase hphrase).resolves token htoken
  have hfollows := hfollowable _ (List.mem_map.mpr ⟨token, htoken, rfl⟩)
  have hkind := hplaced.targetOf_token hshows hresolves
  exact ⟨_, hplaced.offset?_token hresolves, Reader.target_eq_ok_iff.mpr ⟨hfollows, hkind.symm⟩⟩

/-- If the last word has no data, it stands at the end of the image, where no player can go. -/
theorem Placed.exists_stray_pointer (hplaced : Placed pack vocabulary)
    (hshows : reader.Shows pack vocabulary start) {last : Word}
    (hlast : pack.words.values.getLast? = some last)
    (hnone : vocabulary.get? last.text = some []) :
    ∃ pointer, (imageTable pack vocabulary).offset? (.word last.id) = some pointer.toNat ∧
      pointer.toNat = imageSize pack vocabulary ∧
      reader.target pointer = .error (.tokenOutside pointer) := by
  have hmem := List.mem_of_getLast? hlast
  have hend := hplaced.address_silent_last hlast hnone
  obtain ⟨hlow, _, _⟩ := hplaced.address_word hmem
  have hheader : headerSize ≤ regionEnd pack := Nat.le_add_right _ _
  refine ⟨_, hplaced.offset?_eq (wordPart_mem hmem), hend, ?_⟩
  refine Reader.target_of_size_le (Nat.le_trans hheader hlow) ?_
  rw [hshows.size_image]
  exact Nat.le_of_eq hend.symm

end Placed

/-! ## The main statement -/

theorem addresses_linkedImage (pack : Pack) (vocabulary : Vocabulary) (start : Bank) :
    (linkedImage pack vocabulary start).addresses = imageTable pack vocabulary := rfl

/-- What linking a checked pack gives is linked from a pack that has its places. -/
theorem placed_of_linkChecked {sources : List Source} {pack : Pack}
    (hread : Pack.ofSources sources = .ok pack) {settings : Settings} {vocabulary : Vocabulary}
    {image : Image} (hlinked : linkChecked settings pack vocabulary = .ok image) :
    Placed pack vocabulary ∧ ∃ start ∈ pack.banks.values, image = linkedImage pack vocabulary start := by
  have hwell := Pack.wellFormed_of_ofSources hread
  obtain ⟨_, _, hlinked⟩ := bind_eq_ok_iff.mp hlinked
  obtain ⟨start, hstart, hsettled, hsize, rfl⟩ := (image_ofPack_eq_ok_iff hwell).mp hlinked
  exact ⟨⟨hwell, hsettled, hsize⟩, start, OrderedMap.mem_values_of_get? hstart, rfl⟩

/-- **A linked image can be followed unless its last word has no data.**  Whatever the vocabulary,
the image opens, and the phrases stand in it where the table has them, with the addresses that the
table has for their tokens.  If the last word has data, each of these addresses leads to what its
token stands for, and the image decodes; if it has none, one of them leads to the end of the image,
where a reader refuses to go, and the image does not decode. -/
theorem readable_unless_silent {sources : List Source} {pack : Pack}
    (hread : Pack.ofSources sources = .ok pack) {settings : Settings} {vocabulary : Vocabulary}
    {image : Image} (hlinked : linkChecked settings pack vocabulary = .ok image) :
    ∃ reader, Reader.open? image.bytes = .ok reader ∧
      (∀ bank ∈ pack.banks.values, ∀ phrase ∈ bank.phrases,
        image.HoldsRecord (.phrase phrase.id) (phrase.tokens.map Entity.ofToken)) ∧
      (¬ EndsSilent pack vocabulary →
        (∀ bank ∈ pack.banks.values, ∀ phrase ∈ bank.phrases, ∀ token ∈ phrase.tokens,
          ∃ pointer, image.addresses.offset? (.ofToken token) = some pointer.toNat ∧
            reader.target pointer = .ok (.ofToken pointer token)) ∧
        ∃ decoded, reader.decode = .ok decoded) ∧
      (EndsSilent pack vocabulary →
        (∃ bank ∈ pack.banks.values, ∃ phrase ∈ bank.phrases, ∃ token ∈ phrase.tokens,
          ∃ pointer, image.addresses.offset? (.ofToken token) = some pointer.toNat ∧
            pointer.toNat = image.bytes.length ∧
            reader.target pointer = .error (.tokenOutside pointer)) ∧
        ∀ decoded, reader.decode ≠ .ok decoded) := by
  obtain ⟨hplaced, start, hstart, rfl⟩ := placed_of_linkChecked hread hlinked
  obtain ⟨reader, hopen, hshows⟩ := hplaced.exists_reader hstart
  have hfollowable := hplaced.followable_iff hshows fun _ => Pack.exists_phrase_of_ofSources hread
  have hdecode := (hplaced.decode_succeeds_iff hshows hstart).trans
    (hfollowable.trans (hplaced.follows_words_iff hshows))
  refine ⟨reader, hopen, ?_, ?_, ?_⟩
  · intro bank hbank phrase hphrase
    exact (hplaced.linksSoundly.holdsRecord hbank).2 phrase hphrase
  · intro hspoken
    refine ⟨?_, hdecode.mpr hspoken⟩
    intro bank hbank phrase hphrase token htoken
    have hfollows := hfollowable.mpr ((hplaced.follows_words_iff hshows).mpr hspoken)
    rw [addresses_linkedImage]
    exact hplaced.exists_target_of_followable hshows hbank hphrase
      (hfollows bank hbank phrase hphrase) htoken
  · intro hsilent
    refine ⟨?_, fun decoded hdecoded => hdecode.mp ⟨decoded, hdecoded⟩ hsilent⟩
    obtain ⟨last, hlast, hnone⟩ := hsilent
    obtain ⟨bank, hbank, phrase, hphrase, htoken⟩ :=
      Pack.exists_phrase_of_ofSources hread (List.mem_of_getLast? hlast)
    refine ⟨bank, hbank, phrase, hphrase, _, htoken, ?_⟩
    rw [addresses_linkedImage, length_linkedImage]
    exact hplaced.exists_stray_pointer hshows hlast hnone

/-- A pack of two words, the first one of which is not to be heard. -/
def quietPack : Pack where
  words := ⟨[("hush", ⟨⟨0⟩, "hush"⟩), ("hello", ⟨⟨1⟩, "hello"⟩)], by decide⟩
  banks := ⟨[("primary", ⟨⟨0⟩, "primary", [⟨⟨0⟩, [.word ⟨0⟩, .word ⟨1⟩]⟩]⟩)], by decide⟩

def quietVocabulary : Vocabulary := ⟨[("hush", []), ("hello", [7])], by decide⟩

/-- A word without data does no harm in front of one that has some. -/
theorem readable_unless_silent_quiet :
    ∃ image reader decoded,
      Pack.ofSources [⟨"primary", "hush hello\n"⟩] = .ok quietPack ∧
        linkChecked .default quietPack quietVocabulary = .ok image ∧
        Reader.open? image.bytes = .ok reader ∧ reader.decode = .ok decoded := by
  have hread : Pack.ofSources [⟨"primary", "hush hello\n"⟩] = .ok quietPack := rfl
  obtain ⟨image, hlinked⟩ : ∃ image, linkChecked .default quietPack quietVocabulary = .ok image :=
    ⟨_, rfl⟩
  have hspoken : ¬ EndsSilent quietPack quietVocabulary := by
    rintro ⟨word, hlast, hnone⟩
    cases hlast
    exact absurd hnone (by decide)
  obtain ⟨reader, hopen, _, hreadable, _⟩ := readable_unless_silent hread hlinked
  obtain ⟨_, decoded, hdecode⟩ := hreadable hspoken
  exact ⟨image, reader, decoded, hread, hlinked, hopen, hdecode⟩

/-- A word without data at the end is linked too, but its pointer leads to the end of the image,
and the image is refused when it is decoded. -/
theorem linkChecked_hush :
    ∃ pack image reader, Pack.ofSources [⟨"primary", "hush\n"⟩] = .ok pack ∧
      linkChecked .default pack ⟨[("hush", [])], by decide⟩ = .ok image ∧
      image.bytes = [10, 0, 4, 0, 1, 7, 0, 1, 10, 0] ∧
      Reader.open? image.bytes = .ok reader ∧
      reader.target 10 = .error (.tokenOutside 10) ∧
      reader.decode = .error (.tokenOutside 10) :=
  ⟨_, _, _, rfl, rfl, rfl, rfl, rfl, rfl⟩

end SpeechRom.Rom
