import SpeechRom.Proofs.Pack.Contents
import SpeechRom.Proofs.Rom.Linking

/-!
# Which packs can be linked

The limits of an image are checked in several places: counts and offsets while
parts are settled, the size at the end.  For packs that were read from sources and
words that have data they amount to one condition on the pack, `Linkable`, and
a failure names a limit that the pack really breaks, `Breaks`
(`image_exists_iff_linkable`).

Why the checks amount to no more: a part of the phrase region takes at least a
byte, and so does a word, so no offset is above the last byte of the region or
of the image.  Only the start of the speech data may stand at the very end, and
that is what the limit of 65535 is for.
-/

namespace SpeechRom.Rom

/-! ## The condition -/

/-- The bytes in front of the speech data: the header, a directory for each bank and a record for
each phrase. -/
def bytesBeforeSpeech (pack : Pack) : Nat :=
  4 + (pack.banks.values.map fun bank => 1 + 2 * bank.phrases.length).sum +
    (pack.phrases.map fun entry => 1 + 2 * entry.2.tokens.length).sum

/-- The bytes of speech data that the words of a pack take. -/
def bytesOfSpeech (pack : Pack) (vocabulary : Vocabulary) : Nat :=
  (pack.words.values.map fun word => ((vocabulary.get? word.text).getD []).length).sum

/-- A pack fits into an image that starts from the bank `primary`. -/
structure Linkable (pack : Pack) (vocabulary : Vocabulary) (primary : String) : Prop where
  primary_mem : ∃ bank ∈ pack.banks.values, bank.name = primary
  phrases_le : ∀ bank ∈ pack.banks.values, bank.phrases.length ≤ 255
  tokens_le : ∀ bank ∈ pack.banks.values, ∀ phrase ∈ bank.phrases, phrase.tokens.length ≤ 255
  recorded : ∀ word ∈ pack.words.values, (vocabulary.get? word.text).isSome
  region_le : bytesBeforeSpeech pack ≤ 65535
  image_le : bytesBeforeSpeech pack + bytesOfSpeech pack vocabulary ≤ 65536

/-- A failure that names a limit which the pack breaks. -/
inductive Breaks (pack : Pack) (vocabulary : Vocabulary) (primary : String) : BuildError → Prop
  | missingPrimary (habsent : ∀ bank ∈ pack.banks.values, bank.name ≠ primary) :
      Breaks pack vocabulary primary (.missingPrimary primary)
  | tooManyPhrases {bank : Bank} (hbank : bank ∈ pack.banks.values)
      (hmany : 255 < bank.phrases.length) :
      Breaks pack vocabulary primary (.tooManyPhrases bank.name bank.phrases.length)
  | tooManyTokens {bank : Bank} {index : Nat} {phrase : Phrase}
      (hbank : bank ∈ pack.banks.values) (hphrase : bank.phrases[index]? = some phrase)
      (hmany : 255 < phrase.tokens.length) :
      Breaks pack vocabulary primary (.tooManyTokens bank.name index phrase.tokens.length)
  | notRecorded {word : Word} (hword : word ∈ pack.words.values)
      (habsent : vocabulary.get? word.text = none) :
      Breaks pack vocabulary primary (.notRecorded word.text)
  /-- The size is at most what the image takes, or one more than what stands before the speech. -/
  | imageTooLarge {size : Nat} (hlarge : 65536 < size)
      (hneeded : size ≤ bytesBeforeSpeech pack + 1 ∨
        size ≤ bytesBeforeSpeech pack + bytesOfSpeech pack vocabulary) :
      Breaks pack vocabulary primary (.imageTooLarge size)

/-! ## The sums are those of the stack -/

theorem span_phraseParts (bank : String) (index : Nat) (phrases : List Phrase) :
    span (phraseParts bank index phrases) =
      (phrases.map fun phrase => phraseRecordSize phrase.tokens.length).sum := by
  induction phrases generalizing index with
  | nil => rfl
  | cons phrase rest ih =>
      rw [phraseParts_cons, span_cons, ih, List.map_cons, List.sum_cons]
      rfl

theorem regionEnd_eq (pack : Pack) : regionEnd pack = bytesBeforeSpeech pack := by
  rw [regionEnd, bytesBeforeSpeech, regionParts, Pack.phrases]
  induction pack.banks.values with
  | nil => rfl
  | cons bank rest ih =>
      simp only [List.flatMap_cons, span_append, bankParts, span_cons, span_phraseParts,
        List.map_cons, List.sum_cons, List.map_append, List.sum_append, List.map_map,
        directoryPart, bankRecordSize, phraseRecordSize, pointerSize, Function.comp_def,
        Nat.mul_comm _ 2, headerSize] at ih ⊢
      omega

theorem imageSize_eq (pack : Pack) (vocabulary : Vocabulary) :
    imageSize pack vocabulary = bytesBeforeSpeech pack + bytesOfSpeech pack vocabulary := by
  rw [imageSize, regionEnd_eq, speechData, List.length_flatMap]
  rfl

/-! ## Refusals -/

/-- **Every refusal names a limit that the pack breaks.** -/
theorem breaks_of_refusal {pack : Pack} {vocabulary : Vocabulary} {primary : String}
    (hspoken : ∀ data ∈ vocabulary.values, data ≠ []) {part : Part} {offset : Nat}
    (hmem : (part, offset) ∈ imageStack pack vocabulary) {failure : BuildError}
    (hrefusal : refusal (part, offset) = some failure) :
    Breaks pack vocabulary primary failure := by
  rcases mem_imageStack_cases hmem with
    ⟨rfl, rfl⟩ | ⟨hpart, _, hend⟩ | ⟨rfl, rfl⟩ | ⟨word, hword, rfl, _, hend⟩
  · cases hrefusal
  · rcases objection_or_too_far hrefusal with hobjection | ⟨_, hfar, rfl⟩
    · obtain ⟨bank, hbank, rfl | ⟨index, phrase, hphrase, rfl⟩⟩ := mem_regionParts_iff.mp hpart
      · simp only [directoryPart, Option.ite_none_right_eq_some, Option.some.injEq] at hobjection
        obtain ⟨hmany, rfl⟩ := hobjection
        exact .tooManyPhrases hbank hmany
      · simp only [phrasePart, Option.ite_none_right_eq_some, Option.some.injEq] at hobjection
        obtain ⟨hmany, rfl⟩ := hobjection
        exact .tooManyTokens hbank hphrase hmany
    -- the part ends within the region, so the region reaches past what can be addressed
    · have hpos := size_pos_of_mem_regionParts hpart
      rw [regionEnd_eq] at hend
      exact .imageTooLarge (Nat.lt_succ_of_le hfar) (.inl (by omega))
  · rcases objection_or_too_far hrefusal with hobjection | ⟨_, hfar, rfl⟩
    · cases hobjection
    · rw [regionEnd_eq] at hfar ⊢
      exact .imageTooLarge (Nat.lt_succ_of_le hfar) (.inl (Nat.le_refl _))
  · rcases objection_or_too_far hrefusal with hobjection | ⟨hrecorded, hfar, rfl⟩
    · simp only [wordPart, Option.ite_none_left_eq_some, Option.some.injEq] at hobjection
      obtain ⟨habsent, rfl⟩ := hobjection
      exact .notRecorded hword (by simpa [OrderedMap.contains] using habsent)
    -- a word with data ends within the image, and so the image does
    · have hpos := size_pos_of_recorded hspoken (objection_wordPart_eq_none_iff.mp hrecorded)
      rw [imageSize_eq] at hend
      exact .imageTooLarge (Nat.lt_succ_of_le hfar) (.inr (by omega))

/-- No part of a linkable pack is refused. -/
theorem refusal_eq_none_of_linkable {pack : Pack} {vocabulary : Vocabulary} {primary : String}
    (hspoken : ∀ data ∈ vocabulary.values, data ≠ [])
    (hlinkable : Linkable pack vocabulary primary) :
    ∀ entry ∈ imageStack pack vocabulary, refusal entry = none := by
  rintro ⟨part, offset⟩ hmem
  have hspace : addressSpace = 65536 := rfl
  have hregion := hlinkable.region_le
  have himage := hlinkable.image_le
  rw [refusal_eq_none_iff]
  rcases mem_imageStack_cases hmem with
    ⟨rfl, rfl⟩ | ⟨hpart, _, hend⟩ | ⟨rfl, rfl⟩ | ⟨word, hword, rfl, _, hend⟩
  · exact ⟨rfl, by decide⟩
  · rw [regionEnd_eq] at hend
    refine ⟨?_, by omega⟩
    obtain ⟨bank, hbank, rfl | ⟨index, phrase, hphrase, rfl⟩⟩ := mem_regionParts_iff.mp hpart
    · exact objection_directoryPart_eq_none_iff.mpr (hlinkable.phrases_le bank hbank)
    · exact objection_phrasePart_eq_none_iff.mpr
        (hlinkable.tokens_le bank hbank phrase (List.mem_of_getElem? hphrase))
  · rw [regionEnd_eq]
    exact ⟨rfl, by omega⟩
  · have hrecorded := hlinkable.recorded word hword
    have hpos := size_pos_of_recorded hspoken hrecorded
    rw [imageSize_eq] at hend
    exact ⟨objection_wordPart_eq_none_iff.mpr hrecorded, by omega⟩

/-- A pack none of whose parts is refused is linkable, if the whole can be addressed. -/
theorem linkable_of_refusal_eq_none {pack : Pack} {vocabulary : Vocabulary} {start : Bank}
    (hwell : pack.WellFormed) {primary : String} (hstart : pack.findBank? primary = some start)
    (hsettled : ∀ entry ∈ imageStack pack vocabulary, refusal entry = none)
    (hsize : imageSize pack vocabulary ≤ addressSpace) : Linkable pack vocabulary primary := by
  refine ⟨⟨start, OrderedMap.mem_values_of_get? hstart, hwell.indexed.name_of_findBank? hstart⟩,
    ?_, ?_, ?_, ?_, ?_⟩
  · intro bank hbank
    exact phrases_le_of_settled hsettled hbank
  · intro bank hbank phrase hphrase
    exact tokens_le_of_settled hsettled hbank hphrase
  · intro word hword
    exact isSome_get?_of_settled hsettled hword
  · rw [← regionEnd_eq]
    exact Nat.le_of_lt_succ (regionEnd_lt_of_settled hsettled)
  · rw [← imageSize_eq]
    exact hsize

/-- A pack that is not linked breaks the limit that the failure names. -/
theorem breaks_of_image_ofPack_eq_error {pack : Pack} {vocabulary : Vocabulary}
    {primary : String} {failure : BuildError} (hwell : pack.WellFormed)
    (hspoken : ∀ data ∈ vocabulary.values, data ≠ [])
    (hfailed : Image.ofPack pack vocabulary primary = .error failure) :
    Breaks pack vocabulary primary failure := by
  rw [image_ofPack_eq hwell, ofPack_eq] at hfailed
  cases hstart : pack.findBank? primary with
  | none =>
      rw [hstart] at hfailed
      cases hfailed
      refine .missingPrimary fun bank hbank hname => ?_
      rw [← hname, hwell.indexed.findBank?_of_mem hbank] at hstart
      cases hstart
  | some start =>
      rw [hstart] at hfailed
      cases hrefused : (imageStack pack vocabulary).findSome? refusal with
      | some refused =>
          rw [hrefused] at hfailed
          cases hfailed
          obtain ⟨⟨part, offset⟩, hmem, hrefusal⟩ := List.exists_of_findSome?_eq_some hrefused
          exact breaks_of_refusal hspoken hmem hrefusal
      | none =>
          rw [hrefused] at hfailed
          by_cases hsize : imageSize pack vocabulary > addressSpace
          · simp only [hsize, if_true, Except.error.injEq] at hfailed
            subst hfailed
            rw [imageSize_eq] at hsize ⊢
            exact .imageTooLarge hsize (.inr (Nat.le_refl _))
          · simp [hsize] at hfailed

/-! ## The main statement -/

/-- **A pack is linked exactly when it is linkable.**  The image has the size that the pack and
its speech data add up to; a failure names a limit that is really broken, so the two passes never
disagree about a position and never miss an address. -/
theorem image_exists_iff_linkable {sources : List Source} {pack : Pack}
    (hread : Pack.ofSources sources = .ok pack) {vocabulary : Vocabulary}
    (hspoken : ∀ data ∈ vocabulary.values, data ≠ []) (primary : String) :
    ((∃ image, Image.ofPack pack vocabulary primary = .ok image) ↔
        Linkable pack vocabulary primary) ∧
      (∀ image, Image.ofPack pack vocabulary primary = .ok image →
        image.bytes.length = bytesBeforeSpeech pack + bytesOfSpeech pack vocabulary) ∧
      (∀ failure, Image.ofPack pack vocabulary primary = .error failure →
        Breaks pack vocabulary primary failure) ∧
      (∀ expected actual,
        Image.ofPack pack vocabulary primary ≠ .error (.positionMismatch expected actual)) ∧
      ∀ entity, Image.ofPack pack vocabulary primary ≠ .error (.noAddress entity) := by
  have hwell := Pack.wellFormed_of_ofSources hread
  have hbreaks : ∀ failure, Image.ofPack pack vocabulary primary = .error failure →
      Breaks pack vocabulary primary failure := fun failure hfailed =>
    breaks_of_image_ofPack_eq_error hwell hspoken hfailed
  refine ⟨⟨?_, ?_⟩, ?_, hbreaks, ?_, ?_⟩
  · rintro ⟨image, himage⟩
    obtain ⟨start, hstart, hsettled, hsize, _⟩ := (image_ofPack_eq_ok_iff hwell).mp himage
    exact linkable_of_refusal_eq_none hwell hstart hsettled hsize
  · intro hlinkable
    obtain ⟨bank, hbank, hname⟩ := hlinkable.primary_mem
    have hstart := hwell.indexed.findBank?_of_mem hbank
    rw [hname] at hstart
    have hsize : imageSize pack vocabulary ≤ addressSpace := by
      rw [imageSize_eq]
      exact hlinkable.image_le
    exact ⟨_, (image_ofPack_eq_ok_iff hwell).mpr
      ⟨bank, hstart, refusal_eq_none_of_linkable hspoken hlinkable, hsize, rfl⟩⟩
  · intro image himage
    obtain ⟨start, _, _, _, rfl⟩ := (image_ofPack_eq_ok_iff hwell).mp himage
    rw [length_linkedImage, imageSize_eq]
  · intro expected actual hfailed
    cases hbreaks _ hfailed
  · intro entity hfailed
    cases hbreaks _ hfailed

theorem image_exists_iff_linkable_greeting :
    Pack.ofSources greetingSources = .ok greetingPack ∧
      (∀ data ∈ greetingVocabulary.values, data ≠ []) ∧
      Linkable greetingPack greetingVocabulary "primary" ∧
      ∃ image, Image.ofPack greetingPack greetingVocabulary "primary" = .ok image ∧
        image.bytes.length = 26 := by
  obtain ⟨hiff, hlength, _⟩ := image_exists_iff_linkable ofSources_greetingSources
    ne_nil_of_mem_greetingVocabulary "primary"
  obtain ⟨image, himage⟩ :
      ∃ image, Image.ofPack greetingPack greetingVocabulary "primary" = .ok image := ⟨_, rfl⟩
  exact ⟨ofSources_greetingSources, ne_nil_of_mem_greetingVocabulary, hiff.mp ⟨image, himage⟩,
    image, himage, hlength image himage⟩

end SpeechRom.Rom
