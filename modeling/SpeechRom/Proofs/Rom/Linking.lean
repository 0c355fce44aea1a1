import SpeechRom.Pack.Grammar
import SpeechRom.Proofs.Rom.Addresses
import SpeechRom.Proofs.Rom.Writing

/-!
# Linking a well-formed pack

The two passes of linking agree on every well-formed pack: what the first one
plans, the second one writes, and none of its comparisons fails.  So linking is
laying out, and the image is `linkedImage`, the written forms of all banks between
a header and the speech data (`image_ofPack_eq`).
-/

namespace SpeechRom.Rom

/-! ## Every entity of a pack is a part of its image -/

section Parts

variable {pack : Pack} {vocabulary : Vocabulary} {part : Part} {offset : Nat}

theorem regionParts_subset : regionParts pack ⊆ imageParts pack vocabulary := by
  intro part hpart
  exact List.mem_cons_of_mem _ (List.mem_append_left _ hpart)

theorem directoryPart_mem {bank : Bank} (hbank : bank ∈ pack.banks.values) :
    directoryPart bank ∈ regionParts pack :=
  List.mem_flatMap.mpr ⟨bank, hbank, List.mem_cons_self⟩

theorem phrasePart_mem {bank : Bank} (hbank : bank ∈ pack.banks.values) {index : Nat}
    {phrase : Phrase} (hphrase : bank.phrases[index]? = some phrase) :
    phrasePart bank.name index phrase ∈ regionParts pack := by
  refine List.mem_flatMap.mpr ⟨bank, hbank, List.mem_cons_of_mem _ ?_⟩
  exact List.mem_map.mpr ⟨(phrase, index), List.mem_zipIdx_iff_getElem?.mpr hphrase, rfl⟩

theorem wordPart_mem {word : Word} (hword : word ∈ pack.words.values) :
    wordPart vocabulary word ∈ imageParts pack vocabulary :=
  List.mem_append_right _ (List.mem_cons_of_mem _ (List.mem_map_of_mem hword))

theorem exists_mem_imageStack (hpart : part ∈ imageParts pack vocabulary) :
    ∃ offset, (part, offset) ∈ imageStack pack vocabulary :=
  exists_mem_stack hpart 0

theorem mem_imageStack_speechStart (pack : Pack) (vocabulary : Vocabulary) :
    (speechStartPart, regionEnd pack) ∈ imageStack pack vocabulary := by
  rw [imageStack_eq]
  exact List.mem_append_right _ List.mem_cons_self

/-- The words are stacked from the start of the speech data on. -/
theorem mem_imageStack_of_words
    (hmem : (part, offset) ∈ stack (regionEnd pack) (pack.words.values.map (wordPart vocabulary))) :
    (part, offset) ∈ imageStack pack vocabulary := by
  rw [imageStack_eq]
  exact List.mem_append_right _ (List.mem_cons_of_mem _ hmem)

theorem mem_regionParts_iff :
    part ∈ regionParts pack ↔ ∃ bank ∈ pack.banks.values, part = directoryPart bank ∨
      ∃ index phrase, bank.phrases[index]? = some phrase ∧
        part = phrasePart bank.name index phrase := by
  constructor
  · intro hpart
    obtain ⟨bank, hbank, hpart⟩ := List.mem_flatMap.mp hpart
    refine ⟨bank, hbank, ?_⟩
    rcases List.mem_cons.mp hpart with rfl | hpart
    · exact .inl rfl
    · obtain ⟨⟨phrase, index⟩, hentry, rfl⟩ := List.mem_map.mp hpart
      exact .inr ⟨index, phrase, List.mem_zipIdx_iff_getElem?.mp hentry, rfl⟩
  · rintro ⟨bank, hbank, rfl | ⟨index, phrase, hphrase, rfl⟩⟩
    · exact directoryPart_mem hbank
    · exact phrasePart_mem hbank hphrase

/-- A part of an image is the header, lies in the phrase region, marks its end, or is a word
behind it. -/
theorem mem_imageStack_cases (hmem : (part, offset) ∈ imageStack pack vocabulary) :
    (part = headerPart ∧ offset = 0) ∨
      (part ∈ regionParts pack ∧ headerSize ≤ offset ∧ offset + part.size ≤ regionEnd pack) ∨
      (part = speechStartPart ∧ offset = regionEnd pack) ∨
      ∃ word ∈ pack.words.values, part = wordPart vocabulary word ∧ regionEnd pack ≤ offset ∧
        offset + part.size ≤ imageSize pack vocabulary := by
  rw [imageStack_eq, List.cons_append, List.mem_cons, List.mem_append, List.mem_cons] at hmem
  rcases hmem with heq | hmem | heq | hmem
  · cases heq
    exact .inl ⟨rfl, rfl⟩
  · have hpart : part ∈ regionParts pack := by
      rw [← map_fst_stack headerSize (regionParts pack)]
      exact List.mem_map.mpr ⟨_, hmem, rfl⟩
    exact .inr (.inl ⟨hpart, bounds_of_mem_stack hmem⟩)
  · cases heq
    exact .inr (.inr (.inl ⟨rfl, rfl⟩))
  · have hpart : part ∈ pack.words.values.map (wordPart vocabulary) := by
      rw [← map_fst_stack (regionEnd pack) (pack.words.values.map (wordPart vocabulary))]
      exact List.mem_map.mpr ⟨_, hmem, rfl⟩
    obtain ⟨word, hword, rfl⟩ := List.mem_map.mp hpart
    refine .inr (.inr (.inr ⟨word, hword, rfl, ?_⟩))
    rw [imageSize, speechData, ← span_words]
    exact bounds_of_mem_stack hmem

theorem size_directoryPart_pos (bank : Bank) : 0 < (directoryPart bank).size :=
  Nat.lt_of_lt_of_le Nat.zero_lt_one (Nat.le_add_right _ _)

theorem size_pos_of_mem_regionParts (hpart : part ∈ regionParts pack) : 0 < part.size := by
  obtain ⟨bank, _, rfl | ⟨index, phrase, _, rfl⟩⟩ := mem_regionParts_iff.mp hpart
  · exact size_directoryPart_pos bank
  · exact Nat.lt_of_lt_of_le Nat.zero_lt_one (Nat.le_add_right _ _)

/-- A word that was recorded takes bytes, if its data is not empty. -/
theorem size_wordPart_pos {word : Word} (hrecorded : (vocabulary.get? word.text).isSome)
    (hspoken : vocabulary.get? word.text ≠ some []) : 0 < (wordPart vocabulary word).size := by
  obtain ⟨data, hdata⟩ := Option.isSome_iff_exists.mp hrecorded
  have hne : data ≠ [] := fun hnil => hspoken (hnil ▸ hdata)
  simpa [wordPart, speechOf, hdata] using List.length_pos_iff.mpr hne

theorem size_pos_of_recorded (hspoken : ∀ data ∈ vocabulary.values, data ≠ []) {word : Word}
    (hrecorded : (vocabulary.get? word.text).isSome) : 0 < (wordPart vocabulary word).size :=
  size_wordPart_pos hrecorded fun hnil =>
    hspoken [] (OrderedMap.mem_values_of_get? hnil) rfl

section Settled

variable (hsettled : ∀ entry ∈ imageStack pack vocabulary, refusal entry = none)

include hsettled

/-- Where no part is refused, no part objects. -/
theorem objection_eq_none_of_settled (hpart : part ∈ imageParts pack vocabulary) :
    part.objection = none := by
  obtain ⟨offset, hmem⟩ := exists_mem_imageStack hpart
  exact (refusal_eq_none_iff.mp (hsettled _ hmem)).1

/-- Where no part is refused, a bank has no more phrases than can be counted. -/
theorem phrases_le_of_settled {bank : Bank} (hbank : bank ∈ pack.banks.values) :
    bank.phrases.length ≤ countLimit :=
  objection_directoryPart_eq_none_iff.mp
    (objection_eq_none_of_settled hsettled (regionParts_subset (directoryPart_mem hbank)))

/-- Where no part is refused, a phrase has no more tokens than can be counted. -/
theorem tokens_le_of_settled {bank : Bank} (hbank : bank ∈ pack.banks.values) {phrase : Phrase}
    (hphrase : phrase ∈ bank.phrases) : phrase.tokens.length ≤ countLimit := by
  obtain ⟨index, hindex⟩ := List.mem_iff_getElem?.mp hphrase
  exact objection_phrasePart_eq_none_iff.mp
    (objection_eq_none_of_settled hsettled (regionParts_subset (phrasePart_mem hbank hindex)))

/-- Where no part is refused, every word is recorded. -/
theorem isSome_get?_of_settled {word : Word} (hword : word ∈ pack.words.values) :
    (vocabulary.get? word.text).isSome :=
  objection_wordPart_eq_none_iff.mp (objection_eq_none_of_settled hsettled (wordPart_mem hword))

theorem get?_eq_speechOf_of_settled {word : Word} (hword : word ∈ pack.words.values) :
    vocabulary.get? word.text = some (speechOf vocabulary word) := by
  obtain ⟨data, hdata⟩ := Option.isSome_iff_exists.mp (isSome_get?_of_settled hsettled hword)
  rw [speechOf, hdata, Option.getD_some]

theorem regionEnd_lt_of_settled : regionEnd pack < addressSpace := by
  have hmark := mem_imageStack_speechStart pack vocabulary
  exact (refusal_eq_none_iff.mp (hsettled _ hmark)).2

end Settled

/-- The table knows every part. -/
theorem isSome_offset?_imageTable (hwell : pack.WellFormed)
    (hpart : part ∈ imageParts pack vocabulary) :
    ((imageTable pack vocabulary).offset? part.entity).isSome := by
  obtain ⟨offset, hmem⟩ := exists_mem_imageStack hpart
  rw [offset?_of_mem_imageStack hwell hmem]
  rfl

/-- What a token points at is a part of the image. -/
theorem exists_part_ofToken (hwell : pack.WellFormed) {token : Token}
    (hresolves : pack.Resolves token) :
    ∃ part ∈ imageParts pack vocabulary, part.entity = Entity.ofToken token := by
  cases token with
  | word id =>
      obtain ⟨word, hword, rfl⟩ := hwell.indexed.exists_word hresolves
      exact ⟨wordPart vocabulary word, wordPart_mem hword, rfl⟩
  | bank id =>
      obtain ⟨bank, hbank, rfl⟩ := hwell.indexed.exists_bank hresolves
      exact ⟨directoryPart bank, regionParts_subset (directoryPart_mem hbank), rfl⟩

end Parts

/-! ## The image -/

/-- The bytes of the phrase region. -/
def regionBytes (pack : Pack) (vocabulary : Vocabulary) : List UInt8 :=
  pack.banks.values.flatMap (bankForm (imageTable pack vocabulary))

/-- The image of a pack that starts from a bank. -/
def linkedImage (pack : Pack) (vocabulary : Vocabulary) (start : Bank) : Image where
  bytes := headerBytes (regionEnd pack) ((imageTable pack vocabulary).addressOf (.bank start.id)) ++
    regionBytes pack vocabulary ++ speechData pack vocabulary
  addresses := imageTable pack vocabulary
  speechStart := regionEnd pack
  primary := start.id

theorem length_headerBytes (speechStart : Nat) (primary : UInt16) :
    (headerBytes speechStart primary).length = headerSize := rfl

theorem length_regionBytes (pack : Pack) (vocabulary : Vocabulary) :
    headerSize + (regionBytes pack vocabulary).length = regionEnd pack := by
  rw [regionBytes, length_banksForm]
  rfl

theorem length_linkedImage (pack : Pack) (vocabulary : Vocabulary) (start : Bank) :
    (linkedImage pack vocabulary start).bytes.length = imageSize pack vocabulary := by
  rw [linkedImage, List.length_append, List.length_append, length_headerBytes,
    length_regionBytes, imageSize]

/-- The stack of the phrase region is part of the stack of the image. -/
theorem stack_regionParts_subset (pack : Pack) (vocabulary : Vocabulary) :
    stack headerSize (regionParts pack) ⊆ imageStack pack vocabulary := by
  intro entry hentry
  rw [imageStack_eq, List.cons_append]
  exact List.mem_cons_of_mem _ (List.mem_append_left _ hentry)

theorem agrees_imageTable {pack : Pack} (hwell : pack.WellFormed) (vocabulary : Vocabulary) :
    Agrees (imageTable pack vocabulary) (stack headerSize (regionParts pack)) := by
  intro entry hentry
  exact offset?_of_mem_imageStack hwell (stack_regionParts_subset pack vocabulary hentry)

theorem banksBytes_imageTable {pack : Pack} (hwell : pack.WellFormed) (vocabulary : Vocabulary) :
    banksBytes (imageTable pack vocabulary) headerSize pack.banks.values =
      .ok (regionBytes pack vocabulary) := by
  refine banksBytes_eq_ok_iff.mpr ⟨agrees_imageTable hwell vocabulary, ?_, rfl⟩
  intro bank hbank phrase hphrase token htoken
  have hresolves := (hwell.sayable bank hbank phrase hphrase).resolves token htoken
  obtain ⟨part, hpart, hentity⟩ := exists_part_ofToken hwell hresolves
  rw [← hentity]
  exact isSome_offset?_imageTable hwell hpart

/-- **Linking a well-formed pack is laying it out**: once a layout is found, nothing else fails. -/
theorem image_ofPack_eq {pack : Pack} (hwell : pack.WellFormed) (vocabulary : Vocabulary)
    (primary : String) :
    Image.ofPack pack vocabulary primary =
      match pack.findBank? primary with
      | none => .error (.missingPrimary primary)
      | some start =>
        match Layout.ofPack pack vocabulary with
        | .error failure => .error failure
        | .ok _ => .ok (linkedImage pack vocabulary start) := by
  rw [Image.ofPack, ofPack_eq]
  cases hstart : pack.findBank? primary with
  | none => rfl
  | some start =>
      dsimp only
      cases (imageStack pack vocabulary).findSome? refusal with
      | some failure => rfl
      | none =>
          dsimp only
          split
          · rfl
          · have hmem : start ∈ pack.banks.values := OrderedMap.mem_values_of_get? hstart
            have hpart : directoryPart start ∈ imageParts pack vocabulary :=
              regionParts_subset (directoryPart_mem hmem)
            have haddress : (imageTable pack vocabulary).address (.bank start.id) =
                .ok ((imageTable pack vocabulary).addressOf (.bank start.id)) :=
              address_eq_ok_iff.mpr ⟨isSome_offset?_imageTable hwell hpart, rfl⟩
            -- what is left are the two comparisons of sizes
            have hregion := length_regionBytes pack vocabulary
            have hphrases : (regionBytes pack vocabulary).length = regionEnd pack - headerSize := by
              omega
            have hsize : ∀ pointer, (headerBytes (regionEnd pack) pointer).length +
                (regionEnd pack - headerSize + (speechData pack vocabulary).length) =
                  imageSize pack vocabulary := by
              intro pointer
              calc (headerBytes (regionEnd pack) pointer).length +
                    (regionEnd pack - headerSize + (speechData pack vocabulary).length)
                  = headerSize + (regionBytes pack vocabulary).length +
                      (speechData pack vocabulary).length := by
                    rw [length_headerBytes, ← hphrases, Nat.add_assoc]
                _ = imageSize pack vocabulary := by rw [hregion, imageSize]
            simp [bind, Except.bind, banksBytes_imageTable hwell, Layout.phraseRegionSize, hphrases,
              haddress, hsize, pure, Except.pure, linkedImage]

/-- An image is linked exactly when the primary bank is there, no part is refused, and the whole
can be addressed. -/
theorem image_ofPack_eq_ok_iff {pack : Pack} (hwell : pack.WellFormed) {vocabulary : Vocabulary}
    {primary : String} {image : Image} :
    Image.ofPack pack vocabulary primary = .ok image ↔
      ∃ start, pack.findBank? primary = some start ∧
        (∀ entry ∈ imageStack pack vocabulary, refusal entry = none) ∧
        imageSize pack vocabulary ≤ addressSpace ∧ image = linkedImage pack vocabulary start := by
  rw [image_ofPack_eq hwell, ofPack_eq]
  cases pack.findBank? primary with
  | none => simp
  | some start =>
      cases hrefused : (imageStack pack vocabulary).findSome? refusal with
      | some failure =>
          obtain ⟨entry, hentry, hrefusal⟩ := List.exists_of_findSome?_eq_some hrefused
          simp only [Option.some.injEq, exists_eq_left', reduceCtorEq, false_iff, not_and]
          intro hall
          rw [hall entry hentry] at hrefusal
          cases hrefusal
      | none =>
          rw [List.findSome?_eq_none_iff] at hrefused
          by_cases hsize : imageSize pack vocabulary ≤ addressSpace
          · simp only [Nat.not_lt_of_le hsize, hsize, if_false, Except.ok.injEq, Option.some.injEq,
              exists_eq_left', true_and]
            exact ⟨fun heq => ⟨hrefused, heq.symm⟩, fun hall => hall.2.symm⟩
          · simp [hsize, Nat.lt_of_not_le hsize]

/-! ## Addresses of a linked image -/

/-- An address reads back as the offset that the table has, if 16 bits can hold it. -/
theorem toNat_addressOf {addresses : AddressTable} {entity : Entity} {offset : Nat}
    (hoffset : addresses.offset? entity = some offset) (hlt : offset < addressSpace) :
    (addresses.addressOf entity).toNat = offset := by
  rw [AddressTable.addressOf, hoffset, Option.getD_some]
  exact UInt16.toNat_ofNat_of_lt' hlt

/-! ## A small image -/

/-- Two banks that ask for each other; the second one has a way out. -/
def greetingSources : List Source :=
  [⟨"primary", "hello \x7bfriend\x7d\n"⟩, ⟨"friend", "world\n\x7bprimary\x7d\n"⟩]

/-- The pack of these sources. -/
def greetingPack : Pack where
  words := ⟨[("hello", ⟨⟨0⟩, "hello"⟩), ("world", ⟨⟨1⟩, "world"⟩)], by decide⟩
  banks := ⟨[("primary", ⟨⟨0⟩, "primary", [⟨⟨0⟩, [.word ⟨0⟩, .bank ⟨1⟩]⟩]⟩),
    ("friend", ⟨⟨1⟩, "friend", [⟨⟨1⟩, [.word ⟨1⟩]⟩, ⟨⟨2⟩, [.bank ⟨0⟩]⟩]⟩)], by decide⟩

/-- Data for the words of the pack. -/
def greetingVocabulary : Vocabulary := ⟨[("world", [7]), ("hello", [8, 9])], by decide⟩

theorem ofSources_greetingSources : Pack.ofSources greetingSources = .ok greetingPack := rfl

theorem ne_nil_of_mem_greetingVocabulary : ∀ data ∈ greetingVocabulary.values, data ≠ [] := by
  decide

example : (Image.ofPack greetingPack greetingVocabulary "primary").map (·.bytes) =
    .ok [23, 0, 4, 0, 1, 7, 0, 2, 23, 0, 12, 0, 2, 17, 0, 20, 0, 1, 25, 0, 1, 4, 0, 8, 9, 7] := rfl

end SpeechRom.Rom
