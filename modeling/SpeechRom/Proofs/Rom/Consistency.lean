import SpeechRom.Proofs.Rom.Linking
import SpeechRom.Proofs.Rom.Records

/-!
# What linking guarantees for any pack

Nothing is asked of the pack here: handles may repeat or differ from the positions,
names may differ from the keys, and banks may be empty.  Still, an image that is linked
at all is linked soundly (`sound_of_linked`): bank handles and phrase numbers are distinct,
every bank and phrase stands where the address table has it, and the addresses in it
are those of the table.

## Strategy

The writer compares its position with the table before every bank and phrase, so a
linked image comes from a table that *agrees* with the stack of parts.  Parts of the
phrase region take bytes, so their offsets go up along the stack.  An entity has one
offset in the table; if two parts were the same entity, the table could agree with
one of them only.  Words are not compared, so nothing follows about their handles.
-/

namespace SpeechRom.Rom

/-! ## Offsets go up along a stack -/

theorem pairwise_offsets_stack {start : Nat} {parts : List Part}
    (hpos : ∀ part ∈ parts, 0 < part.size) :
    (stack start parts).Pairwise fun lower upper => lower.2 < upper.2 := by
  induction parts generalizing start with
  | nil => exact .nil
  | cons part rest ih =>
      obtain ⟨hpart, hrest⟩ := List.forall_mem_cons.mp hpos
      rw [stack, List.pairwise_cons]
      refine ⟨?_, ih hrest⟩
      rintro ⟨upper, offset⟩ hupper
      have hbounds := bounds_of_mem_stack hupper
      show start < offset
      omega

/-- **A table that agrees with a stack tells its parts apart.** -/
theorem nodup_entities_of_agrees {addresses : AddressTable} {start : Nat} {parts : List Part}
    (hpos : ∀ part ∈ parts, 0 < part.size) (hagrees : Agrees addresses (stack start parts)) :
    (parts.map (·.entity)).Nodup := by
  have hdistinct : ((stack start parts).map (·.1.entity)).Nodup := by
    refine List.pairwise_map.mpr ((pairwise_offsets_stack hpos).imp_of_mem ?_)
    intro lower upper hlower hupper hlt hsame
    have hfirst : addresses.offset? lower.1.entity = some lower.2 := hagrees lower hlower
    have hsecond : addresses.offset? upper.1.entity = some upper.2 := hagrees upper hupper
    -- one entity would have two offsets
    rw [hsame, hsecond, Option.some_inj] at hfirst
    omega
  rw [← map_fst_stack start parts, List.map_map]
  exact hdistinct

/-! ## What a table knows was entered -/

theorem exists_of_offset?_foldl_enter {placed : List (Part × Nat)} {table : AddressTable}
    {entity : Entity} {offset : Nat}
    (hoffset : (placed.foldl AddressTable.enter table).offset? entity = some offset) :
    table.offset? entity = some offset ∨ ∃ entry ∈ placed, entry.2 = offset := by
  induction placed generalizing table with
  | nil => exact .inl hoffset
  | cons entry rest ih =>
      rw [List.foldl_cons] at hoffset
      rcases ih hoffset with hentered | ⟨other, hother, hsame⟩
      · have hlookup : (table.enter entry).offset? entity =
            if entity = entry.1.entity then some entry.2 else table.offset? entity :=
          OrderedMap.get?_insert _ _ _ _
        rw [hlookup] at hentered
        by_cases hentity : entity = entry.1.entity
        · rw [if_pos hentity, Option.some_inj] at hentered
          exact .inr ⟨entry, List.mem_cons_self, hentered⟩
        · rw [if_neg hentity] at hentered
          exact .inl hentered
      · exact .inr ⟨other, List.mem_cons_of_mem _ hother, hsame⟩

/-- A table of addresses whose entries 16 bits can hold. -/
def Addressable (addresses : AddressTable) : Prop :=
  ∀ entity offset, addresses.offset? entity = some offset → offset < addressSpace

theorem addressable_imageTable {pack : Pack} {vocabulary : Vocabulary}
    (hsettled : ∀ entry ∈ imageStack pack vocabulary, refusal entry = none) :
    Addressable (imageTable pack vocabulary) := by
  intro entity offset hoffset
  rcases exists_of_offset?_foldl_enter hoffset with hempty | ⟨entry, hentry, rfl⟩
  · cases hempty
  · exact (refusal_eq_none_iff.mp (hsettled entry hentry)).2

/-- The address of an entity that an addressable table knows is its offset. -/
theorem offset?_eq_addressOf {addresses : AddressTable} (haddressable : Addressable addresses)
    {entity : Entity} (hknown : (addresses.offset? entity).isSome) :
    addresses.offset? entity = some (addresses.addressOf entity).toNat := by
  obtain ⟨offset, hoffset⟩ := Option.isSome_iff_exists.mp hknown
  have haddress := toNat_addressOf hoffset (haddressable entity offset hoffset)
  rw [haddress, hoffset]

/-! ## Linking any pack -/

/-- A pack and speech data whose two passes of linking agree. -/
structure LinksSoundly (pack : Pack) (vocabulary : Vocabulary) : Prop where
  settled : ∀ entry ∈ imageStack pack vocabulary, refusal entry = none
  agrees : Agrees (imageTable pack vocabulary) (stack headerSize (regionParts pack))
  knows : ∀ bank ∈ pack.banks.values, ∀ phrase ∈ bank.phrases,
    Knows (imageTable pack vocabulary) phrase

/-- A layout that was found is the stack of all parts; no part was refused, and the whole can be
addressed. -/
theorem layout_ofPack_eq_ok {pack : Pack} {vocabulary : Vocabulary} {layout : Layout}
    (hlayout : Layout.ofPack pack vocabulary = .ok layout) :
    (∀ entry ∈ imageStack pack vocabulary, refusal entry = none) ∧
      imageSize pack vocabulary ≤ addressSpace ∧
      layout = ⟨imageTable pack vocabulary, regionEnd pack, speechData pack vocabulary,
        imageSize pack vocabulary⟩ := by
  rw [ofPack_eq] at hlayout
  split at hlayout
  · cases hlayout
  · rename_i hsettled
    by_cases hsize : imageSize pack vocabulary > addressSpace
    · rw [if_pos hsize] at hlayout
      cases hlayout
    · rw [if_neg hsize] at hlayout
      cases hlayout
      exact ⟨List.findSome?_eq_none_iff.mp hsettled, Nat.le_of_not_lt hsize, rfl⟩

/-- What a linked image was made of, whatever the pack. -/
theorem linksSoundly_of_linked {pack : Pack} {vocabulary : Vocabulary} {primary : String}
    {image : Image} (hlinked : Image.ofPack pack vocabulary primary = .ok image) :
    LinksSoundly pack vocabulary ∧ ∃ start, pack.findBank? primary = some start ∧
      ((imageTable pack vocabulary).offset? (.bank start.id)).isSome ∧
      image = linkedImage pack vocabulary start := by
  rw [Image.ofPack] at hlinked
  cases hstart : pack.findBank? primary with
  | none =>
      rw [hstart] at hlinked
      cases hlinked
  | some start =>
      rw [hstart] at hlinked
      obtain ⟨layout, hlayout, hlinked⟩ := bind_eq_ok_iff.mp hlinked
      obtain ⟨hsettled, _, rfl⟩ := layout_ofPack_eq_ok hlayout
      obtain ⟨region, hregion, hlinked⟩ := bind_eq_ok_iff.mp hlinked
      obtain ⟨hagrees, hknows, rfl⟩ := banksBytes_eq_ok_iff.mp hregion
      -- two comparisons of sizes are left; a linked image has passed both
      split at hlinked
      · cases hlinked
      · obtain ⟨pointer, hpointer, hlinked⟩ := bind_eq_ok_iff.mp hlinked
        obtain ⟨hknown, rfl⟩ := address_eq_ok_iff.mp hpointer
        dsimp only at hlinked
        split at hlinked
        · cases hlinked
        · cases hlinked
          exact ⟨⟨hsettled, hagrees, hknows⟩, start, rfl, hknown, rfl⟩

section Linked

variable {pack : Pack} {vocabulary : Vocabulary}

theorem LinksSoundly.recorded (hsound : LinksSoundly pack vocabulary) {word : Word}
    (hword : word ∈ pack.words.values) :
    vocabulary.get? word.text = some (speechOf vocabulary word) :=
  get?_eq_speechOf_of_settled hsound.settled hword

theorem LinksSoundly.regionEnd_lt (hsound : LinksSoundly pack vocabulary) :
    regionEnd pack < addressSpace :=
  regionEnd_lt_of_settled hsound.settled

/-- No two banks share a handle and no two phrases a number. -/
theorem LinksSoundly.nodup (hsound : LinksSoundly pack vocabulary) :
    (pack.banks.values.map (·.id)).Nodup ∧ pack.phraseIds.Nodup := by
  have hentities : ((regionParts pack).map (·.entity)).Nodup :=
    nodup_entities_of_agrees (fun _ hpart => size_pos_of_mem_regionParts hpart) hsound.agrees
  rw [(perm_entities_regionParts pack).nodup_iff, List.nodup_append] at hentities
  obtain ⟨hbanks, hphrases, _⟩ := hentities
  exact ⟨hbanks.of_map _, hphrases.of_map _⟩

end Linked

/-! ## Where banks and phrases stand -/

theorem exists_place_of_phrase {addresses : AddressTable} {bytes : List UInt8} {bank : String}
    {index position : Nat} {phrases : List Phrase}
    (hagrees : Agrees addresses (stack position (phraseParts bank index phrases)))
    (hholds : HoldsAt bytes position (phrases.flatMap (phraseForm addresses)))
    {phrase : Phrase} (hphrase : phrase ∈ phrases) :
    ∃ offset, addresses.offset? (.phrase phrase.id) = some offset ∧
      HoldsAt bytes offset (phraseForm addresses phrase) := by
  induction phrases generalizing index position with
  | nil => exact absurd hphrase List.not_mem_nil
  | cons first rest ih =>
      rw [phraseParts_cons, stack, agrees_cons] at hagrees
      rw [List.flatMap_cons, holdsAt_append, length_phraseForm] at hholds
      rcases List.mem_cons.mp hphrase with rfl | hphrase
      · exact ⟨position, hagrees.1, hholds.1⟩
      · exact ih hagrees.2 hholds.2 hphrase

theorem exists_place_of_bank {addresses : AddressTable} {bytes : List UInt8} {position : Nat}
    {banks : List Bank} (hagrees : Agrees addresses (stack position (banks.flatMap bankParts)))
    (hholds : HoldsAt bytes position (banks.flatMap (bankForm addresses)))
    {bank : Bank} (hbank : bank ∈ banks) :
    (∃ offset, addresses.offset? (.bank bank.id) = some offset ∧
        HoldsAt bytes offset (recordBytes (directoryOf addresses bank))) ∧
      ∀ phrase ∈ bank.phrases, ∃ offset, addresses.offset? (.phrase phrase.id) = some offset ∧
        HoldsAt bytes offset (phraseForm addresses phrase) := by
  induction banks generalizing position with
  | nil => exact absurd hbank List.not_mem_nil
  | cons first rest ih =>
      rw [List.flatMap_cons, stack_append, agrees_append] at hagrees
      rw [List.flatMap_cons, holdsAt_append, length_bankForm] at hholds
      rcases List.mem_cons.mp hbank with rfl | hbank
      · have hsize : (recordBytes (directoryOf addresses bank)).length =
            (directoryPart bank).size := by
          rw [length_recordBytes, directoryOf, List.length_map]
          rfl
        obtain ⟨hhere, _⟩ := hagrees
        obtain ⟨hform, _⟩ := hholds
        rw [bankParts, stack, agrees_cons] at hhere
        rw [bankForm, holdsAt_append, hsize] at hform
        refine ⟨⟨position, hhere.1, hform.1⟩, ?_⟩
        intro phrase hphrase
        exact exists_place_of_phrase hhere.2 hform.2 hphrase
      · exact ih hagrees.2 hholds.2 hbank

/-! ## The main statement -/

/-- The image holds, at the offset that its table has for an entity, a count byte and the addresses
that its table has for the targets, and the count is the number of targets. -/
def Image.HoldsRecord (image : Image) (entity : Entity) (targets : List Entity) : Prop :=
  ∃ offset pointers, image.addresses.offset? entity = some offset ∧
    List.Forall₂ (fun target pointer => image.addresses.offset? target = some pointer.toNat)
      targets pointers ∧
    targets.length ≤ 255 ∧
    HoldsAt image.bytes offset (UInt8.ofNat targets.length :: pointers.flatMap pointerBytes)

theorem holdsRecord_of_known {image : Image} {entity : Entity} {targets : List Entity}
    {offset : Nat} (haddressable : Addressable image.addresses)
    (hoffset : image.addresses.offset? entity = some offset) (hcount : targets.length ≤ 255)
    (hknown : ∀ target ∈ targets, (image.addresses.offset? target).isSome)
    (hholds : HoldsAt image.bytes offset (recordBytes (targets.map image.addresses.addressOf))) :
    image.HoldsRecord entity targets := by
  refine ⟨offset, targets.map image.addresses.addressOf, hoffset, ?_, hcount, ?_⟩
  · rw [List.forall₂_map_right_iff, List.forall₂_same]
    intro target htarget
    exact offset?_eq_addressOf haddressable (hknown target htarget)
  · rwa [recordBytes, List.length_map] at hholds

section Linked

variable {pack : Pack} {vocabulary : Vocabulary} {start : Bank}

theorem holdsAt_region_linkedImage (pack : Pack) (vocabulary : Vocabulary) (start : Bank) :
    HoldsAt (linkedImage pack vocabulary start).bytes headerSize
      (regionBytes pack vocabulary) :=
  holdsAt_append_left (headerBytes (regionEnd pack)
    ((imageTable pack vocabulary).addressOf (.bank start.id))) (speechData pack vocabulary)

theorem drop_regionEnd_linkedImage (pack : Pack) (vocabulary : Vocabulary) (start : Bank) :
    (linkedImage pack vocabulary start).bytes.drop (regionEnd pack) =
      speechData pack vocabulary := by
  have hlength : (headerBytes (regionEnd pack)
      ((imageTable pack vocabulary).addressOf (.bank start.id)) ++
        regionBytes pack vocabulary).length = regionEnd pack := by
    rw [List.length_append, length_headerBytes, length_regionBytes]
  exact List.drop_left' hlength

/-- The directory of every bank and the tokens of every phrase are where the table has them. -/
theorem LinksSoundly.holdsRecord (hsound : LinksSoundly pack vocabulary) {bank : Bank}
    (hbank : bank ∈ pack.banks.values) :
    (linkedImage pack vocabulary start).HoldsRecord (.bank bank.id)
        (bank.phrases.map fun phrase => .phrase phrase.id) ∧
      ∀ phrase ∈ bank.phrases,
        (linkedImage pack vocabulary start).HoldsRecord (.phrase phrase.id)
          (phrase.tokens.map Entity.ofToken) := by
  have haddressable := addressable_imageTable hsound.settled
  obtain ⟨⟨offset, hoffset, hdirectory⟩, hphrases⟩ := exists_place_of_bank hsound.agrees
    (holdsAt_region_linkedImage pack vocabulary start) hbank
  refine ⟨holdsRecord_of_known haddressable hoffset ?_ ?_ ?_, ?_⟩
  · rw [List.length_map]
    exact phrases_le_of_settled hsound.settled hbank
  · intro target htarget
    obtain ⟨phrase, hphrase, rfl⟩ := List.mem_map.mp htarget
    obtain ⟨place, hplace, _⟩ := hphrases phrase hphrase
    exact Option.isSome_iff_exists.mpr ⟨place, hplace⟩
  · rw [List.map_map]
    exact hdirectory
  · intro phrase hphrase
    obtain ⟨place, hplace, hform⟩ := hphrases phrase hphrase
    refine holdsRecord_of_known haddressable hplace ?_ ?_ ?_
    · rw [List.length_map]
      exact tokens_le_of_settled hsound.settled hbank hphrase
    · intro target htarget
      obtain ⟨token, htoken, rfl⟩ := List.mem_map.mp htarget
      exact hsound.knows bank hbank phrase hphrase token htoken
    · rw [List.map_map]
      exact hform

end Linked

/-- **The two passes of linking check each other.**  Whatever the pack, an image that was linked
comes from distinct bank handles and distinct phrase numbers; it holds every bank and every phrase
where its table has them, with the table's addresses of what they name; its header names the start
of the speech data and the primary bank; and from that start on it holds the data of the words, in
the order of the pack. -/
theorem sound_of_linked {pack : Pack} {vocabulary : Vocabulary} {primary : String} {image : Image}
    (hlinked : Image.ofPack pack vocabulary primary = .ok image) :
    (pack.banks.values.map (·.id)).Nodup ∧ pack.phraseIds.Nodup ∧
      (∀ bank ∈ pack.banks.values,
        image.HoldsRecord (.bank bank.id) (bank.phrases.map fun phrase => .phrase phrase.id) ∧
          ∀ phrase ∈ bank.phrases,
            image.HoldsRecord (.phrase phrase.id) (phrase.tokens.map Entity.ofToken) ∧
              ∀ token ∈ phrase.tokens, (image.addresses.offset? (.ofToken token)).isSome) ∧
      (∃ bank speechStart pointer, pack.findBank? primary = some bank ∧
        image.primary = bank.id ∧ image.speechStart = speechStart.toNat ∧
        image.addresses.offset? (.bank bank.id) = some pointer.toNat ∧
        image.bytes.take 4 = pointerBytes speechStart ++ pointerBytes pointer) ∧
      ∃ pieces, List.Forall₂ (fun word data => vocabulary.get? word.text = some data)
          pack.words.values pieces ∧ image.bytes.drop image.speechStart = pieces.flatten := by
  obtain ⟨hsound, start, hstart, hknown, rfl⟩ := linksSoundly_of_linked hlinked
  obtain ⟨hbanks, hphrases⟩ := hsound.nodup
  refine ⟨hbanks, hphrases, fun bank hbank => ?_, ?_, ?_⟩
  · refine ⟨(hsound.holdsRecord hbank).1, fun phrase hphrase => ⟨?_, ?_⟩⟩
    · exact (hsound.holdsRecord hbank).2 phrase hphrase
    · exact hsound.knows bank hbank phrase hphrase
  · have hregion : (UInt16.ofNat (regionEnd pack)).toNat = regionEnd pack :=
      UInt16.toNat_ofNat_of_lt' hsound.regionEnd_lt
    refine ⟨start, UInt16.ofNat (regionEnd pack),
      (imageTable pack vocabulary).addressOf (.bank start.id), hstart, rfl, hregion.symm, ?_, rfl⟩
    exact offset?_eq_addressOf (addressable_imageTable hsound.settled) hknown
  · refine ⟨pack.words.values.map (speechOf vocabulary), ?_, ?_⟩
    · rw [List.forall₂_map_right_iff, List.forall₂_same]
      intro word hword
      exact hsound.recorded hword
    · have hdata := drop_regionEnd_linkedImage pack vocabulary start
      rw [speechData, List.flatMap_def] at hdata
      exact hdata

/-- A pack with handles out of order, banks under keys that are not their names, a bank without
phrases, and two words with one handle. -/
def crookedPack : Pack where
  words := ⟨[("first", ⟨⟨9⟩, "hello"⟩), ("second", ⟨⟨9⟩, "world"⟩)], by decide⟩
  banks := ⟨[("start", ⟨⟨7⟩, "twin", [⟨⟨5⟩, [.word ⟨9⟩, .bank ⟨3⟩]⟩]⟩),
    ("rest", ⟨⟨3⟩, "twin", []⟩)], by decide⟩

theorem sound_of_linked_crooked :
    ∃ image, Image.ofPack crookedPack greetingVocabulary "start" = .ok image ∧
      (crookedPack.banks.values.map (·.id)).Nodup ∧ crookedPack.phraseIds.Nodup ∧
      image.HoldsRecord (.bank ⟨7⟩) [.phrase ⟨5⟩] ∧
      image.HoldsRecord (.phrase ⟨5⟩) [.word ⟨9⟩, .bank ⟨3⟩] ∧
      image.primary = ⟨7⟩ := by
  obtain ⟨image, hlinked, hprimary⟩ : ∃ image,
      Image.ofPack crookedPack greetingVocabulary "start" = .ok image ∧
        image.primary = ⟨7⟩ := ⟨_, rfl, rfl⟩
  obtain ⟨hbanks, hphrases, hrecords, _⟩ := sound_of_linked hlinked
  obtain ⟨hdirectory, htokens⟩ :=
    hrecords ⟨⟨7⟩, "twin", [⟨⟨5⟩, [.word ⟨9⟩, .bank ⟨3⟩]⟩]⟩ List.mem_cons_self
  exact ⟨image, hlinked, hbanks, hphrases, hdirectory, (htokens _ List.mem_cons_self).1, hprimary⟩

/-- Two phrases with one number are found out when the first of them is written. -/
example : Image.ofPack ⟨∅, ⟨[("start", ⟨⟨0⟩, "start", [⟨⟨1⟩, []⟩, ⟨⟨1⟩, []⟩]⟩)], by decide⟩⟩ ∅
    "start" = .error (.positionMismatch 10 9) := rfl

end SpeechRom.Rom
