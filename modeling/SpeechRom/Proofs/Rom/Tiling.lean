import SpeechRom.Proofs.Pack.Contents
import SpeechRom.Proofs.Rom.Consistency

/-!
# A layout tiles the image

The entities of a pack with the bytes that each of them takes make a row, `extents`: the
header, every bank with its phrases behind it, the start of the speech data, and the words.
The address table of a layout has this row one behind another without gaps, from the first
byte of the image to its last (`Tiles`), and what is written into the phrase region is as
long as planned (`tiled_of_layout`).

So no two entities take the same byte.  They do not share an offset either, except that the
start of the speech data, which takes no byte, stands where the first word stands; that no
other two do is a matter of the words having data.
-/

namespace SpeechRom.Rom

/-! ## The row of entities -/

/-- The entities of an image with the bytes that each of them takes, in the order of the image. -/
def extents (pack : Pack) (vocabulary : Vocabulary) : List (Entity × Nat) :=
  (.header, 4) ::
    (pack.banks.values.flatMap fun bank =>
      (.bank bank.id, 1 + 2 * bank.phrases.length) ::
        bank.phrases.map fun phrase => (.phrase phrase.id, 1 + 2 * phrase.tokens.length)) ++
    (.wordData, 0) ::
      pack.words.values.map fun word =>
        (.word word.id, ((vocabulary.get? word.text).getD []).length)

/-- Entries of a table have the offsets of a row of extents one behind another: the first stands
at `start`, each other one where the extent in front of it ends, and the last extent ends at
`stop`. -/
inductive Tiles : (start : Nat) → (row entries : List (Entity × Nat)) → (stop : Nat) → Prop
  | nil (start : Nat) : Tiles start [] [] start
  | cons {start size stop : Nat} {entity : Entity} {row entries : List (Entity × Nat)} :
      Tiles (start + size) row entries stop →
        Tiles start ((entity, size) :: row) ((entity, start) :: entries) stop

theorem Tiles.map_fst_eq {start stop : Nat} {row entries : List (Entity × Nat)}
    (htiles : Tiles start row entries stop) : entries.map Prod.fst = row.map Prod.fst := by
  induction htiles with
  | nil => rfl
  | cons _ ih => rw [List.map_cons, List.map_cons, ih]

/-- A stack tiles the bytes from its foot to its top. -/
theorem tiles_stack (start : Nat) (parts : List Part) :
    Tiles start (parts.map fun part => (part.entity, part.size))
      ((stack start parts).map fun entry => (entry.1.entity, entry.2)) (start + span parts) := by
  induction parts generalizing start with
  | nil => exact .nil start
  | cons part rest ih =>
      rw [span_cons, ← Nat.add_assoc]
      exact .cons (ih (start + part.size))

theorem map_extent_phraseParts (bank : String) (index : Nat) (phrases : List Phrase) :
    (phraseParts bank index phrases).map (fun part => (part.entity, part.size)) =
      phrases.map fun phrase => (Entity.phrase phrase.id, 1 + 2 * phrase.tokens.length) := by
  induction phrases generalizing index with
  | nil => rfl
  | cons phrase rest ih =>
      rw [phraseParts_cons, List.map_cons, List.map_cons, ih]
      simp only [phrasePart, phraseRecordSize, pointerSize, Nat.mul_comm]

/-- The extents of a pack are those of the parts of its image. -/
theorem extents_eq (pack : Pack) (vocabulary : Vocabulary) :
    extents pack vocabulary =
      (imageParts pack vocabulary).map fun part => (part.entity, part.size) := by
  simp only [extents, imageParts, regionParts, bankParts, List.cons_append, List.map_cons,
    List.map_append, List.map_flatMap, map_extent_phraseParts, List.map_map, directoryPart,
    bankRecordSize, pointerSize, Nat.mul_comm _ 2]
  rfl

theorem length_regionParts (pack : Pack) :
    (regionParts pack).length = pack.banks.size + pack.phraseTotal := by
  rw [regionParts, Pack.phraseTotal, Pack.phrases, ← OrderedMap.length_values]
  induction pack.banks.values with
  | nil => rfl
  | cons bank rest ih =>
      simp only [List.flatMap_cons, List.length_append, List.length_cons, List.length_map, ih,
        bankParts, phraseParts, List.length_zipIdx]
      omega

theorem length_extents (pack : Pack) (vocabulary : Vocabulary) :
    (extents pack vocabulary).length =
      2 + pack.banks.size + pack.phraseTotal + pack.words.size := by
  rw [extents_eq, List.length_map, imageParts, List.cons_append, List.length_cons,
    List.length_append, length_regionParts, List.length_cons, List.length_map,
    OrderedMap.length_values]
  omega

section Parts

variable {pack : Pack} {vocabulary : Vocabulary} {part : Part} {offset : Nat}

theorem span_imageParts (pack : Pack) (vocabulary : Vocabulary) :
    span (imageParts pack vocabulary) = imageSize pack vocabulary := by
  rw [imageParts, span_append, span_cons, span_cons, span_words, imageSize, regionEnd, speechData]
  exact congrArg _ (Nat.zero_add _)

/-- A part of a well-formed pack is known by its entity. -/
theorem part_eq_of_entity_eq (hwell : pack.WellFormed) {other : Part}
    (hpart : part ∈ imageParts pack vocabulary) (hother : other ∈ imageParts pack vocabulary)
    (hentity : part.entity = other.entity) : part = other :=
  List.inj_on_of_nodup_map (nodup_entities hwell vocabulary) hpart hother hentity

/-! ## The start of the speech data and the first word -/

/-- The first word stands where the speech data starts. -/
theorem mem_imageStack_first_word {word : Word} (hfirst : pack.words.values.head? = some word) :
    (wordPart vocabulary word, regionEnd pack) ∈ imageStack pack vocabulary := by
  obtain ⟨rest, hwords⟩ := List.head?_eq_some_iff.mp hfirst
  refine mem_imageStack_of_words ?_
  rw [hwords, List.map_cons, stack]
  exact List.mem_cons_self

/-- What takes bytes at the start of the speech data is the first word. -/
theorem exists_first_word_of_mem (hmem : (part, regionEnd pack) ∈ imageStack pack vocabulary)
    (hpos : 0 < part.size)
    (hsizes : ∀ word ∈ pack.words.values, 0 < (wordPart vocabulary word).size) :
    ∃ word, pack.words.values.head? = some word ∧ part = wordPart vocabulary word := by
  have hheader : headerSize ≤ regionEnd pack := Nat.le_add_right _ _
  rcases mem_imageStack_cases hmem with
    ⟨rfl, hzero⟩ | ⟨_, _, hend⟩ | ⟨rfl, _⟩ | ⟨word, hword, rfl, _, _⟩
  · rw [hzero] at hheader
    cases hheader
  · omega
  · cases hpos
  · obtain ⟨first, hfirst⟩ : ∃ first, pack.words.values.head? = some first :=
      ⟨_, List.head?_eq_some_head (List.ne_nil_of_mem hword)⟩
    exact ⟨first, hfirst, eq_of_mem_stack hmem (mem_imageStack_first_word hfirst) hpos
      (hsizes first (List.mem_of_mem_head? hfirst))⟩

/-- What takes no byte is the start of the speech data. -/
theorem eq_speechStartPart_of_size (hmem : (part, offset) ∈ imageStack pack vocabulary)
    (hzero : part.size = 0)
    (hsizes : ∀ word ∈ pack.words.values, 0 < (wordPart vocabulary word).size) :
    part = speechStartPart ∧ offset = regionEnd pack := by
  rcases mem_imageStack_cases hmem with
    ⟨rfl, _⟩ | ⟨hpart, _, _⟩ | hstart | ⟨word, hword, rfl, _, _⟩
  · cases hzero
  · exact absurd hzero (Nat.ne_of_gt (size_pos_of_mem_regionParts hpart))
  · exact hstart
  · exact absurd hzero (Nat.ne_of_gt (hsizes word hword))

/-- Different parts that share an offset are the start of the speech data and the first word. -/
theorem speechStart_and_first_word_of_mem {other : Part}
    (hmem : (part, offset) ∈ imageStack pack vocabulary)
    (hother : (other, offset) ∈ imageStack pack vocabulary) (hne : part ≠ other)
    (hsizes : ∀ word ∈ pack.words.values, 0 < (wordPart vocabulary word).size) :
    ∃ word, pack.words.values.head? = some word ∧
      (part = speechStartPart ∧ other = wordPart vocabulary word ∨
        part = wordPart vocabulary word ∧ other = speechStartPart) := by
  rcases Nat.eq_zero_or_pos part.size with hzero | hpos
  · obtain ⟨rfl, rfl⟩ := eq_speechStartPart_of_size hmem hzero hsizes
    have hotherPos : 0 < other.size := Nat.pos_of_ne_zero fun hotherZero =>
      hne (eq_speechStartPart_of_size hother hotherZero hsizes).1.symm
    obtain ⟨word, hword, rfl⟩ := exists_first_word_of_mem hother hotherPos hsizes
    exact ⟨word, hword, .inl ⟨rfl, rfl⟩⟩
  · rcases Nat.eq_zero_or_pos other.size with hotherZero | hotherPos
    · obtain ⟨rfl, rfl⟩ := eq_speechStartPart_of_size hother hotherZero hsizes
      obtain ⟨word, hword, rfl⟩ := exists_first_word_of_mem hmem hpos hsizes
      exact ⟨word, hword, .inr ⟨rfl, rfl⟩⟩
    · exact absurd (eq_of_mem_stack hmem hother hpos hotherPos) hne

end Parts

/-! ## The main statement -/

/-- The entity takes the bytes of the image from `first` on, up to but not including `last`. -/
def Layout.Takes (layout : Layout) (pack : Pack) (vocabulary : Vocabulary) (entity : Entity)
    (first last : Nat) : Prop :=
  layout.addresses.offset? entity = some first ∧
    ∃ size, (entity, size) ∈ extents pack vocabulary ∧ last = first + size

/-- How a layout of a pack fills its image. -/
structure Tiled (pack : Pack) (vocabulary : Vocabulary) (layout : Layout) : Prop where
  /-- Every entity has one entry, in the order of the image. -/
  order : layout.addresses.offsets.keys = (extents pack vocabulary).map Prod.fst
  distinct : layout.addresses.offsets.keys.Nodup
  count : layout.addresses.offsets.size =
    2 + pack.banks.size + pack.phraseTotal + pack.words.size
  /-- Every entity stands where the one in front of it ends. -/
  tiles : Tiles 0 (extents pack vocabulary) layout.addresses.offsets.entries layout.size
  size_le : layout.size ≤ 65536
  speech : ∃ pieces, List.Forall₂ (fun word data => vocabulary.get? word.text = some data)
    pack.words.values pieces ∧ layout.speechData = pieces.flatten
  /-- Writing the phrase region succeeds and takes as many bytes as planned. -/
  region : ∃ bytes, banksBytes layout.addresses headerSize pack.banks.values = .ok bytes ∧
    bytes.length = layout.phraseRegionSize
  apart : ∀ entity other first last start stop, entity ≠ other →
    layout.Takes pack vocabulary entity first last →
    layout.Takes pack vocabulary other start stop → last ≤ start ∨ stop ≤ first
  shared : ∀ word, pack.words.values.head? = some word →
    layout.addresses.offset? (.word word.id) = layout.addresses.offset? .wordData
  /-- If the words have data, nothing else shares an offset. -/
  shared_only : (∀ word ∈ pack.words.values, vocabulary.get? word.text ≠ some []) →
    ∀ entity other offset, entity ≠ other →
      layout.addresses.offset? entity = some offset →
      layout.addresses.offset? other = some offset →
      ∃ word, pack.words.values.head? = some word ∧
        (entity = .wordData ∧ other = .word word.id ∨ entity = .word word.id ∧ other = .wordData)

section Tiled

variable {pack : Pack} {vocabulary : Vocabulary} {layout : Layout}

/-- What an entity takes is what its part takes, where the part stands. -/
theorem exists_part_of_takes (hwell : pack.WellFormed)
    (haddresses : layout.addresses = imageTable pack vocabulary) {entity : Entity}
    {first last : Nat} (htakes : layout.Takes pack vocabulary entity first last) :
    ∃ part, part.entity = entity ∧ (part, first) ∈ imageStack pack vocabulary ∧
      last = first + part.size := by
  obtain ⟨hoffset, size, hextent, rfl⟩ := htakes
  rw [haddresses, offset?_imageTable_eq_some_iff hwell] at hoffset
  obtain ⟨part, rfl, hmem⟩ := hoffset
  rw [extents_eq] at hextent
  obtain ⟨other, hother, heq⟩ := List.mem_map.mp hextent
  rw [Prod.mk.injEq] at heq
  obtain rfl := part_eq_of_entity_eq hwell hother (mem_of_mem_stack hmem) heq.1
  exact ⟨other, rfl, hmem, congrArg _ heq.2.symm⟩

/-- No two entities take the same byte. -/
theorem apart_of_takes (hwell : pack.WellFormed)
    (haddresses : layout.addresses = imageTable pack vocabulary) {entity other : Entity}
    {first last start stop : Nat} (hne : entity ≠ other)
    (hentity : layout.Takes pack vocabulary entity first last)
    (hother : layout.Takes pack vocabulary other start stop) : last ≤ start ∨ stop ≤ first := by
  obtain ⟨part, rfl, hpart, rfl⟩ := exists_part_of_takes hwell haddresses hentity
  obtain ⟨second, rfl, hsecond, rfl⟩ := exists_part_of_takes hwell haddresses hother
  exact apart_of_mem_stack hpart hsecond fun heq => hne (congrArg Part.entity heq)

/-- The first word has the offset of the start of the speech data. -/
theorem offset?_first_word (hwell : pack.WellFormed) {word : Word}
    (hfirst : pack.words.values.head? = some word) :
    (imageTable pack vocabulary).offset? (.word word.id) =
      (imageTable pack vocabulary).offset? .wordData := by
  have hmem : (wordPart vocabulary word, regionEnd pack) ∈ imageStack pack vocabulary :=
    mem_imageStack_first_word hfirst
  exact (offset?_of_mem_imageStack hwell hmem).trans
    (offset?_of_mem_imageStack hwell (mem_imageStack_speechStart pack vocabulary)).symm

/-- Different entities that share an offset are the start of the speech data and the first word. -/
theorem wordData_and_first_word_of_offset? (hwell : pack.WellFormed)
    (hsizes : ∀ word ∈ pack.words.values, 0 < (wordPart vocabulary word).size)
    {entity other : Entity} {offset : Nat} (hne : entity ≠ other)
    (hentity : (imageTable pack vocabulary).offset? entity = some offset)
    (hother : (imageTable pack vocabulary).offset? other = some offset) :
    ∃ word, pack.words.values.head? = some word ∧
      (entity = .wordData ∧ other = .word word.id ∨
        entity = .word word.id ∧ other = .wordData) := by
  obtain ⟨part, rfl, hpart⟩ := (offset?_imageTable_eq_some_iff hwell).mp hentity
  obtain ⟨second, rfl, hsecond⟩ := (offset?_imageTable_eq_some_iff hwell).mp hother
  obtain ⟨word, hword, hcases⟩ := speechStart_and_first_word_of_mem hpart hsecond
    (fun heq => hne (congrArg Part.entity heq)) hsizes
  refine ⟨word, hword, ?_⟩
  rcases hcases with ⟨rfl, rfl⟩ | ⟨rfl, rfl⟩
  · exact .inl ⟨rfl, rfl⟩
  · exact .inr ⟨rfl, rfl⟩

/-- **A layout tiles the image.**  Its table has one entry for each entity of the pack, in order and
without gaps from the first byte to the size of the image, which can be addressed; the phrase
region is written with the length that was planned; and no two entities take the same byte or,
if all words have data, share an offset, but for the start of the speech data and the first word. -/
theorem tiled_of_layout {sources : List Source} (hread : Pack.ofSources sources = .ok pack)
    (hlayout : Layout.ofPack pack vocabulary = .ok layout) : Tiled pack vocabulary layout := by
  have hwell := Pack.wellFormed_of_ofSources hread
  obtain ⟨hsettled, hsize, rfl⟩ := layout_ofPack_eq_ok hlayout
  have htiles : Tiles 0 (extents pack vocabulary) (imageTable pack vocabulary).offsets.entries
      (imageSize pack vocabulary) := by
    rw [extents_eq, entries_imageTable hwell, ← span_imageParts, ← Nat.zero_add (span _)]
    exact tiles_stack 0 _
  have horder : (imageTable pack vocabulary).offsets.keys = (extents pack vocabulary).map Prod.fst :=
    htiles.map_fst_eq
  exact
    { order := horder
      distinct := by
        rw [horder, extents_eq, List.map_map]
        exact nodup_entities hwell vocabulary
      count := by
        rw [← length_extents pack vocabulary, ← List.length_map Prod.fst, ← horder]
        exact (List.length_map _).symm
      tiles := htiles
      size_le := hsize
      speech := by
        refine ⟨pack.words.values.map (speechOf vocabulary), ?_, List.flatMap_def⟩
        rw [List.forall₂_map_right_iff, List.forall₂_same]
        exact fun _ => get?_eq_speechOf_of_settled hsettled
      region := by
        refine ⟨_, banksBytes_imageTable hwell vocabulary, ?_⟩
        rw [Layout.phraseRegionSize, ← length_regionBytes pack vocabulary, Nat.add_sub_cancel_left]
      apart := fun _ _ _ _ _ _ => apart_of_takes hwell rfl
      shared := fun _ => offset?_first_word hwell
      shared_only := fun hspoken _ _ _ => wordData_and_first_word_of_offset? hwell
        fun word hword =>
          size_wordPart_pos (isSome_get?_of_settled hsettled hword) (hspoken word hword) }

end Tiled

theorem tiled_of_layout_greeting :
    ∃ layout, Pack.ofSources greetingSources = .ok greetingPack ∧
      Layout.ofPack greetingPack greetingVocabulary = .ok layout ∧
      Tiled greetingPack greetingVocabulary layout ∧ layout.size = 26 ∧
      layout.addresses.offsets.entries =
        [(.header, 0), (.bank ⟨0⟩, 4), (.phrase ⟨0⟩, 7), (.bank ⟨1⟩, 12), (.phrase ⟨1⟩, 17),
          (.phrase ⟨2⟩, 20), (.wordData, 23), (.word ⟨0⟩, 23), (.word ⟨1⟩, 25)] := by
  obtain ⟨layout, hlayout, hsize, hentries⟩ : ∃ layout,
      Layout.ofPack greetingPack greetingVocabulary = .ok layout ∧ layout.size = 26 ∧
        layout.addresses.offsets.entries =
          [(.header, 0), (.bank ⟨0⟩, 4), (.phrase ⟨0⟩, 7), (.bank ⟨1⟩, 12), (.phrase ⟨1⟩, 17),
            (.phrase ⟨2⟩, 20), (.wordData, 23), (.word ⟨0⟩, 23), (.word ⟨1⟩, 25)] :=
    ⟨_, rfl, rfl, rfl⟩
  exact ⟨layout, ofSources_greetingSources, hlayout,
    tiled_of_layout ofSources_greetingSources hlayout, hsize, hentries⟩

end SpeechRom.Rom
