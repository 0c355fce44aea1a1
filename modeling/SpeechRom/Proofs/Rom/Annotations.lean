import SpeechRom.Proofs.Pack.Printing
import SpeechRom.Proofs.Rom.Listing
import SpeechRom.Proofs.Rom.Tiling

/-!
# Annotations lose no entity

`LabelOf` says what the label of an entity reads: a phrase, for one, has its place in its bank and
the spelling of its tokens.  The labels of a linked image are the labels of its entities, joined
where entities share an offset (`Annotates`).  If the words have data, only the start of the speech
data and the first word do, and every listing has a comment for every entity (`Listed`).

## Strategy

Labels are added entry by entry, so the label at an offset is that of the entries with this offset,
in the order of the table (`getElem?_labels`).  The labels of phrases are gathered in a walk through
the banks and looked up by number; numbers are distinct, so that the walk files every phrase once
(`get?_phraseLabels`).
-/

namespace SpeechRom.Rom

/-! ## What labels read -/

/-- How a label spells a token. -/
inductive TokenName (pack : Pack) : Token → String → Prop
  | word {id : WordId} {word : Word} (hword : pack.word? id = some word) :
      TokenName pack (.word id) word.text
  | bank {id : BankId} {bank : Bank} (hbank : pack.bank? id = some bank) :
      TokenName pack (.bank id) ("\x7b" ++ bank.name ++ "\x7d")

/-- The text is the label of the entity. -/
inductive LabelOf (pack : Pack) : Entity → String → Prop
  | header : LabelOf pack .header
      "ROM Header, word bank start pointer and the primary bank pointer."
  | bank {bank : Bank} (hbank : bank ∈ pack.banks.values) :
      LabelOf pack (.bank bank.id) ("PhraseBank [" ++ bank.name ++ "]")
  | phrase {bank : Bank} {index : Nat} {phrase : Phrase} {names : List String}
      (hbank : bank ∈ pack.banks.values) (hphrase : bank.phrases[index]? = some phrase)
      (hnames : List.Forall₂ (TokenName pack) phrase.tokens names) :
      LabelOf pack (.phrase phrase.id)
        ("Phrase " ++ toString index ++ " of [" ++ bank.name ++ "]: " ++ " ".intercalate names)
  | wordData : LabelOf pack .wordData "Word bank"
  | word {word : Word} (hword : word ∈ pack.words.values) :
      LabelOf pack (.word word.id) ("Word [" ++ word.text ++ "]")

/-- The entities that have an offset, in the order of the table. -/
def AddressTable.entitiesAt (table : AddressTable) (offset : Nat) : List Entity :=
  (table.offsets.entries.filter (·.2 = offset)).map Prod.fst

/-- The labels are those of the entities of the pack at their offsets. -/
structure Annotates (pack : Pack) (table : AddressTable) (labels : Labels) : Prop where
  /-- The table has the entities with a label, each once. -/
  entities : ∀ entity, entity ∈ table.offsets.keys ↔ ∃ text, LabelOf pack entity text
  distinct : table.offsets.keys.Nodup
  unique : ∀ entity text other, LabelOf pack entity text → LabelOf pack entity other →
    text = other
  offsets : ∀ offset, offset ∈ labels ↔ ∃ entity, table.offset? entity = some offset
  joined : ∀ offset label, labels[offset]? = some label →
    ∃ texts, List.Forall₂ (LabelOf pack) (table.entitiesAt offset) texts ∧
      label = " / ".intercalate texts

/-- Every entity has its label in every listing, and only two share an offset. -/
structure Listed (pack : Pack) (image : Image) : Prop where
  speechStart : ∃ word, pack.words.values.head? = some word ∧
    image.addresses.entitiesAt image.speechStart = [.wordData, .word word.id]
  single : ∀ entity offset, image.addresses.offset? entity = some offset →
    offset ≠ image.speechStart → image.addresses.entitiesAt offset = [entity]
  listed : ∀ width, ∃ page, readListing? (image.listing pack width) = some page ∧
    ∀ entity text, LabelOf pack entity text →
      ∃ offset texts, image.addresses.offset? entity = some offset ∧
        List.Forall₂ (LabelOf pack) (image.addresses.entitiesAt offset) texts ∧ text ∈ texts ∧
        ListingLine.comment offset (" / ".intercalate texts) ∈ page

/-! ## Labels that are added one after another -/

theorem getElem?_add (labels : Labels) (offset other : Nat) (label : String) :
    (labels.add offset label)[other]? =
      if offset = other then
        some ((labels[offset]?.map fun present => present ++ " / " ++ label).getD label)
      else labels[other]? := by
  unfold Labels.add
  cases labels[offset]? <;>
    simp only [Std.TreeMap.getElem?_insert, Std.LawfulEqCmp.compare_eq_iff_eq, Option.map_some,
      Option.map_none, Option.getD_some, Option.getD_none]

/-- Texts in a row, if there are any. -/
def joined? (texts : List String) : Option String :=
  if texts = [] then none else some (" / ".intercalate texts)

theorem joined?_concat (texts : List String) (text : String) :
    joined? (texts ++ [text]) =
      some (((joined? texts).map fun present => present ++ " / " ++ text).getD text) := by
  unfold joined?
  rw [if_neg (List.append_ne_nil_of_right_ne_nil _ (List.cons_ne_nil _ _))]
  by_cases htexts : texts = []
  · subst htexts
    exact congrArg some String.intercalate_singleton
  · rw [if_neg htexts, String.intercalate_append_of_ne_nil htexts (List.cons_ne_nil _ _),
      String.intercalate_singleton]
    rfl

/-- At every offset are the labels that were added there, in order. -/
theorem getElem?_foldl_add {α : Type} (offsetOf : α → Nat) (labelOf : α → String) (items : List α)
    (offset : Nat) :
    (items.foldl (fun labels item => Labels.add labels (offsetOf item) (labelOf item)) ∅)[offset]? =
      joined? ((items.filter (offsetOf · = offset)).map labelOf) := by
  -- the item added last joins what stands at its offset and leaves the other labels alone
  induction items using List.reverseRecOn with
  | nil => exact Std.TreeMap.getElem?_emptyc
  | append_singleton items item ih =>
      rw [List.foldl_append, List.foldl_cons, List.foldl_nil, getElem?_add, List.filter_append,
        List.map_append]
      by_cases hoffset : offsetOf item = offset
      · subst hoffset
        rw [if_pos rfl, ih, List.filter_cons_of_pos (by simp), List.filter_nil, List.map_singleton,
          joined?_concat]
      · rw [if_neg hoffset, ih, List.filter_cons_of_neg (by simpa using hoffset), List.filter_nil,
          List.map_nil, List.append_nil]

theorem getElem?_labels (table : AddressTable) (pack : Pack) (offset : Nat) :
    (table.labels pack)[offset]? =
      joined? ((table.entitiesAt offset).map (entityLabel pack (phraseLabels pack))) := by
  have hlabels := getElem?_foldl_add (fun entry : Entity × Nat => entry.2)
    (fun entry => entityLabel pack (phraseLabels pack) entry.1) table.offsets.entries offset
  rw [AddressTable.entitiesAt, List.map_map]
  exact hlabels

/-! ## Labels of entities -/

section Entities

variable {pack : Pack} {entity : Entity} {text : String}

theorem TokenName.eq_spell {token : Token} (hname : TokenName pack token text) :
    text = pack.spell token := by
  cases hname with
  | word hword => rw [Pack.spell, hword, Option.map_some, Option.getD_some]
  | bank hbank => rw [Pack.spell, hbank, Option.map_some, Option.getD_some]

theorem tokenName_spell {token : Token} (hresolves : pack.Resolves token) :
    TokenName pack token (pack.spell token) := by
  cases token with
  | word id =>
      obtain ⟨word, hword⟩ := Pack.word?_isSome_of_lt hresolves
      rw [Pack.spell, hword]
      exact .word hword
  | bank id =>
      obtain ⟨bank, hbank⟩ := Pack.bank?_isSome_of_lt hresolves
      rw [Pack.spell, hbank]
      exact .bank hbank

theorem eq_map_spell {tokens : List Token} {names : List String}
    (hnames : List.Forall₂ (TokenName pack) tokens names) : names = tokens.map pack.spell := by
  induction hnames with
  | nil => rfl
  | cons hname _ ih => rw [List.map_cons, hname.eq_spell, ih]

/-- The label of a phrase that stands at a place in a bank. -/
def phraseLabel (pack : Pack) (bank : Bank) (index : Nat) (phrase : Phrase) : String :=
  "Phrase " ++ toString index ++ " of [" ++ bank.name ++ "]: " ++ pack.phraseText phrase

theorem map_fst_bankPhraseLabels (pack : Pack) (bank : Bank) :
    (bankPhraseLabels pack bank).map Prod.fst = bank.phrases.map (·.id) := by
  rw [bankPhraseLabels, List.map_map, ← List.zipIdx_map_fst 0 bank.phrases, List.map_map,
    List.zipIdx_map_fst]
  rfl

/-- The walk through the banks files the label of every phrase under its number. -/
theorem get?_phraseLabels (hdistinct : pack.phraseIds.Nodup) {bank : Bank}
    (hbank : bank ∈ pack.banks.values) {index : Nat} {phrase : Phrase}
    (hphrase : bank.phrases[index]? = some phrase) :
    (phraseLabels pack).get? phrase.id = some (phraseLabel pack bank index phrase) := by
  -- numbers are distinct across banks, so no label takes the place of another one
  have hkeys : ((pack.banks.values.flatMap (bankPhraseLabels pack)).map Prod.fst).Nodup := by
    rw [List.map_flatMap, funext (map_fst_bankPhraseLabels pack)]
    exact hdistinct
  rw [OrderedMap.get?_eq_some_iff, phraseLabels, OrderedMap.entries_ofList hkeys]
  refine List.mem_flatMap.mpr ⟨bank, hbank, ?_⟩
  exact List.mem_map.mpr ⟨(phrase, index), List.mem_zipIdx_iff_getElem?.mpr hphrase, rfl⟩

/-- An entity has no label but the one that annotations give it. -/
theorem LabelOf.eq_entityLabel (hwell : pack.WellFormed) (hlabel : LabelOf pack entity text) :
    text = entityLabel pack (phraseLabels pack) entity := by
  cases hlabel with
  | header => rfl
  | bank hbank =>
      rw [entityLabel, hwell.indexed.bank?_of_mem hbank, Option.map_some, Option.getD_some]
  | phrase hbank hphrase hnames =>
      rw [entityLabel, get?_phraseLabels hwell.distinct hbank hphrase, Option.getD_some,
        phraseLabel, eq_map_spell hnames, Pack.phraseText]
  | wordData => rfl
  | word hword =>
      rw [entityLabel, hwell.indexed.word?_of_mem hword, Option.map_some, Option.getD_some]

/-- A phrase of the pack has a label. -/
theorem exists_labelOf_phrase (hwell : pack.WellFormed) {bank : Bank}
    (hbank : bank ∈ pack.banks.values) {index : Nat} {phrase : Phrase}
    (hphrase : bank.phrases[index]? = some phrase) :
    ∃ text, LabelOf pack (.phrase phrase.id) text := by
  have hnames : List.Forall₂ (TokenName pack) phrase.tokens (phrase.tokens.map pack.spell) := by
    rw [List.forall₂_map_right_iff, List.forall₂_same]
    exact fun token htoken => tokenName_spell
      ((hwell.sayable bank hbank phrase (List.mem_of_getElem? hphrase)).resolves token htoken)
  exact ⟨_, .phrase hbank hphrase hnames⟩

/-- The parts of an image are the entities with a label. -/
theorem exists_part_iff_exists_labelOf (hwell : pack.WellFormed) (vocabulary : Vocabulary) :
    (∃ part ∈ imageParts pack vocabulary, part.entity = entity) ↔
      ∃ text, LabelOf pack entity text := by
  constructor
  · rintro ⟨part, hpart, rfl⟩
    rw [imageParts, List.cons_append, List.mem_cons, List.mem_append, List.mem_cons] at hpart
    rcases hpart with rfl | hpart | rfl | hpart
    · exact ⟨_, .header⟩
    · obtain ⟨bank, hbank, rfl | ⟨index, phrase, hphrase, rfl⟩⟩ := mem_regionParts_iff.mp hpart
      · exact ⟨_, .bank hbank⟩
      · exact exists_labelOf_phrase hwell hbank hphrase
    · exact ⟨_, .wordData⟩
    · obtain ⟨word, hword, rfl⟩ := List.mem_map.mp hpart
      exact ⟨_, .word hword⟩
  · rintro ⟨text, hlabel⟩
    cases hlabel with
    | header => exact ⟨headerPart, List.mem_cons_self, rfl⟩
    | bank hbank =>
        exact ⟨_, regionParts_subset (directoryPart_mem hbank), rfl⟩
    | phrase hbank hphrase _ =>
        exact ⟨_, regionParts_subset (phrasePart_mem hbank hphrase), rfl⟩
    | wordData => exact ⟨speechStartPart, List.mem_append_right _ List.mem_cons_self, rfl⟩
    | word hword => exact ⟨_, wordPart_mem hword, rfl⟩

end Entities

/-! ## The labels of an image -/

section Linked

variable {pack : Pack} {vocabulary : Vocabulary}

theorem mem_entitiesAt_iff {table : AddressTable} {entity : Entity} {offset : Nat} :
    entity ∈ table.entitiesAt offset ↔ table.offset? entity = some offset := by
  rw [AddressTable.offset?, OrderedMap.get?_eq_some_iff, AddressTable.entitiesAt, List.mem_map]
  constructor
  · rintro ⟨⟨found, place⟩, hmem, rfl⟩
    obtain ⟨hentry, hplace⟩ := List.mem_filter.mp hmem
    rw [decide_eq_true_eq] at hplace
    exact hplace ▸ hentry
  · intro hentry
    exact ⟨(entity, offset), List.mem_filter.mpr ⟨hentry, by simp⟩, rfl⟩

theorem nodup_entitiesAt (table : AddressTable) (offset : Nat) :
    (table.entitiesAt offset).Nodup :=
  table.offsets.distinct.sublist (List.filter_sublist.map Prod.fst)

theorem mem_labels_iff {table : AddressTable} {offset : Nat} :
    offset ∈ table.labels pack ↔ ∃ entity, table.offset? entity = some offset := by
  rw [← Std.TreeMap.isSome_getElem?_iff_mem, getElem?_labels, joined?]
  simp only [List.map_eq_nil_iff, ← mem_entitiesAt_iff]
  by_cases hnone : table.entitiesAt offset = []
  · simp [hnone]
  · simp [hnone, List.exists_mem_of_ne_nil _ hnone]

/-- The entities of the table are those of the pack. -/
theorem mem_keys_imageTable_iff (hwell : pack.WellFormed) {entity : Entity} :
    entity ∈ (imageTable pack vocabulary).offsets.keys ↔ ∃ text, LabelOf pack entity text := by
  rw [← exists_part_iff_exists_labelOf hwell vocabulary, OrderedMap.keys,
    entries_imageTable hwell, List.map_map, ← List.mem_map, ← map_entity_imageStack]
  rfl

/-- The entities at an offset have one label each. -/
theorem exists_labels_entitiesAt (hwell : pack.WellFormed) (offset : Nat) :
    List.Forall₂ (LabelOf pack) ((imageTable pack vocabulary).entitiesAt offset)
      (((imageTable pack vocabulary).entitiesAt offset).map
        (entityLabel pack (phraseLabels pack))) := by
  rw [List.forall₂_map_right_iff, List.forall₂_same]
  intro entity hentity
  have hkey := OrderedMap.mem_keys_of_get? (mem_entitiesAt_iff.mp hentity)
  obtain ⟨text, hlabel⟩ := (mem_keys_imageTable_iff hwell).mp hkey
  rwa [← hlabel.eq_entityLabel hwell]

/-- The labels of a linked image are those of its entities. -/
theorem annotates_imageTable (hwell : pack.WellFormed) :
    Annotates pack (imageTable pack vocabulary) ((imageTable pack vocabulary).labels pack) where
  entities := fun _ => mem_keys_imageTable_iff hwell
  distinct := (imageTable pack vocabulary).offsets.distinct
  unique := fun _ _ _ hlabel hother =>
    (hlabel.eq_entityLabel hwell).trans (hother.eq_entityLabel hwell).symm
  offsets := fun _ => mem_labels_iff
  joined := by
    intro offset label hlabel
    refine ⟨_, exists_labels_entitiesAt hwell offset, ?_⟩
    rw [getElem?_labels, joined?] at hlabel
    split at hlabel
    · cases hlabel
    · exact (Option.some.inj hlabel).symm

end Linked

/-! ## Entities that share an offset -/

/-- Nothing in a row of parts stands in front of its start. -/
theorem filter_stack_of_lt {start offset : Nat} (hlt : offset < start) (parts : List Part) :
    (stack start parts).filter (·.2 = offset) = [] := by
  rw [List.filter_eq_nil_iff]
  intro placed hmem hoffset
  rw [decide_eq_true_eq] at hoffset
  have hstart := (bounds_of_mem_stack hmem).1
  omega

/-- Nothing in a row of parts that take up bytes stands behind its end. -/
theorem filter_stack_of_le {start offset : Nat} {parts : List Part}
    (hpos : ∀ part ∈ parts, 0 < part.size) (hle : start + span parts ≤ offset) :
    (stack start parts).filter (·.2 = offset) = [] := by
  rw [List.filter_eq_nil_iff]
  intro placed hmem hoffset
  rw [decide_eq_true_eq] at hoffset
  have hend := (bounds_of_mem_stack hmem).2
  have hsize := hpos placed.1 (mem_of_mem_stack hmem)
  omega

section Spoken

variable {pack : Pack} {vocabulary : Vocabulary}
  (hsizes : ∀ word ∈ pack.words.values, 0 < (wordPart vocabulary word).size)

include hsizes

/-- Where the speech data starts, there is the first word and nothing else. -/
theorem entitiesAt_regionEnd (hwell : pack.WellFormed) {word : Word}
    (hfirst : pack.words.values.head? = some word) :
    (imageTable pack vocabulary).entitiesAt (regionEnd pack) = [.wordData, .word word.id] := by
  obtain ⟨rest, hwords⟩ := List.head?_eq_some_iff.mp hfirst
  have hheader : (0 : Nat) ≠ regionEnd pack := by
    have hle : headerSize ≤ regionEnd pack := Nat.le_add_right _ _
    rw [headerSize, pointerSize] at hle
    omega
  have hregion : (stack headerSize (regionParts pack)).filter (·.2 = regionEnd pack) = [] :=
    filter_stack_of_le (fun _ => size_pos_of_mem_regionParts) (Nat.le_refl _)
  have hlater : (stack (regionEnd pack + (wordPart vocabulary word).size)
      (rest.map (wordPart vocabulary))).filter (·.2 = regionEnd pack) = [] :=
    filter_stack_of_lt (Nat.lt_add_of_pos_right (hsizes word (hwords ▸ List.mem_cons_self))) _
  -- between the region and the later words there are the start of the speech data and one word
  have hstack : (imageStack pack vocabulary).filter (·.2 = regionEnd pack) =
      [(speechStartPart, regionEnd pack), (wordPart vocabulary word, regionEnd pack)] := by
    rw [imageStack_eq, hwords, List.map_cons, stack, List.cons_append,
      List.filter_cons_of_neg (by simpa using hheader), List.filter_append, hregion,
      List.filter_cons_of_pos (by simp), List.filter_cons_of_pos (by simp), hlater]
    rfl
  rw [AddressTable.entitiesAt, entries_imageTable hwell, List.filter_map]
  exact congrArg (fun placed => (placed.map fun entry => (entry.1.entity, entry.2)).map Prod.fst)
    hstack

/-- Elsewhere there is one entity at most. -/
theorem entitiesAt_eq_singleton (hwell : pack.WellFormed) {entity : Entity} {offset : Nat}
    (hentity : (imageTable pack vocabulary).offset? entity = some offset)
    (hoffset : offset ≠ regionEnd pack) :
    (imageTable pack vocabulary).entitiesAt offset = [entity] := by
  have hall : ∀ other, other ∈ (imageTable pack vocabulary).entitiesAt offset → other = entity := by
    intro other hmem
    by_contra hne
    have hother := mem_entitiesAt_iff.mp hmem
    have hstart := offset?_of_mem_imageStack hwell (mem_imageStack_speechStart pack vocabulary)
    obtain ⟨word, _, ⟨rfl, _⟩ | ⟨_, rfl⟩⟩ :=
      wordData_and_first_word_of_offset? hwell hsizes hne hother hentity
    · exact hoffset (Option.some.inj (hother.symm.trans hstart))
    · exact hoffset (Option.some.inj (hentity.symm.trans hstart))
  refine List.perm_singleton.mp ((List.perm_ext_iff_of_nodup (nodup_entitiesAt _ _)
    (List.nodup_singleton entity)).mpr fun other => ?_)
  rw [List.mem_singleton]
  exact ⟨hall other, fun heq => heq ▸ mem_entitiesAt_iff.mpr hentity⟩

/-- Every part stands within the image. -/
theorem offset_lt_imageSize {word : Word} (hfirst : pack.words.values.head? = some word)
    {part : Part} {offset : Nat} (hmem : (part, offset) ∈ imageStack pack vocabulary) :
    offset < imageSize pack vocabulary := by
  -- what takes up no bytes is the start of the speech data, and the first word stands there too
  rcases Nat.eq_zero_or_pos part.size with hzero | hpos
  · obtain ⟨_, rfl⟩ := eq_speechStartPart_of_size hmem hzero hsizes
    have hwordPos := hsizes word (List.mem_of_mem_head? hfirst)
    have hword : (wordPart vocabulary word, regionEnd pack) ∈ imageStack pack vocabulary :=
      mem_imageStack_first_word hfirst
    have hbounds := (bounds_of_mem_stack hword).2
    rw [span_imageParts] at hbounds
    omega
  · have hbounds := (bounds_of_mem_stack hmem).2
    rw [span_imageParts] at hbounds
    omega

/-- Every entity with a label has its offset within the image. -/
theorem exists_offset_of_labelOf (hwell : pack.WellFormed) {word : Word}
    (hfirst : pack.words.values.head? = some word) {entity : Entity} {text : String}
    (hlabel : LabelOf pack entity text) :
    ∃ offset, (imageTable pack vocabulary).offset? entity = some offset ∧
      offset < imageSize pack vocabulary := by
  obtain ⟨part, hpart, rfl⟩ :=
    (exists_part_iff_exists_labelOf hwell vocabulary).mpr ⟨text, hlabel⟩
  obtain ⟨offset, hmem⟩ := exists_mem_imageStack hpart
  exact ⟨offset, offset?_of_mem_imageStack hwell hmem, offset_lt_imageSize hsizes hfirst hmem⟩

end Spoken

/-! ## Labels in listings -/

theorem lineFeed_not_mem_joined {texts : List String}
    (htexts : ∀ text ∈ texts, '\n' ∉ text.toList) :
    '\n' ∉ (" / ".intercalate texts).toList := by
  induction texts with
  | nil => simp
  | cons text rest ih =>
      obtain ⟨htext, hrest⟩ := List.forall_mem_cons.mp htexts
      by_cases hnone : rest = []
      · subst hnone
        rwa [String.intercalate_singleton]
      · have hseparator : '\n' ∉ " / ".toList := by decide
        rw [String.intercalate_cons_of_ne_nil hnone, String.toList_append, String.toList_append,
          List.mem_append, List.mem_append]
        exact fun hmem => hmem.elim (fun hmem => hmem.elim htext hseparator) (ih hrest)

section Read

variable {sources : List Source} {pack : Pack} (hread : Pack.ofSources sources = .ok pack)

include hread

/-- Labels are on one line each, as names and phrases are. -/
theorem LabelOf.lineFeed_not_mem {entity : Entity} {text : String}
    (hlabel : LabelOf pack entity text) : '\n' ∉ text.toList := by
  have hname : ∀ {name : String}, Identifier name.toList → '\n' ∉ name.toList :=
    fun hidentifier hmem =>
      Pack.solid_of_identifier hidentifier '\n' hmem Text.lineFeed_mem_blanks
  cases hlabel with
  | header => decide
  | bank hbank => simp [hname (Pack.identifier_of_bank hread hbank)]
  | phrase hbank hphrase hnames =>
      have hphraseText := Pack.lineFeed_not_mem_phraseText hread hbank (List.mem_of_getElem? hphrase)
      rw [Pack.phraseText, ← eq_map_spell hnames] at hphraseText
      simp only [String.toList_append, List.mem_append, Nat.toString_eq_ofList_toDigits,
        String.toList_ofList, Pack.lineFeed_not_mem_toDigits, hphraseText,
        hname (Pack.identifier_of_bank hread hbank), or_false]
      decide
  | wordData => decide
  | word hword => simp [hname (Pack.identifier_of_word hread hword)]

theorem singleLines_labels {vocabulary : Vocabulary} :
    SingleLines ((imageTable pack vocabulary).labels pack) := by
  have hwell := Pack.wellFormed_of_ofSources hread
  intro offset label hlabel
  obtain ⟨texts, htexts, rfl⟩ := (annotates_imageTable hwell).joined offset label hlabel
  refine lineFeed_not_mem_joined fun text htext => ?_
  obtain ⟨_, _, hlabelOf⟩ := exists_left_of_forall₂ htexts htext
  exact hlabelOf.lineFeed_not_mem hread

end Read

/-- What is labelled within the image stands on the page of the image. -/
theorem comment_mem_pageOf {bytes : List UInt8} {labels : Labels} {offset : Nat} {label : String}
    (hlabel : labels[offset]? = some label) (hlt : offset < bytes.length)
    (haddress : offset < 65536) (width : Nat) :
    ListingLine.comment offset label ∈ (pageOf width labels bytes).lines := by
  have hcomment : (offset, label) ∈
      (pageOf width labels bytes).lines.filterMap (·.comment?) := by
    rw [comments_pageOf, List.mem_filterMap]
    refine ⟨offset, List.mem_range.mpr hlt, ?_⟩
    rw [labelAt?, hlabel, Option.map_some, Nat.mod_eq_of_lt haddress]
  obtain ⟨line, hline, heq⟩ := List.mem_filterMap.mp hcomment
  cases line with
  | comment address text =>
      cases heq
      exact hline
  | _ => cases heq

/-! ## The main statement -/

/-- **Annotations lose no entity.**  The labels of a linked image are those of all its entities, at
their offsets; and if the pack has words and all of them have data, every listing has a comment for
every entity, and only the start of the speech data and the first word share one. -/
theorem annotates_of_linked {sources : List Source} {pack : Pack} {vocabulary : Vocabulary}
    {primary : String} {image : Image} (hread : Pack.ofSources sources = .ok pack)
    (hlink : Image.ofPack pack vocabulary primary = .ok image) :
    Annotates pack image.addresses (image.addresses.labels pack) ∧
      (pack.words.values ≠ [] →
        (∀ word ∈ pack.words.values, vocabulary.get? word.text ≠ some []) → Listed pack image) := by
  have hwell := Pack.wellFormed_of_ofSources hread
  obtain ⟨start, _, hsettled, himage, rfl⟩ := (image_ofPack_eq_ok_iff hwell).mp hlink
  refine ⟨annotates_imageTable hwell, fun hwords hspoken => ?_⟩
  have hsizes : ∀ word ∈ pack.words.values, 0 < (wordPart vocabulary word).size :=
    fun word hword =>
      size_wordPart_pos (isSome_get?_of_settled hsettled hword) (hspoken word hword)
  have hfirst := List.head?_eq_some_head hwords
  have hlength := length_linkedImage pack vocabulary start
  -- there are bytes, so the listing is read as a page with rows
  have hbytes : (linkedImage pack vocabulary start).bytes ≠ [] := by
    have hlt := offset_lt_imageSize hsizes hfirst (mem_imageStack_speechStart pack vocabulary)
    exact List.ne_nil_of_length_pos (hlength ▸ Nat.zero_lt_of_lt hlt)
  refine ⟨⟨_, hfirst, entitiesAt_regionEnd hsizes hwell hfirst⟩,
    fun _ _ => entitiesAt_eq_singleton hsizes hwell, fun width => ?_⟩
  refine ⟨_, readListing?_listing hbytes width (singleLines_labels hread), ?_⟩
  intro entity text hlabel
  obtain ⟨offset, hoffset, hlt⟩ := exists_offset_of_labelOf hsizes hwell hfirst hlabel
  have hat := mem_entitiesAt_iff.mpr hoffset
  refine ⟨offset, _, hoffset, exists_labels_entitiesAt hwell offset, ?_, ?_⟩
  · rw [hlabel.eq_entityLabel hwell]
    exact List.mem_map_of_mem hat
  · refine comment_mem_pageOf ?_ (hlength ▸ hlt) (Nat.lt_of_lt_of_le hlt himage) width
    exact (getElem?_labels _ _ _).trans
      (if_neg (mt List.map_eq_nil_iff.mp (List.ne_nil_of_mem hat)))

theorem annotates_of_linked_greeting :
    ∃ image, Pack.ofSources greetingSources = .ok greetingPack ∧
      Image.ofPack greetingPack greetingVocabulary "primary" = .ok image ∧
      Annotates greetingPack image.addresses (image.addresses.labels greetingPack) ∧
      Listed greetingPack image ∧
      (image.addresses.labels greetingPack)[7]? =
        some "Phrase 0 of [primary]: hello \x7bfriend\x7d" ∧
      (image.addresses.labels greetingPack)[23]? = some "Word bank / Word [hello]" := by
  obtain ⟨image, hlink, haddresses⟩ : ∃ image,
      Image.ofPack greetingPack greetingVocabulary "primary" = .ok image ∧
        image.addresses = imageTable greetingPack greetingVocabulary := ⟨_, rfl, rfl⟩
  obtain ⟨hannotates, hlisted⟩ := annotates_of_linked ofSources_greetingSources hlink
  refine ⟨image, ofSources_greetingSources, hlink, hannotates,
    hlisted (by decide) (by decide), ?_, ?_⟩
  · rw [getElem?_labels, haddresses]
    decide +kernel
  · rw [getElem?_labels, haddresses]
    decide +kernel

end SpeechRom.Rom
