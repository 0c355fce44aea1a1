import SpeechRom.Proofs.Pack.Renaming
import SpeechRom.Proofs.Rom.Linking

/-!
# Names do not leak into an image

Under other names the same image is linked, and what fails, fails in the same way
(`image_of_renamed_sources`): bytes and addresses are those of handles and data, and a name is only
ever looked up.  Banks and words are renamed without regard to one another, so that a bank and a
word may share a name on one side only.

## Strategy

An image is the stack of its parts.  The parts of the renamed pack are the parts of the pack with
renamed objections (`imageParts_renamed`), so they come to stand at the same offsets, and the first
one that is refused is the same.
-/

namespace SpeechRom

/-- The failure as it reads under the new names. -/
def BuildError.rename (r : Renaming) : BuildError → BuildError
  | .badToken bank line token =>
    .badToken (r.bank bank) line (String.ofList (r.token token.toList))
  | .noSuchBank bank line reference => .noSuchBank (r.bank bank) line (r.bank reference)
  | .emptyBank bank => .emptyBank (r.bank bank)
  | .missingPrimary bank => .missingPrimary (r.bank bank)
  | .unknownBank bank => .unknownBank (r.bank bank)
  | .notRecorded word => .notRecorded (r.word word)
  | .ring chain => .ring (chain.map r.bank)
  | .tooManyPhrases bank count => .tooManyPhrases (r.bank bank) count
  | .tooManyTokens bank phrase count => .tooManyTokens (r.bank bank) phrase count
  | failure => failure

namespace Rom

/-! ## Parts under other names -/

/-- The part of the renamed pack: the objection speaks of the new names. -/
def Part.rename (r : Renaming) (part : Part) : Part :=
  { part with objection := part.objection.map (·.rename r) }

section Parts

variable {r : Renaming}

theorem phraseParts_renamed (bank : String) (index : Nat) (phrases : List Phrase) :
    phraseParts (r.bank bank) index phrases = (phraseParts bank index phrases).map (·.rename r) := by
  rw [phraseParts, phraseParts, List.map_map]
  refine List.map_congr_left fun entry _ => ?_
  rw [Function.comp_apply, phrasePart, phrasePart, Part.rename]
  split <;> rfl

theorem bankParts_renamed (bank : Bank) :
    bankParts (r.toBank bank) = (bankParts bank).map (·.rename r) := by
  have hdirectory : directoryPart (r.toBank bank) = (directoryPart bank).rename r := by
    rw [directoryPart, directoryPart, Part.rename, Renaming.toBank]
    dsimp only
    split <;> rfl
  rw [bankParts, bankParts, List.map_cons, hdirectory]
  exact congrArg _ (phraseParts_renamed bank.name 0 bank.phrases)

/-- Parts that are renamed stand where they stood. -/
theorem stack_renamed (start : Nat) (parts : List Part) :
    stack start (parts.map (·.rename r)) = (stack start parts).map (Prod.map (·.rename r) id) := by
  induction parts generalizing start with
  | nil => rfl
  | cons part rest ih => rw [List.map_cons, stack, ih, stack, List.map_cons]; rfl

theorem span_renamed (parts : List Part) : span (parts.map (·.rename r)) = span parts := by
  rw [span, span, List.map_map]
  rfl

theorem refusal_renamed (placed : Part × Nat) :
    refusal (Prod.map (·.rename r) id placed) = (refusal placed).map (·.rename r) := by
  obtain ⟨⟨entity, size, objection⟩, offset⟩ := placed
  cases objection with
  | some objection => rfl
  | none =>
      simp only [refusal, Part.rename, Prod.map_apply, id_eq, Option.map_none]
      split <;> rfl

theorem findSome?_refusal_renamed (placed : List (Part × Nat)) :
    (placed.map (Prod.map (·.rename r) id)).findSome? refusal =
      (placed.findSome? refusal).map (·.rename r) := by
  induction placed with
  | nil => rfl
  | cons entry rest ih =>
      rw [List.map_cons, List.findSome?_cons, List.findSome?_cons, refusal_renamed, ih]
      cases refusal entry <;> rfl

end Parts

/-! ## The image of a renamed pack -/

section Image

variable {r : Renaming} {pack renamed : Pack} {vocabulary renamedVocabulary : Vocabulary}

theorem values_banks_renamed (hrenamed : Pack.IsRenamed r pack renamed) :
    renamed.banks.values = pack.banks.values.map r.toBank := by
  rw [OrderedMap.values, hrenamed.banks, OrderedMap.values, List.map_map, List.map_map]
  rfl

theorem values_words_renamed (hrenamed : Pack.IsRenamed r pack renamed) :
    renamed.words.values = pack.words.values.map r.toWord := by
  rw [OrderedMap.values, hrenamed.words, OrderedMap.values, List.map_map, List.map_map]
  rfl

theorem regionParts_renamed (hrenamed : Pack.IsRenamed r pack renamed) :
    regionParts renamed = (regionParts pack).map (·.rename r) := by
  rw [regionParts, values_banks_renamed hrenamed, List.flatMap_map, regionParts, List.map_flatMap]
  exact List.flatMap_congr fun bank _ => bankParts_renamed bank

theorem regionEnd_renamed (hrenamed : Pack.IsRenamed r pack renamed) :
    regionEnd renamed = regionEnd pack := by
  rw [regionEnd, regionParts_renamed hrenamed, span_renamed, regionEnd]

variable (hrenamed : Pack.IsRenamed r pack renamed)
  (hdata : ∀ word ∈ pack.words.values,
    renamedVocabulary.get? (r.word word.text) = vocabulary.get? word.text)

include hrenamed hdata

theorem speechData_renamed : speechData renamed renamedVocabulary = speechData pack vocabulary := by
  rw [speechData, values_words_renamed hrenamed, List.flatMap_map, speechData]
  refine List.flatMap_congr fun word hword => ?_
  rw [speechOf, Renaming.toWord, hdata word hword, speechOf]

theorem imageSize_renamed : imageSize renamed renamedVocabulary = imageSize pack vocabulary := by
  rw [imageSize, regionEnd_renamed hrenamed, speechData_renamed hrenamed hdata, imageSize]

/-- The parts of the renamed pack are the parts of the pack, with the new names in what stands
against them. -/
theorem imageParts_renamed :
    imageParts renamed renamedVocabulary = (imageParts pack vocabulary).map (·.rename r) := by
  have hwords : renamed.words.values.map (wordPart renamedVocabulary) =
      (pack.words.values.map (wordPart vocabulary)).map (·.rename r) := by
    rw [values_words_renamed hrenamed, List.map_map, List.map_map]
    refine List.map_congr_left fun word hword => ?_
    rw [Function.comp_apply, Function.comp_apply, wordPart, wordPart, Part.rename, speechOf,
      OrderedMap.contains, Renaming.toWord, hdata word hword, speechOf, OrderedMap.contains]
    cases vocabulary.get? word.text <;> rfl
  rw [imageParts, regionParts_renamed hrenamed, hwords, imageParts, List.map_append,
    List.map_cons, List.map_cons]
  rfl

theorem imageStack_renamed :
    imageStack renamed renamedVocabulary =
      (imageStack pack vocabulary).map (Prod.map (·.rename r) id) := by
  rw [imageStack, imageParts_renamed hrenamed hdata, stack_renamed, imageStack]

theorem imageTable_renamed : imageTable renamed renamedVocabulary = imageTable pack vocabulary := by
  rw [imageTable, imageStack_renamed hrenamed hdata, List.foldl_map]
  rfl

theorem linkedImage_renamed (start : Bank) :
    linkedImage renamed renamedVocabulary (r.toBank start) = linkedImage pack vocabulary start := by
  have hregion : regionBytes renamed renamedVocabulary = regionBytes pack vocabulary := by
    rw [regionBytes, imageTable_renamed hrenamed hdata, values_banks_renamed hrenamed,
      List.flatMap_map]
    rfl
  rw [linkedImage, linkedImage, hregion, imageTable_renamed hrenamed hdata,
    regionEnd_renamed hrenamed, speechData_renamed hrenamed hdata]
  rfl

theorem layout_ofPack_renamed :
    Layout.ofPack renamed renamedVocabulary =
      (Layout.ofPack pack vocabulary).mapError (·.rename r) := by
  rw [ofPack_eq, ofPack_eq, imageStack_renamed hrenamed hdata, findSome?_refusal_renamed,
    imageSize_renamed hrenamed hdata, imageTable_renamed hrenamed hdata,
    regionEnd_renamed hrenamed, speechData_renamed hrenamed hdata]
  cases (imageStack pack vocabulary).findSome? refusal with
  | some failure => rfl
  | none =>
      simp only [Option.map_none]
      split <;> rfl

/-- Linking under other names gives the same image, or fails in the same way. -/
theorem image_ofPack_renamed (hwell : pack.WellFormed) (hrenamedWell : renamed.WellFormed)
    {primary : String}
    (hprimary : renamed.findBank? (r.bank primary) = (pack.findBank? primary).map r.toBank) :
    Image.ofPack renamed renamedVocabulary (r.bank primary) =
      (Image.ofPack pack vocabulary primary).mapError (·.rename r) := by
  rw [image_ofPack_eq hrenamedWell, image_ofPack_eq hwell, hprimary,
    layout_ofPack_renamed hrenamed hdata]
  -- the primary bank is looked for first, the layout may object after that
  cases pack.findBank? primary with
  | none => rfl
  | some start =>
      rw [Option.map_some]
      dsimp only
      rw [linkedImage_renamed hrenamed hdata]
      cases Layout.ofPack pack vocabulary <;> rfl

end Image

/-! ## The main statement -/

/-- **Names do not leak into the image.**  Sources under other names are read to the pack under
other names, and linking it with the renamed vocabulary from the renamed bank gives the same image,
byte for byte and address for address, or the same failure under the new names.  The renaming need
only keep apart the names and words that occur. -/
theorem image_of_renamed_sources {sources : List Source} {pack : Pack} {r : Renaming}
    {vocabulary renamedVocabulary : Vocabulary} {primary : String}
    (hread : Pack.ofSources sources = .ok pack)
    (hbanks : Set.InjOn r.bank {name | name = primary ∨ name ∈ sources.map (·.bank)})
    (hwords : Set.InjOn r.word {word | word ∈ vocabulary.keys ∨ word ∈ pack.words.keys})
    (hbankNames : ∀ name ∈ sources.map (·.bank), Identifier (r.bank name).toList)
    (hwordTexts : ∀ word ∈ pack.words.keys, Identifier (r.word word).toList)
    (hvocabulary : renamedVocabulary.entries = vocabulary.entries.map (Prod.map r.word id)) :
    ∃ renamed, Pack.ofSources (sources.map r.source) = .ok renamed ∧
      Pack.IsRenamed r pack renamed ∧
      Image.ofPack renamed renamedVocabulary (r.bank primary) =
        (Image.ofPack pack vocabulary primary).mapError (·.rename r) := by
  have hsuits : r.Suits (sources.map (·.bank)) pack.words.keys :=
    ⟨hbanks.mono fun _ => .inr, hwords.mono fun _ => .inr, hbankNames, hwordTexts⟩
  obtain ⟨renamed, hrenamedRead, hrenamed⟩ := Pack.exists_isRenamed_source hread hsuits
  have hwell := Pack.wellFormed_of_ofSources hread
  refine ⟨renamed, hrenamedRead, hrenamed, ?_⟩
  refine image_ofPack_renamed hrenamed ?_ hwell (Pack.wellFormed_of_ofSources hrenamedRead) ?_
  -- no other word got the new name of the word, and no other bank that of the primary bank
  · intro word hword
    have hkey : word.text ∈ pack.words.keys := by
      rw [← hwell.indexed.map_text_words]
      exact List.mem_map_of_mem hword
    rw [OrderedMap.get?_of_entries_eq_map hvocabulary fun other hother heq =>
      hwords (.inl hother) (.inr hkey) heq, Option.map_id_apply]
  · refine OrderedMap.get?_of_entries_eq_map hrenamed.banks fun other hother heq => ?_
    obtain ⟨next, hrecords⟩ := (Pack.decided_ofSources sources).of_ok hread
    rw [hrecords.holds.bank_names, List.mem_eraseDups] at hother
    exact hbanks (.inr hother) (.inl rfl) heq

/-- Afterwards a bank and a word share the name `friend`, which only the bank had. -/
def swapNames : Renaming := ⟨Equiv.swap "primary" "hello", Equiv.swap "hello" "friend"⟩

/-- The data of the vocabulary under the new words. -/
def swappedVocabulary : Vocabulary := ⟨[("world", [7]), ("friend", [8, 9])], by decide⟩

theorem image_of_renamed_sources_swap :
    Pack.ofSources greetingSources = .ok greetingPack ∧
      greetingSources.map swapNames.source =
        [⟨"hello", "friend \x7bfriend\x7d\n"⟩, ⟨"friend", "world\n\x7bhello\x7d\n"⟩] ∧
      ∃ renamed, Pack.ofSources (greetingSources.map swapNames.source) = .ok renamed ∧
        Pack.IsRenamed swapNames greetingPack renamed ∧
        Image.ofPack renamed swappedVocabulary (swapNames.bank "primary") =
          (Image.ofPack greetingPack greetingVocabulary "primary").mapError (·.rename swapNames) :=
  ⟨ofSources_greetingSources, by decide +kernel,
    image_of_renamed_sources ofSources_greetingSources (Equiv.injective _).injOn
      (Equiv.injective _).injOn (by decide) (by decide) (by decide)⟩

end Rom

end SpeechRom
