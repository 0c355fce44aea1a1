import SpeechRom.Proofs.Pack.WellFormed
import SpeechRom.Proofs.Rom.Stack

/-!
# The addresses of an image

No two parts of a well-formed pack are the same entity (`nodup_entities`), so
entering them one after another writes every entry of the address table once:
the table is the stack itself (`entries_imageTable`), and what is looked up in it
is where the part stands (`offset?_of_mem_imageStack`).
-/

namespace SpeechRom.Rom

/-! ## Tables written once -/

theorem entries_foldl_enter {placed : List (Part × Nat)} {table : AddressTable}
    (hnodup : (placed.map (·.1.entity)).Nodup)
    (hfresh : ∀ entry ∈ placed, entry.1.entity ∉ table.offsets.keys) :
    (placed.foldl AddressTable.enter table).offsets.entries =
      table.offsets.entries ++ placed.map fun entry => (entry.1.entity, entry.2) := by
  induction placed generalizing table with
  | nil => simp
  | cons entry rest ih =>
      rw [List.map_cons, List.nodup_cons] at hnodup
      have hnew : entry.1.entity ∉ table.offsets.keys := hfresh entry List.mem_cons_self
      have hentries : (table.enter entry).offsets.entries =
          table.offsets.entries ++ [(entry.1.entity, entry.2)] :=
        OrderedMap.entries_insert_of_not_mem hnew entry.2
      rw [List.foldl_cons, ih hnodup.2, hentries, List.append_assoc]
      · rfl
      · intro other hother hmem
        rw [OrderedMap.keys, hentries, List.map_append, List.mem_append] at hmem
        rcases hmem with hmem | hmem
        · exact hfresh other (List.mem_cons_of_mem _ hother) hmem
        · rw [List.map_singleton, List.mem_singleton] at hmem
          exact hnodup.1 (List.mem_map.mpr ⟨other, hother, hmem⟩)

/-! ## The entities of a pack -/

theorem map_entity_phraseParts (bank : String) (index : Nat) (phrases : List Phrase) :
    (phraseParts bank index phrases).map (·.entity) =
      phrases.map fun phrase => Entity.phrase phrase.id := by
  induction phrases generalizing index with
  | nil => rfl
  | cons phrase rest ih =>
      rw [phraseParts_cons, List.map_cons, List.map_cons, ih]
      rfl

theorem perm_entities_regionParts (pack : Pack) :
    ((regionParts pack).map (·.entity)).Perm
      ((pack.banks.values.map (·.id)).map Entity.bank ++ pack.phraseIds.map Entity.phrase) := by
  have hbanks : (regionParts pack).map (·.entity) = pack.banks.values.flatMap fun bank =>
      Entity.bank bank.id :: bank.phrases.map fun phrase => Entity.phrase phrase.id := by
    simp only [regionParts, bankParts, List.map_flatMap, List.map_cons, map_entity_phraseParts,
      directoryPart]
  rw [hbanks, Pack.phraseIds, List.map_flatMap, List.map_map]
  simp only [List.map_map]
  exact (List.map_append_flatMap_perm _ _ _).symm

/-- **No two parts of an image are the same entity.** -/
theorem nodup_entities {pack : Pack} (hwell : pack.WellFormed) (vocabulary : Vocabulary) :
    ((imageParts pack vocabulary).map (·.entity)).Nodup := by
  have hbanks : ((pack.banks.values.map (·.id)).map Entity.bank).Nodup :=
    hwell.indexed.nodup_map_id_banks.map fun _ _ heq => Entity.bank.inj heq
  have hphrases : (pack.phraseIds.map Entity.phrase).Nodup :=
    hwell.distinct.map fun _ _ heq => Entity.phrase.inj heq
  have hwords : ((pack.words.values.map (·.id)).map Entity.word).Nodup :=
    hwell.indexed.nodup_map_id_words.map fun _ _ heq => Entity.word.inj heq
  have hregion : ((regionParts pack).map (·.entity)).Nodup := by
    rw [(perm_entities_regionParts pack).nodup_iff]
    refine hbanks.append hphrases ?_
    intro entity hbank hphrase
    obtain ⟨_, _, rfl⟩ := List.mem_map.mp hbank
    simp at hphrase
  have hmem : ∀ entity ∈ (regionParts pack).map (·.entity),
      (∃ id, entity = .bank id) ∨ ∃ id, entity = .phrase id := by
    intro entity hentity
    rw [(perm_entities_regionParts pack).mem_iff, List.mem_append] at hentity
    rcases hentity with hentity | hentity
    · obtain ⟨id, _, rfl⟩ := List.mem_map.mp hentity
      exact .inl ⟨id, rfl⟩
    · obtain ⟨id, _, rfl⟩ := List.mem_map.mp hentity
      exact .inr ⟨id, rfl⟩
  have hwordParts : (pack.words.values.map (wordPart vocabulary)).map (·.entity) =
      (pack.words.values.map (·.id)).map Entity.word := by
    simp [wordPart]
  rw [imageParts, List.cons_append, List.map_cons, List.map_append, List.map_cons, hwordParts,
    List.nodup_cons, List.nodup_append, List.nodup_cons]
  refine ⟨?_, hregion, ⟨by simp [speechStartPart], hwords⟩, ?_⟩
  · intro hheader
    rcases List.mem_append.mp hheader with hheader | hheader
    · rcases hmem _ hheader with ⟨id, heq⟩ | ⟨id, heq⟩ <;> cases heq
    · simp [headerPart, speechStartPart] at hheader
  · intro entity hentity other hother heq
    subst heq
    rcases hmem _ hentity with ⟨id, rfl⟩ | ⟨id, rfl⟩ <;> simp [speechStartPart] at hother

/-! ## Looking up where a part stands -/

theorem map_entity_imageStack (pack : Pack) (vocabulary : Vocabulary) :
    (imageStack pack vocabulary).map (·.1.entity) =
      (imageParts pack vocabulary).map (·.entity) := by
  rw [← map_fst_stack 0 (imageParts pack vocabulary), List.map_map]
  rfl

/-- The table holds every part once, in the order of the stack. -/
theorem entries_imageTable {pack : Pack} (hwell : pack.WellFormed) (vocabulary : Vocabulary) :
    (imageTable pack vocabulary).offsets.entries =
      (imageStack pack vocabulary).map fun entry => (entry.1.entity, entry.2) := by
  refine (entries_foldl_enter ?_ ?_).trans (List.nil_append _)
  · rw [map_entity_imageStack]
    exact nodup_entities hwell vocabulary
  · exact fun _ _ => List.not_mem_nil

theorem offset?_imageTable_eq_some_iff {pack : Pack} (hwell : pack.WellFormed)
    {vocabulary : Vocabulary} {entity : Entity} {offset : Nat} :
    (imageTable pack vocabulary).offset? entity = some offset ↔
      ∃ part, part.entity = entity ∧ (part, offset) ∈ imageStack pack vocabulary := by
  rw [AddressTable.offset?, OrderedMap.get?_eq_some_iff, entries_imageTable hwell, List.mem_map]
  constructor
  · rintro ⟨⟨part, place⟩, hmem, heq⟩
    cases heq
    exact ⟨part, rfl, hmem⟩
  · rintro ⟨part, rfl, hmem⟩
    exact ⟨(part, offset), hmem, rfl⟩

theorem offset?_of_mem_imageStack {pack : Pack} (hwell : pack.WellFormed)
    {vocabulary : Vocabulary} {part : Part} {offset : Nat}
    (hmem : (part, offset) ∈ imageStack pack vocabulary) :
    (imageTable pack vocabulary).offset? part.entity = some offset :=
  (offset?_imageTable_eq_some_iff hwell).mpr ⟨part, rfl, hmem⟩

end SpeechRom.Rom
