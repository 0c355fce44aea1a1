import SpeechRom.Proofs.Rom.Decoding

/-!
# The format of the phrase region

`IsPhraseRegion` says what a phrase region looks like without any mention of how it is
read: the bytes between the header and the speech data are the written forms of a
list of banks, every directory holds the offsets at which its phrases really stand,
and every token can be followed to a bank of the list or into the speech data.

Decoding accepts exactly these images, and there is one list at most that an image
can be said to hold (`decode_iff_isPhraseRegion`).

## Strategy

`BanksAt` and `PhrasesAt` go along with the decoder, one record at a time, and demand
of each record that its bytes stand where it starts.  Taken together these demands are
one demand on the bytes of the whole row, and three that do not mention bytes at all:
offsets that add up (`Consecutive`), counts that fit, and tokens that can be followed.
-/

namespace SpeechRom.Rom

/-! ## Offsets that add up -/

/-- Every item has the offset at which the written forms of the items in front of it end. -/
def Consecutive {α : Type} (offset : α → Nat) (form : α → List UInt8) (position : Nat)
    (items : List α) : Prop :=
  ∀ before item after, items = before ++ item :: after →
    offset item = position + (before.flatMap form).length

section Consecutive

variable {α : Type} {offset : α → Nat} {form : α → List UInt8} {position : Nat}

theorem consecutive_nil : Consecutive offset form position [] := by
  intro before item after hsplit
  have hlength := congrArg List.length hsplit
  simp at hlength

theorem consecutive_cons {item : α} {rest : List α} :
    Consecutive offset form position (item :: rest) ↔
      offset item = position ∧ Consecutive offset form (position + (form item).length) rest := by
  constructor
  · intro hrow
    have hhead : offset item = position := by simpa using hrow [] item rest rfl
    refine ⟨hhead, ?_⟩
    intro before other after hsplit
    have hother : offset other = position + ((item :: before).flatMap form).length :=
      hrow (item :: before) other after (by rw [hsplit, List.cons_append])
    calc offset other
        = position + ((item :: before).flatMap form).length := hother
      _ = position + (form item).length + (before.flatMap form).length := by
        rw [List.flatMap_cons, List.length_append, Nat.add_assoc]
  · rintro ⟨hhead, hrest⟩ before other after hsplit
    cases before with
    | nil =>
        rw [List.nil_append, List.cons.injEq] at hsplit
        simpa [← hsplit.1] using hhead
    | cons first more =>
        rw [List.cons_append, List.cons.injEq] at hsplit
        obtain ⟨rfl, hsplit⟩ := hsplit
        have hother := hrest more other after hsplit
        rw [hother, List.flatMap_cons, List.length_append, Nat.add_assoc]

end Consecutive

/-! ## The format -/

/-- The bytes between the header and the speech data are the written form of a list of banks.
Counts fit into a byte, directories and offsets are true, and every token points behind the header
and into the image; one that points in front of the speech data points at a bank, and so does the
header. -/
structure IsPhraseRegion (bytes : List UInt8) (speechStart primary : UInt16)
    (banks : List DecodedBank) : Prop where
  region : (bytes.take speechStart.toNat).drop 4 = banks.flatMap DecodedBank.bytes
  phrases_pos : ∀ bank ∈ banks, 1 ≤ bank.phrases.length
  phrases_le : ∀ bank ∈ banks, bank.phrases.length ≤ 255
  tokens_le : ∀ bank ∈ banks, ∀ phrase ∈ bank.phrases, phrase.tokens.length ≤ 255
  directory : ∀ bank ∈ banks, bank.record.phrases = bank.phrases.map (·.offset)
  bank_offsets : Consecutive (fun bank : DecodedBank => bank.record.offset.toNat)
    DecodedBank.bytes 4 banks
  phrase_offsets : ∀ bank ∈ banks, Consecutive (fun phrase : PhraseRecord => phrase.offset.toNat)
    PhraseRecord.bytes (bank.record.offset.toNat + (1 + 2 * bank.phrases.length)) bank.phrases
  tokens_inside : ∀ bank ∈ banks, ∀ phrase ∈ bank.phrases, ∀ token ∈ phrase.tokens,
    4 ≤ token.toNat ∧ token.toNat < bytes.length
  tokens_hit : ∀ bank ∈ banks, ∀ phrase ∈ bank.phrases, ∀ token ∈ phrase.tokens,
    token.toNat < speechStart.toNat → ∃ target ∈ banks, target.record.offset = token
  primary_hit : ∃ bank ∈ banks, bank.record.offset = primary

namespace Reader

variable {reader : Reader}

/-! ## A row of records as one piece of bytes -/

/-- Phrases stand in a row when their bytes do, one after another, and the offsets add up. -/
theorem phrasesAt_iff {position : Nat} {phrases : List PhraseRecord} :
    reader.PhrasesAt position phrases ↔
      HoldsAt reader.image.toList position (phrases.flatMap PhraseRecord.bytes) ∧
        Consecutive (fun phrase : PhraseRecord => phrase.offset.toNat) PhraseRecord.bytes
          position phrases ∧
        (∀ phrase ∈ phrases, phrase.tokens.length ≤ countLimit) ∧
        ∀ phrase ∈ phrases, ∀ token ∈ phrase.tokens, reader.Follows token := by
  induction phrases generalizing position with
  | nil => simp [PhrasesAt, HoldsAt, consecutive_nil]
  | cons phrase rest ih =>
      rw [PhrasesAt, ih, consecutive_cons, List.flatMap_cons, holdsAt_append,
        List.forall_mem_cons, List.forall_mem_cons]
      constructor
      · rintro ⟨hoffset, ⟨hcount, hholds⟩, hfollows, hrest, hplaced, hcounts, hall⟩
        exact ⟨⟨hholds, hrest⟩, ⟨hoffset, hplaced⟩, ⟨hcount, hcounts⟩, hfollows, hall⟩
      · rintro ⟨⟨hholds, hrest⟩, ⟨hoffset, hplaced⟩, ⟨hcount, hcounts⟩, hfollows, hall⟩
        exact ⟨hoffset, ⟨hcount, hholds⟩, hfollows, hrest, hplaced, hcounts, hall⟩

/-- What a bank has to satisfy apart from where it stands and what its bytes are. -/
structure BankFits (reader : Reader) (bank : DecodedBank) : Prop where
  phrases_le : bank.phrases.length ≤ countLimit
  tokens_le : ∀ phrase ∈ bank.phrases, phrase.tokens.length ≤ countLimit
  directory : bank.record.phrases = bank.phrases.map (·.offset)
  offsets : Consecutive (fun phrase : PhraseRecord => phrase.offset.toNat) PhraseRecord.bytes
    (bank.record.offset.toNat + bankRecordSize bank.phrases.length) bank.phrases
  follows : ∀ phrase ∈ bank.phrases, ∀ token ∈ phrase.tokens, reader.Follows token

theorem bankAt_iff_fits {position : Nat} {bank : DecodedBank} :
    reader.BankAt position bank ↔ HoldsAt reader.image.toList position bank.bytes ∧
      bank.record.offset.toNat = position ∧ reader.BankFits bank := by
  -- the directory holds one address for each phrase, so it takes the bytes that the phrases ask for
  have hlength : bank.record.phrases = bank.phrases.map (·.offset) →
      bank.record.phrases.length = bank.phrases.length := by
    intro hdirectory
    rw [hdirectory, List.length_map]
  have hsize : (recordBytes bank.record.phrases).length =
      bankRecordSize bank.record.phrases.length := length_recordBytes bank.record.phrases
  rw [DecodedBank.bytes, holdsAt_append, hsize]
  constructor
  · rintro ⟨hoffset, ⟨hcount, hrecord⟩, hdirectory, hphrases⟩
    obtain ⟨hholds, hplaced, htokens, hfollows⟩ := phrasesAt_iff.mp hphrases
    rw [hlength hdirectory] at hcount hplaced
    exact ⟨⟨hrecord, hholds⟩, hoffset, hcount, htokens, hdirectory, hoffset.symm ▸ hplaced,
      hfollows⟩
  · rintro ⟨⟨hrecord, hholds⟩, hoffset, hcount, htokens, hdirectory, hplaced, hfollows⟩
    rw [hoffset, ← hlength hdirectory] at hplaced
    rw [← hlength hdirectory] at hcount
    exact ⟨hoffset, ⟨hcount, hrecord⟩, hdirectory,
      phrasesAt_iff.mpr ⟨hholds, hplaced, htokens, hfollows⟩⟩

/-- Banks stand in a row when their bytes do, one after another, and the offsets add up. -/
theorem banksAt_iff {position : Nat} {banks : List DecodedBank} :
    reader.BanksAt position banks ↔
      HoldsAt reader.image.toList position (banks.flatMap DecodedBank.bytes) ∧
        Consecutive (fun bank : DecodedBank => bank.record.offset.toNat) DecodedBank.bytes
          position banks ∧
        ∀ bank ∈ banks, reader.BankFits bank := by
  induction banks generalizing position with
  | nil => simp [BanksAt, HoldsAt, consecutive_nil]
  | cons bank rest ih =>
      rw [BanksAt, ih, bankAt_iff_fits, consecutive_cons, List.flatMap_cons, holdsAt_append,
        List.forall_mem_cons]
      constructor
      · rintro ⟨⟨hholds, hoffset, hfits⟩, hrest, hplaced, hall⟩
        exact ⟨⟨hholds, hrest⟩, ⟨hoffset, hplaced⟩, hfits, hall⟩
      · rintro ⟨⟨hholds, hrest⟩, ⟨hoffset, hplaced⟩, hfits, hall⟩
        exact ⟨⟨hholds, hoffset, hfits⟩, hrest, hplaced, hall⟩

/-! ## The region between header and speech data -/

/-- A piece fills a stretch of bytes exactly when it stands at its start and ends at its end. -/
theorem drop_take_eq_iff {bytes piece : List UInt8} {low high : Nat} (hlow : low ≤ high)
    (hhigh : high ≤ bytes.length) :
    (bytes.take high).drop low = piece ↔
      HoldsAt bytes low piece ∧ low + piece.length = high := by
  rw [List.drop_take]
  constructor
  · rintro rfl
    refine ⟨List.take_prefix _ _, ?_⟩
    rw [List.length_take, List.length_drop]
    omega
  · rintro ⟨hholds, hend⟩
    have hlength : high - low = piece.length := by omega
    rw [hlength]
    exact hholds.take_drop_eq

/-- What decoding accepts, with the bytes of all banks in one piece. -/
theorem decode_eq_ok_iff_region {banks : List DecodedBank} :
    reader.decode = .ok banks ↔
      (reader.image.toList.take reader.speechStart.toNat).drop headerSize =
          banks.flatMap DecodedBank.bytes ∧
        Consecutive (fun bank : DecodedBank => bank.record.offset.toNat) DecodedBank.bytes
          headerSize banks ∧
        (∀ bank ∈ banks, reader.BankFits bank) ∧
        reader.primary ∈ banks.map (·.record.offset) ∧ reader.TokensHit banks := by
  have hsize : reader.speechStart.toNat ≤ reader.image.toList.length := by
    rw [Array.length_toList]
    exact reader.speechStart_le_size
  have hregion :
      (reader.image.toList.take reader.speechStart.toNat).drop headerSize =
          banks.flatMap DecodedBank.bytes ↔
        HoldsAt reader.image.toList headerSize (banks.flatMap DecodedBank.bytes) ∧
          headerSize + (banks.flatMap DecodedBank.bytes).length = reader.speechStart.toNat :=
    drop_take_eq_iff reader.headerSize_le_speechStart hsize
  rw [decode_eq_ok_iff, banksAt_iff, hregion]
  constructor
  · rintro ⟨⟨hholds, hplaced, hfits⟩, hend, hprimary, hhit⟩
    exact ⟨⟨hholds, hend⟩, hplaced, hfits, hprimary, hhit⟩
  · rintro ⟨⟨hholds, hend⟩, hplaced, hfits, hprimary, hhit⟩
    exact ⟨⟨hholds, hplaced, hfits⟩, hend, hprimary, hhit⟩

theorem decode_eq_ok_iff_isPhraseRegion {bytes : List UInt8} (hopen : open? bytes = .ok reader)
    {banks : List DecodedBank} :
    reader.decode = .ok banks ↔
      IsPhraseRegion bytes reader.speechStart reader.primary banks := by
  obtain ⟨himage, _⟩ := open?_eq_ok_iff.mp hopen
  have hbytes : reader.image.toList = bytes := by rw [himage]
  have hsize : reader.image.size = bytes.length := by rw [himage, List.size_toArray]
  rw [decode_eq_ok_iff_region, hbytes]
  constructor
  · rintro ⟨hregion, hplaced, hfits, hprimary, hhit⟩
    refine ⟨hregion, ?_, fun bank hbank => (hfits bank hbank).phrases_le,
      fun bank hbank => (hfits bank hbank).tokens_le,
      fun bank hbank => (hfits bank hbank).directory, hplaced, ?_, ?_, ?_, ?_⟩
    · intro bank hbank
      have hpopulated := bank.record.populated
      rwa [(hfits bank hbank).directory, List.length_map] at hpopulated
    · intro bank hbank
      have hoffsets := (hfits bank hbank).offsets
      rwa [bankRecordSize, pointerSize, Nat.mul_comm _ 2] at hoffsets
    · intro bank hbank phrase hphrase token htoken
      have hfollows := (hfits bank hbank).follows phrase hphrase token htoken
      exact ⟨hfollows.1, hsize ▸ hfollows.2⟩
    · intro bank hbank phrase hphrase token htoken hbefore
      exact List.mem_map.mp (hhit bank hbank phrase hphrase token htoken hbefore)
    · exact List.mem_map.mp hprimary
  · intro hformat
    refine ⟨hformat.region, hformat.bank_offsets, fun bank hbank => ?_,
      List.mem_map.mpr hformat.primary_hit, ?_⟩
    · refine ⟨hformat.phrases_le bank hbank, hformat.tokens_le bank hbank,
        hformat.directory bank hbank, ?_, ?_⟩
      · have hoffsets := hformat.phrase_offsets bank hbank
        rwa [bankRecordSize, pointerSize, Nat.mul_comm _ 2]
      · intro phrase hphrase token htoken
        obtain ⟨hlow, hhigh⟩ := hformat.tokens_inside bank hbank phrase hphrase token htoken
        exact ⟨hlow, hsize.symm ▸ hhigh⟩
    · intro bank hbank phrase hphrase token htoken hbefore
      exact List.mem_map.mpr (hformat.tokens_hit bank hbank phrase hphrase token htoken hbefore)

end Reader

/-! ## The main statement -/

/-- **Decoding accepts exactly the format, and decodes it uniquely.**  An image that opens decodes
to a list of banks if and only if its phrase region is the written form of that list; no second list
has the same region as its form; and writing the decoded banks gives the region back. -/
theorem decode_iff_isPhraseRegion {bytes : List UInt8} {reader : Reader}
    (hopen : Reader.open? bytes = .ok reader) :
    (∀ banks, reader.decode = .ok banks ↔
        IsPhraseRegion bytes reader.speechStart reader.primary banks) ∧
      (∀ banks others, IsPhraseRegion bytes reader.speechStart reader.primary banks →
        IsPhraseRegion bytes reader.speechStart reader.primary others → banks = others) ∧
      ∀ banks, reader.decode = .ok banks →
        banks.flatMap DecodedBank.bytes = (bytes.take reader.speechStart.toNat).drop 4 := by
  have hdecode : ∀ banks, reader.decode = .ok banks ↔
      IsPhraseRegion bytes reader.speechStart reader.primary banks := fun _ =>
    Reader.decode_eq_ok_iff_isPhraseRegion hopen
  refine ⟨hdecode, ?_, ?_⟩
  · intro banks others hbanks hothers
    have hfirst : reader.decode = .ok banks := (hdecode banks).mpr hbanks
    have hsecond : reader.decode = .ok others := (hdecode others).mpr hothers
    rw [hfirst] at hsecond
    exact Except.ok.inj hsecond
  · intro banks hbanks
    exact ((hdecode banks).mp hbanks).region.symm

/-- An image that no pack is linked to: one bank, which asks for itself, and no speech data. -/
def loopBytes : List UInt8 := [10, 0, 4, 0, 1, 7, 0, 1, 4, 0]

theorem decode_iff_isPhraseRegion_loop :
    ∃ reader banks, Reader.open? loopBytes = .ok reader ∧ reader.decode = .ok banks ∧
      IsPhraseRegion loopBytes reader.speechStart reader.primary banks ∧
      banks.flatMap DecodedBank.bytes = [1, 7, 0, 1, 4, 0] := by
  obtain ⟨reader, hopen, hstart, banks, hbanks⟩ : ∃ reader,
      Reader.open? loopBytes = .ok reader ∧ reader.speechStart = 10 ∧
        ∃ banks, reader.decode = .ok banks := ⟨_, rfl, rfl, _, rfl⟩
  obtain ⟨hdecode, _, hwritten⟩ := decode_iff_isPhraseRegion hopen
  refine ⟨reader, banks, hopen, hbanks, (hdecode banks).mp hbanks, ?_⟩
  rw [hwritten banks hbanks, hstart]
  rfl

end SpeechRom.Rom
