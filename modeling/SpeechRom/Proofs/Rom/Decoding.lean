import SpeechRom.Proofs.Rom.Records

/-!
# What decoding accepts

Decoding goes through the phrase region from front to back and refuses the first
thing that is out of place.  Read as a whole it accepts exactly the images whose
phrase region is the written form of a list of banks, each standing where the one
before it ends and naming the phrases that follow it, with tokens that can be
followed; and the answer is that list (`decode_eq_ok_iff`).

## Strategy

`PhrasesAt` and `BanksAt` say what a list of records from a position on has to
satisfy, and both take a list apart at its head, as the decoder does.  The fuel of
`banksFrom` is inert: a bank takes a byte at least, so the distance to the speech
data bounds the number of banks.
-/

namespace SpeechRom.Rom

/-! ## The written form of what was decoded -/

/-- The bytes of a phrase record. -/
def PhraseRecord.bytes (phrase : PhraseRecord) : List UInt8 := recordBytes phrase.tokens

/-- The bytes of a decoded bank: its directory, then its phrases. -/
def DecodedBank.bytes (bank : DecodedBank) : List UInt8 :=
  recordBytes bank.record.phrases ++ bank.phrases.flatMap PhraseRecord.bytes

theorem PhraseRecord.length_bytes (phrase : PhraseRecord) :
    phrase.bytes.length = phraseRecordSize phrase.tokens.length :=
  length_recordBytes phrase.tokens

theorem DecodedBank.length_bytes (bank : DecodedBank) :
    bank.bytes.length = bankRecordSize bank.record.phrases.length +
      (bank.phrases.flatMap PhraseRecord.bytes).length := by
  rw [bytes, List.length_append, length_recordBytes]
  rfl

theorem DecodedBank.length_bytes_pos (bank : DecodedBank) : 0 < bank.bytes.length := by
  rw [length_bytes, bankRecordSize]
  omega

namespace Reader

variable {reader : Reader}

/-! ## Phrases -/

/-- The image holds the phrases one behind another from a position on, and a player can follow
their tokens. -/
def PhrasesAt (reader : Reader) : Nat → List PhraseRecord → Prop
  | _, [] => True
  | position, phrase :: rest =>
    phrase.offset.toNat = position ∧ reader.HasRecord position phrase.tokens ∧
      (∀ token ∈ phrase.tokens, reader.Follows token) ∧
      reader.PhrasesAt (position + phrase.bytes.length) rest

/-- Each of the phrases can be read at its own address. -/
theorem PhrasesAt.readPhrase_eq {position : Nat} {phrases : List PhraseRecord}
    (hat : reader.PhrasesAt position phrases) {phrase : PhraseRecord} (hphrase : phrase ∈ phrases) :
    reader.readPhrase phrase.offset = .ok phrase := by
  induction phrases generalizing position with
  | nil => exact absurd hphrase List.not_mem_nil
  | cons first rest ih =>
      obtain ⟨hoffset, hrecord, _, hrest⟩ := hat
      rcases List.mem_cons.mp hphrase with rfl | hphrase
      · exact readPhrase_eq_ok_iff.mpr ⟨rfl, hoffset.symm ▸ hrecord⟩
      · exact ih hrest hphrase

theorem exists_mapM_target_iff {tokens : List UInt16} :
    (∃ targets, tokens.mapM reader.target = .ok targets) ↔
      ∀ token ∈ tokens, reader.Follows token := by
  constructor
  · rintro ⟨targets, htargets⟩ token htoken
    obtain ⟨target, _, htarget⟩ := exists_right_of_forall₂ (mapM_eq_ok_iff.mp htargets) htoken
    exact (target_eq_ok_iff.mp htarget).1
  · intro hall
    refine ⟨tokens.map reader.targetOf, mapM_eq_ok_iff.mpr ?_⟩
    rw [List.forall₂_map_right_iff, List.forall₂_same]
    exact fun token htoken => target_eq_ok_iff.mpr ⟨hall token htoken, rfl⟩

/-- Phrases are decoded from a position on exactly when they stand there, in the order of the
directory. -/
theorem phrasesFrom_eq_ok_iff {position next : Nat} {directory : List UInt16}
    {phrases : List PhraseRecord} :
    reader.phrasesFrom position directory = .ok (phrases, next) ↔
      directory = phrases.map (·.offset) ∧ reader.PhrasesAt position phrases ∧
        next = position + (phrases.flatMap PhraseRecord.bytes).length := by
  induction directory generalizing position phrases next with
  | nil =>
      rw [phrasesFrom]
      constructor
      · intro hdecode
        cases hdecode
        exact ⟨rfl, trivial, rfl⟩
      · rintro ⟨hdirectory, _, rfl⟩
        rw [List.map_eq_nil_iff.mp hdirectory.symm]
        rfl
  | cons pointer rest ih =>
      rw [phrasesFrom]
      by_cases hpointer : pointer.toNat = position
      · rw [if_neg (not_not.mpr hpointer)]
        constructor
        · intro hdecode
          obtain ⟨phrase, hphrase, hdecode⟩ := bind_eq_ok_iff.mp hdecode
          obtain ⟨targets, htargets, hdecode⟩ := bind_eq_ok_iff.mp hdecode
          obtain ⟨⟨others, last⟩, hothers, heq⟩ := bind_eq_ok_iff.mp hdecode
          cases heq
          obtain ⟨rfl, hrecord⟩ := readPhrase_eq_ok_iff.mp hphrase
          obtain ⟨rfl, hat, rfl⟩ := ih.mp hothers
          rw [← phrase.length_bytes] at hat ⊢
          refine ⟨rfl, ⟨hpointer, hpointer ▸ hrecord,
            exists_mapM_target_iff.mp ⟨targets, htargets⟩, hat⟩, ?_⟩
          rw [List.flatMap_cons, List.length_append, Nat.add_assoc]
        · rintro ⟨hdirectory, hat, rfl⟩
          cases phrases with
          | nil => cases hdirectory
          | cons phrase others =>
              obtain ⟨hoffset, hrecord, htargets, hat⟩ := hat
              rw [List.map_cons, List.cons.injEq] at hdirectory
              obtain ⟨rfl, rfl⟩ := hdirectory
              obtain ⟨targets, htargets⟩ := exists_mapM_target_iff.mpr htargets
              have hphrase : reader.readPhrase phrase.offset = .ok phrase :=
                readPhrase_eq_ok_iff.mpr ⟨rfl, hoffset.symm ▸ hrecord⟩
              refine bind_eq_ok_iff.mpr ⟨phrase, hphrase, bind_eq_ok_iff.mpr
                ⟨targets, htargets, bind_eq_ok_iff.mpr ⟨_, ih.mpr ⟨rfl, ?_, rfl⟩, ?_⟩⟩⟩
              · rw [← phrase.length_bytes]
                exact hat
              · rw [List.flatMap_cons, List.length_append, phrase.length_bytes, Nat.add_assoc]
                rfl
      · rw [if_pos hpointer]
        constructor
        · intro hdecode
          obtain ⟨_, hthrow, _⟩ := bind_eq_ok_iff.mp hdecode
          cases hthrow
        · rintro ⟨hdirectory, hat, _⟩
          cases phrases with
          | nil => cases hdirectory
          | cons phrase others =>
              rw [List.map_cons, List.cons.injEq] at hdirectory
              rw [hdirectory.1] at hpointer
              exact absurd hat.1 hpointer

/-! ## Banks -/

/-- The image holds a bank at a position: its directory, and then the phrases that the directory
names. -/
structure BankAt (reader : Reader) (position : Nat) (bank : DecodedBank) : Prop where
  offset : bank.record.offset.toNat = position
  record : reader.HasRecord position bank.record.phrases
  directory : bank.record.phrases = bank.phrases.map (·.offset)
  phrases : reader.PhrasesAt (position + bankRecordSize bank.record.phrases.length) bank.phrases

theorem BankAt.readBank_eq {position : Nat} {bank : DecodedBank}
    (hat : reader.BankAt position bank) : reader.readBank bank.record.offset = .ok bank.record :=
  readBank_eq_ok_iff.mpr ⟨rfl, hat.offset.symm ▸ hat.record⟩

/-- The image holds the banks one behind another from a position on. -/
def BanksAt (reader : Reader) : Nat → List DecodedBank → Prop
  | _, [] => True
  | position, bank :: rest =>
    reader.BankAt position bank ∧ reader.BanksAt (position + bank.bytes.length) rest

/-- Every bank stands within the row of banks. -/
theorem BanksAt.exists_position {position : Nat} {banks : List DecodedBank}
    (hat : reader.BanksAt position banks) {bank : DecodedBank} (hbank : bank ∈ banks) :
    ∃ start, reader.BankAt start bank ∧
      start + bank.bytes.length ≤ position + (banks.flatMap DecodedBank.bytes).length := by
  induction banks generalizing position with
  | nil => exact absurd hbank List.not_mem_nil
  | cons first rest ih =>
      rw [List.flatMap_cons, List.length_append, ← Nat.add_assoc]
      rcases List.mem_cons.mp hbank with rfl | hbank
      · exact ⟨position, hat.1, Nat.le_add_right _ _⟩
      · exact ih hat.2 hbank

theorem bankAt_iff {position next : Nat} (hposition : position < addressSpace)
    {bank : DecodedBank} :
    reader.BankAt position bank ∧ next = position + bank.bytes.length ↔
      reader.readBank (UInt16.ofNat position) = .ok bank.record ∧
        reader.phrasesFrom (position + bankRecordSize bank.record.phrases.length)
          bank.record.phrases = .ok (bank.phrases, next) := by
  have hofNat : (UInt16.ofNat position).toNat = position := UInt16.toNat_ofNat_of_lt' hposition
  rw [readBank_eq_ok_iff, phrasesFrom_eq_ok_iff, hofNat, bank.length_bytes, ← Nat.add_assoc]
  constructor
  · rintro ⟨hat, rfl⟩
    refine ⟨⟨UInt16.toNat_inj.mp ?_, hat.record⟩, hat.directory, hat.phrases, rfl⟩
    rw [hat.offset, hofNat]
  · rintro ⟨⟨hoffset, hrecord⟩, hdirectory, hphrases, rfl⟩
    refine ⟨⟨?_, hrecord, hdirectory, hphrases⟩, rfl⟩
    rw [hoffset, hofNat]

/-- The banks from a position on, up to the first place that is no longer before the speech data. -/
structure Row (reader : Reader) (position : Nat) (banks : List DecodedBank) (next : Nat) :
    Prop where
  stands : reader.BanksAt position banks
  before : ∀ bank ∈ banks, bank.record.offset.toNat < reader.speechStart.toNat
  reaches : reader.speechStart.toNat ≤ next
  next_eq : next = position + (banks.flatMap DecodedBank.bytes).length

theorem row_iff_of_le {position next : Nat} {banks : List DecodedBank}
    (hend : reader.speechStart.toNat ≤ position) :
    reader.Row position banks next ↔ banks = [] ∧ next = position := by
  constructor
  · rintro ⟨hstands, hbefore, _, rfl⟩
    cases banks with
    | nil => exact ⟨rfl, rfl⟩
    | cons bank rest =>
        have hlt := hbefore bank List.mem_cons_self
        rw [hstands.1.offset] at hlt
        omega
  · rintro ⟨rfl, rfl⟩
    exact ⟨trivial, by simp, hend, rfl⟩

theorem row_iff_of_lt {position next : Nat} {banks : List DecodedBank}
    (hposition : position < reader.speechStart.toNat) :
    reader.Row position banks next ↔ ∃ bank rest, banks = bank :: rest ∧
      reader.BankAt position bank ∧ reader.Row (position + bank.bytes.length) rest next := by
  constructor
  · rintro ⟨hstands, hbefore, hreaches, rfl⟩
    cases banks with
    | nil =>
        simp only [List.flatMap_nil, List.length_nil, Nat.add_zero] at hreaches
        omega
    | cons bank rest =>
        refine ⟨bank, rest, rfl, hstands.1, hstands.2, ?_, hreaches, ?_⟩
        · exact fun other hother => hbefore other (List.mem_cons_of_mem _ hother)
        · rw [List.flatMap_cons, List.length_append, Nat.add_assoc]
  · rintro ⟨bank, rest, rfl, hbank, hstands, hbefore, hreaches, rfl⟩
    refine ⟨⟨hbank, hstands⟩, ?_, hreaches, ?_⟩
    · rw [List.forall_mem_cons, hbank.offset]
      exact ⟨hposition, hbefore⟩
    · rw [List.flatMap_cons, List.length_append, Nat.add_assoc]

/-- Decoding banks gives the row that stands there; any fuel that covers the distance to the speech
data will do. -/
theorem banksFrom_eq_ok_iff {fuel position next : Nat} {banks : List DecodedBank}
    (hfuel : reader.speechStart.toNat ≤ position + fuel) :
    reader.banksFrom fuel position = .ok (banks, next) ↔ reader.Row position banks next := by
  have hended : ∀ {position next : Nat} {banks : List DecodedBank},
      (pure ([], position) : Except Defect (List DecodedBank × Nat)) = .ok (banks, next) ↔
        banks = [] ∧ next = position := by
    intro position next banks
    simp [pure, Except.pure, eq_comm]
  induction fuel generalizing position banks next with
  | zero =>
      rw [Nat.add_zero] at hfuel
      rw [banksFrom, row_iff_of_le hfuel, hended]
  | succ fuel ih =>
      rw [banksFrom]
      by_cases hposition : position < reader.speechStart.toNat
      · have haddress : position < addressSpace :=
          Nat.lt_trans hposition reader.speechStart.toNat_lt
        rw [if_pos hposition, row_iff_of_lt hposition]
        constructor
        · intro hdecode
          obtain ⟨record, hrecord, hdecode⟩ := bind_eq_ok_iff.mp hdecode
          obtain ⟨⟨phrases, middle⟩, hphrases, hdecode⟩ := bind_eq_ok_iff.mp hdecode
          obtain ⟨⟨others, last⟩, hothers, heq⟩ := bind_eq_ok_iff.mp hdecode
          cases heq
          have hbank : reader.BankAt position ⟨record, phrases⟩ ∧
              middle = position + (DecodedBank.bytes ⟨record, phrases⟩).length :=
            (bankAt_iff haddress).mpr ⟨hrecord, hphrases⟩
          have hpos := DecodedBank.length_bytes_pos ⟨record, phrases⟩
          obtain ⟨hat, rfl⟩ := hbank
          exact ⟨_, _, rfl, hat, (ih (by omega)).mp hothers⟩
        · rintro ⟨bank, rest, rfl, hat, hrow⟩
          have hpos := bank.length_bytes_pos
          obtain ⟨hrecord, hphrases⟩ := (bankAt_iff haddress).mp ⟨hat, rfl⟩
          refine bind_eq_ok_iff.mpr ⟨bank.record, hrecord, bind_eq_ok_iff.mpr
            ⟨_, hphrases, bind_eq_ok_iff.mpr ⟨_, (ih (by omega)).mpr hrow, rfl⟩⟩⟩
      · rw [if_neg hposition, row_iff_of_le (Nat.le_of_not_lt hposition), hended]

/-! ## The whole phrase region -/

/-- Every token that points into the phrase region points at a bank. -/
def TokensHit (reader : Reader) (banks : List DecodedBank) : Prop :=
  ∀ bank ∈ banks, ∀ phrase ∈ bank.phrases, ∀ token ∈ phrase.tokens,
    token.toNat < reader.speechStart.toNat → token ∈ banks.map (·.record.offset)

theorem strayToken?_eq_none_iff {banks : List DecodedBank} :
    reader.strayToken? banks = none ↔ reader.TokensHit banks := by
  simp only [strayToken?, TokensHit, List.findSome?_eq_none_iff, Option.map_eq_none_iff,
    List.find?_eq_none, Bool.and_eq_true, decide_eq_true_eq, Bool.not_eq_true',
    List.contains_eq_mem, decide_eq_false_iff_not, not_and, not_not]

/-- **Decoding accepts exactly the written forms of banks.** -/
theorem decode_eq_ok_iff {banks : List DecodedBank} :
    reader.decode = .ok banks ↔
      reader.BanksAt headerSize banks ∧
        headerSize + (banks.flatMap DecodedBank.bytes).length = reader.speechStart.toNat ∧
        reader.primary ∈ banks.map (·.record.offset) ∧ reader.TokensHit banks := by
  have hfuel : reader.speechStart.toNat ≤ headerSize + reader.speechStart.toNat := by omega
  rw [decode, bind_eq_ok_iff, ← strayToken?_eq_none_iff]
  constructor
  · rintro ⟨⟨row, regionEnd⟩, hrow, hdecode⟩
    obtain ⟨hstands, _, _, hnext⟩ := (banksFrom_eq_ok_iff hfuel).mp hrow
    dsimp only at hdecode
    split at hdecode
    · obtain ⟨_, hthrow, _⟩ := bind_eq_ok_iff.mp hdecode
      cases hthrow
    · rename_i hregion
      split at hdecode
      · obtain ⟨_, hthrow, _⟩ := bind_eq_ok_iff.mp hdecode
        cases hthrow
      · rename_i hprimary
        split at hdecode
        · cases hdecode
        · rename_i hstray
          cases hdecode
          exact ⟨hstands, hnext.symm.trans (not_not.mp hregion), by simpa using hprimary, hstray⟩
  · rintro ⟨hstands, hregion, hprimary, hstray⟩
    refine ⟨(banks, reader.speechStart.toNat), (banksFrom_eq_ok_iff hfuel).mpr
      ⟨hstands, ?_, Nat.le_refl _, hregion.symm⟩, ?_⟩
    -- the row ends at the speech data, and every bank of it starts before its own end
    · intro bank hbank
      obtain ⟨start, hat, hend⟩ := hstands.exists_position hbank
      have hpos := bank.length_bytes_pos
      rw [hat.offset]
      omega
    · simp [hprimary, hstray, pure, Except.pure]

end Reader

end SpeechRom.Rom
