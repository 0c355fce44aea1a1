import SpeechRom.Proofs.Rom.Stack
import SpeechRom.Rom.Image

/-!
# What is written into the phrase region

`phraseForm` and `bankForm` are the bytes of a phrase and of a bank, read off the
address table.  Writing banks from a position on succeeds exactly when the table
has every part where the stack puts it and knows every entity that a token points
at, and then gives these bytes (`banksBytes_eq_ok_iff`).  So the writer's own
comparison of positions is the whole condition, whatever the handles are.
-/

namespace SpeechRom.Rom

/-! ## The written form -/

/-- The address of an entity; one without an offset has the address 0. -/
def AddressTable.addressOf (addresses : AddressTable) (entity : Entity) : UInt16 :=
  UInt16.ofNat ((addresses.offset? entity).getD 0)

/-- The addresses that the tokens of a phrase point at. -/
def targetsOf (addresses : AddressTable) (phrase : Phrase) : List UInt16 :=
  phrase.tokens.map fun token => addresses.addressOf (.ofToken token)

/-- The addresses of the phrases of a bank. -/
def directoryOf (addresses : AddressTable) (bank : Bank) : List UInt16 :=
  bank.phrases.map fun phrase => addresses.addressOf (.phrase phrase.id)

/-- The bytes of a phrase. -/
def phraseForm (addresses : AddressTable) (phrase : Phrase) : List UInt8 :=
  recordBytes (targetsOf addresses phrase)

/-- The bytes of a bank. -/
def bankForm (addresses : AddressTable) (bank : Bank) : List UInt8 :=
  recordBytes (directoryOf addresses bank) ++ bank.phrases.flatMap (phraseForm addresses)

theorem length_phraseForm (addresses : AddressTable) (phrase : Phrase) :
    (phraseForm addresses phrase).length = phraseRecordSize phrase.tokens.length := by
  rw [phraseForm, length_recordBytes, targetsOf, List.length_map]

theorem length_phrasesForm (addresses : AddressTable) (bank : String) (index : Nat)
    (phrases : List Phrase) :
    (phrases.flatMap (phraseForm addresses)).length = span (phraseParts bank index phrases) := by
  induction phrases generalizing index with
  | nil => rfl
  | cons phrase rest ih =>
      rw [List.flatMap_cons, List.length_append, length_phraseForm, ih (index + 1),
        phraseParts_cons, span_cons]
      rfl

theorem length_bankForm (addresses : AddressTable) (bank : Bank) :
    (bankForm addresses bank).length = span (bankParts bank) := by
  rw [bankForm, List.length_append, length_recordBytes, length_phrasesForm addresses bank.name 0,
    directoryOf, List.length_map]
  rfl

theorem length_banksForm (addresses : AddressTable) (banks : List Bank) :
    (banks.flatMap (bankForm addresses)).length = span (banks.flatMap bankParts) := by
  induction banks with
  | nil => rfl
  | cons bank rest ih => simp [ih, length_bankForm]

/-! ## When writing succeeds -/

/-- The table has every part where it stands. -/
def Agrees (addresses : AddressTable) (placed : List (Part × Nat)) : Prop :=
  ∀ entry ∈ placed, addresses.offset? entry.1.entity = some entry.2

/-- The table knows all that the tokens of a phrase point at. -/
def Knows (addresses : AddressTable) (phrase : Phrase) : Prop :=
  ∀ token ∈ phrase.tokens, (addresses.offset? (.ofToken token)).isSome

theorem agrees_append {addresses : AddressTable} {lower upper : List (Part × Nat)} :
    Agrees addresses (lower ++ upper) ↔ Agrees addresses lower ∧ Agrees addresses upper :=
  List.forall_mem_append

theorem agrees_cons {addresses : AddressTable} {entry : Part × Nat}
    {upper : List (Part × Nat)} :
    Agrees addresses (entry :: upper) ↔
      addresses.offset? entry.1.entity = some entry.2 ∧ Agrees addresses upper :=
  List.forall_mem_cons

theorem confirmPlace_eq_ok_iff {addresses : AddressTable} {entity : Entity} {position : Nat}
    {answer : Unit} :
    confirmPlace addresses entity position = .ok answer ↔
      addresses.offset? entity = some position := by
  unfold confirmPlace AddressTable.offset
  cases addresses.offset? entity with
  | none => simp [bind, Except.bind]
  | some offset =>
      by_cases hoffset : offset = position <;>
        simp [hoffset, bind, Except.bind, pure, Except.pure, throw, throwThe, MonadExceptOf.throw]

theorem address_eq_ok_iff {addresses : AddressTable} {entity : Entity} {pointer : UInt16} :
    addresses.address entity = .ok pointer ↔
      (addresses.offset? entity).isSome ∧ pointer = addresses.addressOf entity := by
  unfold AddressTable.address AddressTable.offset AddressTable.addressOf
  cases addresses.offset? entity with
  | none => simp [Functor.map, Except.map]
  | some offset => simp [Functor.map, Except.map, eq_comm]

theorem mapM_address_eq_ok_iff {α : Type} {addresses : AddressTable} {entityOf : α → Entity}
    {items : List α} {pointers : List UInt16} :
    items.mapM (fun item => addresses.address (entityOf item)) = .ok pointers ↔
      (∀ item ∈ items, (addresses.offset? (entityOf item)).isSome) ∧
        pointers = items.map fun item => addresses.addressOf (entityOf item) := by
  rw [mapM_eq_ok_iff]
  induction items generalizing pointers with
  | nil => simp
  | cons item rest ih =>
      rw [List.forall₂_cons_left_iff, List.forall_mem_cons]
      constructor
      · rintro ⟨pointer, others, hpointer, hothers, rfl⟩
        obtain ⟨hsome, rfl⟩ := address_eq_ok_iff.mp hpointer
        obtain ⟨hall, rfl⟩ := ih.mp hothers
        exact ⟨⟨hsome, hall⟩, rfl⟩
      · rintro ⟨⟨hsome, hall⟩, rfl⟩
        exact ⟨_, _, address_eq_ok_iff.mpr ⟨hsome, rfl⟩, ih.mpr ⟨hall, rfl⟩, rfl⟩

theorem phraseBytes_eq_ok_iff {addresses : AddressTable} {position : Nat} {phrase : Phrase}
    {bytes : List UInt8} :
    phraseBytes addresses position phrase = .ok bytes ↔
      addresses.offset? (.phrase phrase.id) = some position ∧ Knows addresses phrase ∧
        bytes = phraseForm addresses phrase := by
  rw [phraseBytes, bind_eq_ok_iff]
  constructor
  · rintro ⟨_, hplace, hrest⟩
    obtain ⟨targets, htargets, heq⟩ := bind_eq_ok_iff.mp hrest
    obtain ⟨hknows, rfl⟩ := mapM_address_eq_ok_iff.mp htargets
    cases heq
    exact ⟨confirmPlace_eq_ok_iff.mp hplace, hknows, rfl⟩
  · rintro ⟨hplace, hknows, rfl⟩
    exact ⟨(), confirmPlace_eq_ok_iff.mpr hplace,
      bind_eq_ok_iff.mpr ⟨_, mapM_address_eq_ok_iff.mpr ⟨hknows, rfl⟩, rfl⟩⟩

theorem phrasesBytes_eq_ok_iff {addresses : AddressTable} {position : Nat}
    {phrases : List Phrase} {bytes : List UInt8} (bank : String) (index : Nat) :
    phrasesBytes addresses position phrases = .ok bytes ↔
      Agrees addresses (stack position (phraseParts bank index phrases)) ∧
        (∀ phrase ∈ phrases, Knows addresses phrase) ∧
        bytes = phrases.flatMap (phraseForm addresses) := by
  induction phrases generalizing position bytes index with
  | nil => simp [phrasesBytes, phraseParts, stack, Agrees, pure, Except.pure, eq_comm]
  | cons phrase rest ih =>
      rw [phraseParts_cons, stack, agrees_cons, List.forall_mem_cons, List.flatMap_cons, phrasesBytes,
        bind_eq_ok_iff]
      constructor
      · rintro ⟨first, hfirst, hrest⟩
        obtain ⟨others, hothers, heq⟩ := bind_eq_ok_iff.mp hrest
        obtain ⟨hplace, hknows, rfl⟩ := phraseBytes_eq_ok_iff.mp hfirst
        rw [length_phraseForm] at hothers
        obtain ⟨hagrees, hall, rfl⟩ := (ih (index + 1)).mp hothers
        cases heq
        exact ⟨⟨hplace, hagrees⟩, ⟨hknows, hall⟩, rfl⟩
      · rintro ⟨⟨hplace, hagrees⟩, ⟨hknows, hall⟩, rfl⟩
        refine ⟨_, phraseBytes_eq_ok_iff.mpr ⟨hplace, hknows, rfl⟩, bind_eq_ok_iff.mpr ?_⟩
        rw [length_phraseForm]
        exact ⟨_, (ih (index + 1)).mpr ⟨hagrees, hall, rfl⟩, rfl⟩

/-- A table that agrees with the parts of a bank knows the bank's phrases. -/
theorem isSome_of_agrees_phrases {addresses : AddressTable} {position : Nat} {bank : String}
    {index : Nat} {phrases : List Phrase}
    (hagrees : Agrees addresses (stack position (phraseParts bank index phrases))) :
    ∀ phrase ∈ phrases, (addresses.offset? (.phrase phrase.id)).isSome := by
  intro phrase hphrase
  obtain ⟨place, hplace⟩ : ∃ place, (phrase, place) ∈ phrases.zipIdx index := by
    have hmem : phrase ∈ (phrases.zipIdx index).map Prod.fst := by
      rwa [List.zipIdx_map_fst]
    obtain ⟨⟨_, place⟩, hentry, rfl⟩ := List.mem_map.mp hmem
    exact ⟨place, hentry⟩
  have hpart : phrasePart bank place phrase ∈ phraseParts bank index phrases :=
    List.mem_map.mpr ⟨(phrase, place), hplace, rfl⟩
  rw [← map_fst_stack position (phraseParts bank index phrases)] at hpart
  obtain ⟨⟨_, offset⟩, hentry, rfl⟩ := List.mem_map.mp hpart
  rw [show Entity.phrase phrase.id = (phrasePart bank place phrase).entity from rfl,
    hagrees _ hentry]
  rfl

theorem bankBytes_eq_ok_iff {addresses : AddressTable} {position : Nat} {bank : Bank}
    {bytes : List UInt8} :
    bankBytes addresses position bank = .ok bytes ↔
      Agrees addresses (stack position (bankParts bank)) ∧
        (∀ phrase ∈ bank.phrases, Knows addresses phrase) ∧
        bytes = bankForm addresses bank := by
  have hlength : (recordBytes (directoryOf addresses bank)).length =
      (directoryPart bank).size := by
    rw [length_recordBytes, directoryOf, List.length_map]
    rfl
  rw [bankParts, stack, agrees_cons, bankBytes, bind_eq_ok_iff]
  constructor
  · rintro ⟨_, hplace, hrest⟩
    obtain ⟨directory, hdirectory, hrest⟩ := bind_eq_ok_iff.mp hrest
    obtain ⟨phrases, hphrases, heq⟩ := bind_eq_ok_iff.mp hrest
    obtain ⟨_, rfl⟩ := mapM_address_eq_ok_iff.mp hdirectory
    rw [show (bank.phrases.map fun phrase => addresses.addressOf (.phrase phrase.id)) =
      directoryOf addresses bank from rfl, hlength] at hphrases
    obtain ⟨hagrees, hall, rfl⟩ := (phrasesBytes_eq_ok_iff bank.name 0).mp hphrases
    cases heq
    exact ⟨⟨confirmPlace_eq_ok_iff.mp hplace, hagrees⟩, hall, rfl⟩
  · rintro ⟨⟨hplace, hagrees⟩, hall, rfl⟩
    refine ⟨(), confirmPlace_eq_ok_iff.mpr hplace, bind_eq_ok_iff.mpr
      ⟨directoryOf addresses bank, mapM_address_eq_ok_iff.mpr
        ⟨isSome_of_agrees_phrases hagrees, rfl⟩, bind_eq_ok_iff.mpr ?_⟩⟩
    rw [hlength]
    exact ⟨_, (phrasesBytes_eq_ok_iff bank.name 0).mpr ⟨hagrees, hall, rfl⟩, rfl⟩

/-- **Writing banks succeeds exactly when the table agrees with the stack** and knows the target
of every token. -/
theorem banksBytes_eq_ok_iff {addresses : AddressTable} {position : Nat} {banks : List Bank}
    {bytes : List UInt8} :
    banksBytes addresses position banks = .ok bytes ↔
      Agrees addresses (stack position (banks.flatMap bankParts)) ∧
        (∀ bank ∈ banks, ∀ phrase ∈ bank.phrases, Knows addresses phrase) ∧
        bytes = banks.flatMap (bankForm addresses) := by
  induction banks generalizing position bytes with
  | nil => simp [banksBytes, stack, Agrees, pure, Except.pure, eq_comm]
  | cons bank rest ih =>
      rw [List.flatMap_cons, stack_append, agrees_append, List.forall_mem_cons,
        List.flatMap_cons, banksBytes, bind_eq_ok_iff]
      constructor
      · rintro ⟨first, hfirst, hrest⟩
        obtain ⟨others, hothers, heq⟩ := bind_eq_ok_iff.mp hrest
        obtain ⟨hagrees, hall, rfl⟩ := bankBytes_eq_ok_iff.mp hfirst
        rw [length_bankForm] at hothers
        obtain ⟨hagrees', hall', rfl⟩ := ih.mp hothers
        cases heq
        exact ⟨⟨hagrees, hagrees'⟩, ⟨hall, hall'⟩, rfl⟩
      · rintro ⟨⟨hagrees, hagrees'⟩, ⟨hall, hall'⟩, rfl⟩
        refine ⟨_, bankBytes_eq_ok_iff.mpr ⟨hagrees, hall, rfl⟩, bind_eq_ok_iff.mpr ?_⟩
        rw [length_bankForm]
        exact ⟨_, ih.mpr ⟨hagrees', hall', rfl⟩, rfl⟩

end SpeechRom.Rom
