import SpeechRom.Rom.Layout

/-!
# Linking an image

Given the layout, the phrase banks are written in order.  Every bank and phrase
is written exactly where the layout put it: the writer compares its position
with the table before each, so a table with a clash of handles is found out.
-/

namespace SpeechRom.Rom

/-- A linked image with the addresses it was linked from. -/
structure Image where
  bytes : List UInt8
  addresses : AddressTable
  /-- The offset of the speech data. -/
  speechStart : Nat
  /-- The bank that the header names. -/
  primary : BankId
  deriving DecidableEq

/-- An address as bytes, the low one first. -/
def pointerBytes (pointer : UInt16) : List UInt8 :=
  [UInt8.ofNat (pointer.toNat % 256), UInt8.ofNat (pointer.toNat / 256)]

/-- A count byte followed by addresses. -/
def recordBytes (pointers : List UInt16) : List UInt8 :=
  UInt8.ofNat pointers.length :: pointers.flatMap pointerBytes

@[simp]
theorem length_pointerBytes (pointer : UInt16) : (pointerBytes pointer).length = pointerSize := rfl

/-- Records are as long as the layout plans them. -/
theorem length_recordBytes (pointers : List UInt16) :
    (recordBytes pointers).length = phraseRecordSize pointers.length := by
  induction pointers with
  | nil => rfl
  | cons pointer rest ih =>
    simp only [recordBytes, phraseRecordSize, pointerSize, pointerBytes, List.length_cons,
      List.flatMap_cons, List.length_append, List.length_nil] at ih ⊢
    omega

/-- Make sure that an entity is about to be written where the table has it. -/
def confirmPlace (addresses : AddressTable) (entity : Entity) (position : Nat) :
    Except BuildError Unit := do
  let expected ← addresses.offset entity
  if expected ≠ position then throw (.positionMismatch expected position)

/-- The bytes of a phrase at a position. -/
def phraseBytes (addresses : AddressTable) (position : Nat) (phrase : Phrase) :
    Except BuildError (List UInt8) := do
  confirmPlace addresses (.phrase phrase.id) position
  let targets ← phrase.tokens.mapM addresses.targetAddress
  return recordBytes targets

/-- The bytes of phrases one after another. -/
def phrasesBytes (addresses : AddressTable) : (position : Nat) → List Phrase →
    Except BuildError (List UInt8)
  | _, [] => return []
  | position, phrase :: rest => do
    let bytes ← phraseBytes addresses position phrase
    let others ← phrasesBytes addresses (position + bytes.length) rest
    return bytes ++ others

/-- The bytes of a bank at a position: its directory, then its phrases. -/
def bankBytes (addresses : AddressTable) (position : Nat) (bank : Bank) :
    Except BuildError (List UInt8) := do
  confirmPlace addresses (.bank bank.id) position
  let directory ← bank.phrases.mapM fun phrase => addresses.address (.phrase phrase.id)
  let bytes := recordBytes directory
  let phrases ← phrasesBytes addresses (position + bytes.length) bank.phrases
  return bytes ++ phrases

/-- The bytes of banks one after another. -/
def banksBytes (addresses : AddressTable) : (position : Nat) → List Bank →
    Except BuildError (List UInt8)
  | _, [] => return []
  | position, bank :: rest => do
    let bytes ← bankBytes addresses position bank
    let others ← banksBytes addresses (position + bytes.length) rest
    return bytes ++ others

/-- The bytes of the header. -/
def headerBytes (speechStart : Nat) (primary : UInt16) : List UInt8 :=
  pointerBytes (UInt16.ofNat speechStart) ++ pointerBytes primary

/-- Link a pack with a vocabulary; play starts from the bank named `primary`. -/
def Image.ofPack (pack : Pack) (vocabulary : Vocabulary) (primary : String) :
    Except BuildError Image := do
  match pack.findBank? primary with
  | none => throw (.missingPrimary primary)
  | some start =>
    let layout ← Layout.ofPack pack vocabulary
    let phraseData ← banksBytes layout.addresses headerSize pack.banks.values
    if phraseData.length ≠ layout.phraseRegionSize then
      throw (.positionMismatch layout.phraseRegionSize phraseData.length)
    let startPointer ← layout.addresses.address (.bank start.id)
    let bytes := headerBytes layout.speechStart startPointer ++ phraseData ++ layout.speechData
    if bytes.length ≠ layout.size then throw (.positionMismatch layout.size bytes.length)
    return ⟨bytes, layout.addresses, layout.speechStart, start.id⟩

end SpeechRom.Rom
