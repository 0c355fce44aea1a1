import SpeechRom.Attempt
import SpeechRom.Rom.AddressTable
import SpeechRom.Vocabulary

/-!
# The layout of an image

An image is a header, the phrase banks and the speech data, without gaps:

    header    start of the speech data, start of the primary bank
    bank      count of phrases, address of each phrase; then its phrases
    phrase    count of tokens, address that each token points at
    speech    the data of every word, one after another

Addresses take two bytes and counts one.  Phrases point at banks before and
after them, so all offsets are assigned here before anything is written.
-/

namespace SpeechRom.Rom

/-- The bytes of an address. -/
def pointerSize : Nat := 2

/-- The bytes of the header: two addresses. -/
def headerSize : Nat := 2 * pointerSize

/-- The largest count that one byte holds. -/
def countLimit : Nat := 255

/-- The bytes of a bank of `phrases` phrases without the phrases themselves. -/
def bankRecordSize (phrases : Nat) : Nat := 1 + phrases * pointerSize

/-- The bytes of a phrase of `tokens` tokens. -/
def phraseRecordSize (tokens : Nat) : Nat := 1 + tokens * pointerSize

/-- Giving out addresses; what was given out before a failure stays. -/
abbrev Placing (α : Type) := Attempt BuildError AddressTable α

/-- Give an entity an offset. -/
def place (entity : Entity) (offset : Nat) : Placing Unit := do
  let table ← get
  set (← Attempt.ofExcept (table.put entity offset))

/-- Place the phrases of a bank from an offset on; the answer is the offset after them. -/
def placePhrases (bank : Bank) : (index offset : Nat) → List Phrase → Placing Nat
  | _, offset, [] => return offset
  | index, offset, phrase :: rest => do
    if phrase.tokens.length > countLimit then
      throw (.tooManyTokens bank.name index phrase.tokens.length)
    place (.phrase phrase.id) offset
    placePhrases bank (index + 1) (offset + phraseRecordSize phrase.tokens.length) rest

/-- Place banks and their phrases from an offset on; the answer is the offset after them. -/
def placeBanks : (offset : Nat) → List Bank → Placing Nat
  | offset, [] => return offset
  | offset, bank :: rest => do
    if bank.phrases.length > countLimit then
      throw (.tooManyPhrases bank.name bank.phrases.length)
    place (.bank bank.id) offset
    let next ← placePhrases bank 0 (offset + bankRecordSize bank.phrases.length) bank.phrases
    placeBanks next rest

/-- Place words from an offset on; the answer is their speech data, joined. -/
def placeWords (vocabulary : Vocabulary) : (offset : Nat) → List Word → Placing (List UInt8)
  | _, [] => return []
  | offset, word :: rest => do
    match vocabulary.get? word.text with
    | none => throw (.notRecorded word.text)
    | some data =>
      place (.word word.id) offset
      let others ← placeWords vocabulary (offset + data.length) rest
      return data ++ others

/-- Where everything goes. -/
structure Layout where
  addresses : AddressTable
  /-- The first byte after the phrase banks. -/
  speechStart : Nat
  speechData : List UInt8
  /-- The size of the image. -/
  size : Nat
  deriving DecidableEq

/-- The bytes between header and speech data. -/
def Layout.phraseRegionSize (layout : Layout) : Nat := layout.speechStart - headerSize

/-- Place all entities of a pack and gather its speech data. -/
def placeAll (pack : Pack) (vocabulary : Vocabulary) : Placing (Nat × List UInt8) := do
  place .header 0
  let speechStart ← placeBanks headerSize pack.banks.values
  place .wordData speechStart
  let speechData ← placeWords vocabulary speechStart pack.words.values
  return (speechStart, speechData)

/-- The layout of a pack with a vocabulary, if the image is addressable. -/
def Layout.ofPack (pack : Pack) (vocabulary : Vocabulary) : Except BuildError Layout :=
  match (placeAll pack vocabulary).runFrom AddressTable.empty with
  | (.error failure, _) => .error failure
  | (.ok (speechStart, speechData), addresses) =>
    let size := speechStart + speechData.length
    if size > addressSpace then .error (.imageTooLarge size)
    else .ok ⟨addresses, speechStart, speechData, size⟩

end SpeechRom.Rom
