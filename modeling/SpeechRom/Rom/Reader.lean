import SpeechRom.Rom.Layout
import SpeechRom.Text.Hex

/-!
# Reading an image

A reader opens any row of bytes whose header makes sense and follows addresses
in it the way a player does.  Every access is checked first, so no byte outside
the image is ever asked for, and a record that does not fit is a defect.

`decode` decodes the whole phrase region and accepts it only if it is exactly
what linking writes: banks one after another, each directory naming the phrases
that follow it, every token a bank or a place in the speech data.
-/

namespace SpeechRom.Rom

/-- The two kinds of counted record. -/
inductive RecordKind where
  | bank
  | phrase
  deriving DecidableEq, Repr

/-- How messages name a kind of record. -/
def RecordKind.describe : RecordKind → String
  | .bank => "phrase bank"
  | .phrase => "phrase"

/-- What can be wrong with an image. -/
inductive Defect where
  | headerCut (size : Nat)
  | speechStartOutside (speechStart : UInt16)
  | primaryOutside (primary : UInt16)
  | recordOutside (kind : RecordKind) (offset : UInt16)
  | recordCut (kind : RecordKind) (offset : UInt16)
  | bankEmpty (offset : UInt16)
  | tokenIntoHeader (pointer : UInt16)
  | tokenOutside (pointer : UInt16)
  | phraseMisplaced (pointer : UInt16) (expected : Nat)
  | regionMisfit (regionEnd : Nat) (speechStart : UInt16)
  | primaryNoBank (primary : UInt16)
  | tokenNoBank (phrase : UInt16) (pointer : UInt16)
  /-- A bank asks for itself, directly or through others. -/
  | bankWithinItself (offset : UInt16)
  deriving DecidableEq, Repr

private def at16 (n : Nat) : String := "0x" ++ Text.hexLower 4 n

/-- What is wrong, in words. -/
def Defect.describe : Defect → String
  | .headerCut size => s!"image is {size} bytes, the header alone needs {headerSize}"
  | .speechStartOutside start => s!"word bank start {at16 start.toNat} outside image"
  | .primaryOutside primary =>
    s!"primary bank pointer {at16 primary.toNat} outside the phrase bank region"
  | .recordOutside kind offset =>
    s!"{kind.describe} at {at16 offset.toNat} is outside the image"
  | .recordCut kind offset =>
    s!"{kind.describe} at {at16 offset.toNat} runs past the end of the image"
  | .bankEmpty offset => s!"phrase bank at {at16 offset.toNat} has no phrases"
  | .tokenIntoHeader pointer => s!"token pointer {at16 pointer.toNat} points into the header"
  | .tokenOutside pointer => s!"token pointer {at16 pointer.toNat} is outside the image"
  | .phraseMisplaced pointer expected =>
    s!"phrase pointer {at16 pointer.toNat} does not follow its bank (expected {at16 expected})"
  | .regionMisfit regionEnd start =>
    s!"phrase bank region ends at {at16 regionEnd}, word bank starts at {at16 start.toNat}"
  | .primaryNoBank primary =>
    s!"primary bank pointer {at16 primary.toNat} is not the start of a phrase bank"
  | .tokenNoBank phrase pointer =>
    s!"phrase at {at16 phrase.toNat} references {at16 pointer.toNat}, " ++
      "which is not a phrase bank"
  | .bankWithinItself offset => s!"phrase bank at {at16 offset.toNat} references itself"

/-- The wording of a defect. -/
def Defect.message (defect : Defect) : String := "Invalid ROM: " ++ defect.describe

/-- The address stored at a position, the low byte first. -/
def pointerAt (image : Array UInt8) (position : Nat) (hin : position + 1 < image.size) : UInt16 :=
  UInt16.ofNat (image[position].toNat + 256 * image[position + 1].toNat)

/-- An image whose header makes sense. -/
structure Reader where
  image : Array UInt8
  speechStart : UInt16
  primary : UInt16
  headerSize_le_speechStart : headerSize ≤ speechStart.toNat
  speechStart_le_size : speechStart.toNat ≤ image.size
  headerSize_le_primary : headerSize ≤ primary.toNat
  primary_lt_speechStart : primary.toNat < speechStart.toNat

/-- What a token points at: a bank below the start of the speech data, a word from there on. -/
inductive Target where
  | bank (offset : UInt16)
  | word (offset : UInt16)
  deriving DecidableEq, Repr

/-- A bank record: the addresses of its phrases, of which there is at least one. -/
structure BankRecord where
  offset : UInt16
  phrases : List UInt16
  populated : 0 < phrases.length
  deriving DecidableEq

/-- A phrase record: the addresses its tokens point at. -/
structure PhraseRecord where
  offset : UInt16
  tokens : List UInt16
  deriving DecidableEq, Repr

/-- A bank with its phrases, as decoded from an image. -/
structure DecodedBank where
  record : BankRecord
  phrases : List PhraseRecord
  deriving DecidableEq

namespace Reader

/-- Open an image. -/
def open? (bytes : List UInt8) : Except Defect Reader :=
  let image := bytes.toArray
  if hsize : headerSize ≤ image.size then
    let speechStart := pointerAt image 0 (by simp only [headerSize, pointerSize] at hsize; omega)
    let primary := pointerAt image 2 (by simp only [headerSize, pointerSize] at hsize; omega)
    if hstart : headerSize ≤ speechStart.toNat ∧ speechStart.toNat ≤ image.size then
      if hprimary : headerSize ≤ primary.toNat ∧ primary.toNat < speechStart.toNat then
        .ok ⟨image, speechStart, primary, hstart.1, hstart.2, hprimary.1, hprimary.2⟩
      else .error (.primaryOutside primary)
    else .error (.speechStartOutside speechStart)
  else .error (.headerCut image.size)

/-- What an address points at, by where it lies. -/
def targetOf (reader : Reader) (pointer : UInt16) : Target :=
  if pointer.toNat < reader.speechStart.toNat then .bank pointer else .word pointer

/-- What a token points at, if a player can follow it. -/
def target (reader : Reader) (pointer : UInt16) : Except Defect Target :=
  if pointer.toNat < headerSize then .error (.tokenIntoHeader pointer)
  else if pointer.toNat < reader.image.size then .ok (reader.targetOf pointer)
  else .error (.tokenOutside pointer)

/-- The addresses of a counted record. -/
def record (reader : Reader) (kind : RecordKind) (offset : UInt16) :
    Except Defect (List UInt16) :=
  if hcount : offset.toNat < reader.image.size then
    let count := reader.image[offset.toNat].toNat
    if hend : offset.toNat + 1 + count * pointerSize ≤ reader.image.size then
      .ok (List.ofFn fun i : Fin count =>
        pointerAt reader.image (offset.toNat + 1 + i * pointerSize) (by
          have hi := i.isLt
          simp only [pointerSize] at hend ⊢
          omega))
    else .error (.recordCut kind offset)
  else .error (.recordOutside kind offset)

/-- The bank record at an address. -/
def readBank (reader : Reader) (offset : UInt16) : Except Defect BankRecord := do
  let phrases ← reader.record .bank offset
  if hpopulated : 0 < phrases.length then return ⟨offset, phrases, hpopulated⟩
  else throw (.bankEmpty offset)

/-- The phrase record at an address. -/
def readPhrase (reader : Reader) (offset : UInt16) : Except Defect PhraseRecord := do
  let tokens ← reader.record .phrase offset
  return ⟨offset, tokens⟩

/-! ## Decoding the phrase region -/

/-- Decode the phrases of a directory, which must follow one another from `position` on;
the answer comes with the position after them. -/
def phrasesFrom (reader : Reader) : (position : Nat) → List UInt16 →
    Except Defect (List PhraseRecord × Nat)
  | position, [] => return ([], position)
  | position, pointer :: rest => do
    if pointer.toNat ≠ position then throw (.phraseMisplaced pointer position)
    let phrase ← reader.readPhrase pointer
    let _ ← phrase.tokens.mapM reader.target
    let (others, regionEnd) ←
      reader.phrasesFrom (position + phraseRecordSize phrase.tokens.length) rest
    return (phrase :: others, regionEnd)

/-- Decode banks from a position up to the speech data; the answer comes with the position
after them.  Every bank takes at least three bytes, so `fuel` is never short if it is the
offset of the speech data. -/
def banksFrom (reader : Reader) : (fuel position : Nat) →
    Except Defect (List DecodedBank × Nat)
  | 0, position => return ([], position)
  | fuel + 1, position => do
    if position < reader.speechStart.toNat then
      let bank ← reader.readBank (UInt16.ofNat position)
      let (phrases, next) ←
        reader.phrasesFrom (position + bankRecordSize bank.phrases.length) bank.phrases
      let (others, regionEnd) ← reader.banksFrom fuel next
      return (⟨bank, phrases⟩ :: others, regionEnd)
    else return ([], position)

/-- A token that points into the phrase region, but at no bank, with its phrase. -/
def strayToken? (reader : Reader) (banks : List DecodedBank) : Option (UInt16 × UInt16) :=
  let starts := banks.map (·.record.offset)
  banks.findSome? fun bank => bank.phrases.findSome? fun phrase =>
    (phrase.tokens.find? fun token =>
      token.toNat < reader.speechStart.toNat && !starts.contains token).map (phrase.offset, ·)

/-- Decode every bank, in the order of the image. -/
def decode (reader : Reader) : Except Defect (List DecodedBank) := do
  let (banks, regionEnd) ← reader.banksFrom reader.speechStart.toNat headerSize
  if regionEnd ≠ reader.speechStart.toNat then
    throw (.regionMisfit regionEnd reader.speechStart)
  if !(banks.map (·.record.offset)).contains reader.primary then
    throw (.primaryNoBank reader.primary)
  match reader.strayToken? banks with
  | some (phrase, token) => throw (.tokenNoBank phrase token)
  | none => return banks

end Reader

end SpeechRom.Rom
