import SpeechRom.Encoding.Encoder
import SpeechRom.Files.Scan
import SpeechRom.Pack.Check
import SpeechRom.Pack.Grammar
import SpeechRom.Rom.Image
import SpeechRom.Settings

/-!
# Builds

From directories to an image: read and check the pack, encode the recordings,
link.  The stages can be run one by one or all at once.
-/

namespace SpeechRom

open Files

/-- The extension of phrase files. -/
def phraseExtension : String := "txt"

/-- The extension of recordings. -/
def recordingExtension : String := "wav"

variable {φ : Type} [FileSystem φ]

/-! ## Packs from directories -/

/-- The sources in a directory: its phrase files in the order of their names. -/
def readSources (files : φ) (directory : String) : Except Fault (List Source) := do
  let found ← namedFiles files directory phraseExtension
  found.mapM fun file => do
    let text ← readText files file.path
    return ⟨file.stem, text⟩

/-- The pack of a directory. -/
def Pack.ofDirectory (files : φ) (directory : String) : Except BuildError Pack :=
  match readSources files directory with
  | .ok sources => Pack.ofSources sources
  | .error fault => .error (.files fault)

/-- The pack of a directory, checked to be playable. -/
def readPack (files : φ) (settings : Settings) (directory : String) :
    Except BuildError Pack := do
  let pack ← Pack.ofDirectory files directory
  let _ ← pack.check settings.primaryBank
  return pack

/-! ## Vocabularies from recordings -/

variable {σ : Type}

/-- Encode a recording and add it to a vocabulary; an encoder must give data. -/
def addRecording (encoder : Encoder σ) (vocabulary : Vocabulary) (file : NamedFile) :
    Attempt BuildError σ Vocabulary := do
  let data ← encoder.encode file.path
  if data.isEmpty then Encoder.fail file.path .noData
  else return vocabulary.insert file.stem data

/-- The vocabulary of a directory: its recordings, encoded in the order of their names. -/
def encodeRecordings (files : φ) (encoder : Encoder σ) (directory : String) :
    Attempt BuildError σ Vocabulary :=
  match namedFiles files directory recordingExtension with
  | .error fault => throw (.files fault)
  | .ok found => found.foldlM (addRecording encoder) (∅ : Vocabulary)

/-! ## Images -/

/-- Link a pack that is checked first. -/
def linkChecked (settings : Settings) (pack : Pack) (vocabulary : Vocabulary) :
    Except BuildError Rom.Image := do
  let _ ← pack.check settings.primaryBank
  Rom.Image.ofPack pack vocabulary settings.primaryBank

/-- Build an image and the pack it was built from. -/
def build (files : φ) (settings : Settings) (encoder : Encoder σ)
    (recordings phrases : String) : Attempt BuildError σ (Pack × Rom.Image) := do
  let pack ← Attempt.ofExcept (readPack files settings phrases)
  let vocabulary ← encodeRecordings files encoder recordings
  let image ← Attempt.ofExcept (Rom.Image.ofPack pack vocabulary settings.primaryBank)
  return (pack, image)

/-- Build an image stage by stage; the pack is checked again before it is linked. -/
def buildStaged (files : φ) (settings : Settings) (encoder : Encoder σ)
    (recordings phrases : String) : Attempt BuildError σ (Pack × Rom.Image) := do
  let pack ← Attempt.ofExcept (readPack files settings phrases)
  let vocabulary ← encodeRecordings files encoder recordings
  let image ← Attempt.ofExcept (linkChecked settings pack vocabulary)
  return (pack, image)

end SpeechRom
