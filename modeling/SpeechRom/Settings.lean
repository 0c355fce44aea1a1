import SpeechRom.Files.Basic
import SpeechRom.Toml.Document

/-!
# Settings

A pack directory may hold a settings file: the bank to start from, how listings
are wrapped, how many phrases a preview says, and the program that encodes
recordings.  What the file leaves out keeps its default; a key that is not
known, or a value of the wrong kind, spoils the file.
-/

namespace SpeechRom

/-- The program that encodes recordings, and its arguments. -/
structure EncoderSettings where
  program : Option String
  args : List String
  deriving DecidableEq, Repr, Inhabited

/-- The settings of a build. -/
structure Settings where
  /-- The bank that the image starts from. -/
  primaryBank : String
  /-- The bytes on a line of a listing; 0 for one line. -/
  bytesPerLine : Nat
  /-- The number of phrases that a preview says. -/
  previewCount : Nat
  encoder : EncoderSettings
  deriving DecidableEq, Repr

namespace Settings

/-- The name of the settings file in a pack directory. -/
def settingsFileName : String := "phrasepack.toml"

/-- The settings that hold where nothing is said. -/
def default : Settings := ⟨"primary", 20, 10, ⟨none, []⟩⟩

instance : Inhabited Settings := ⟨default⟩

/-- Why there are no settings. -/
inductive Fault where
  /-- The text is no TOML document or describes other things. -/
  | malformed
  /-- The text of a file is malformed. -/
  | malformedFile (path : String)
  | unreadable (fault : Files.Fault)
  | noEncoder
  deriving DecidableEq, Repr

/-- The wording of a fault. -/
def Fault.message : Fault → String
  | .malformed => "Config error: TOML parse error"
  | .malformedFile path => s!"Config error: {path}: Config error: TOML parse error"
  | .unreadable fault => fault.message
  | .noEncoder =>
    s!"Config error: no [encoder] program configured; add one to {settingsFileName}"

/-! ## From a document to settings -/

/-- The text of a string. -/
def stringOf? : Toml.Value → Option String
  | .string text => some text
  | _ => none

/-- The number of an integer that is not negative. -/
def countOf? : Toml.Value → Option Nat
  | .integer (.ofNat n) => some n
  | _ => none

/-- The texts of an array of strings. -/
def stringsOf? : Toml.Value → Option (List String)
  | .array items => items.mapM stringOf?
  | _ => none

/-- Enter a key of the encoder table. -/
def enterEncoderKey? (encoder : EncoderSettings) : String × Toml.Value → Option EncoderSettings
  | ("program", value) => return { encoder with program := some (← stringOf? value) }
  | ("args", value) => return { encoder with args := ← stringsOf? value }
  | _ => none

/-- The encoder settings of a value: a table, or an array of program and arguments in this
order, of which the rest is ignored. -/
def encoderOf? : Toml.Value → Option EncoderSettings
  | .table _ entries => entries.foldlM enterEncoderKey? ⟨none, []⟩
  | .array [] => some ⟨none, []⟩
  | .array [program] => return ⟨some (← stringOf? program), []⟩
  | .array (program :: args :: _) =>
    return ⟨some (← stringOf? program), ← stringsOf? args⟩
  | _ => none

/-- Enter a key of the document. -/
def enterKey? (settings : Settings) : String × Toml.Value → Option Settings
  | ("primary_bank", value) => return { settings with primaryBank := ← stringOf? value }
  | ("bytes_per_line", value) => return { settings with bytesPerLine := ← countOf? value }
  | ("preview_count", value) => return { settings with previewCount := ← countOf? value }
  | ("encoder", value) => return { settings with encoder := ← encoderOf? value }
  | _ => none

/-- The settings that a text describes. -/
def parse (text : String) : Except Fault Settings :=
  match (Toml.parse? text).bind fun table => table.foldlM enterKey? default with
  | some settings => .ok settings
  | none => .error .malformed

/-! ## From files -/

section Files

variable {φ : Type} [Files.FileSystem φ]

/-- The settings of a file. -/
def ofFile (files : φ) (path : String) : Except Fault Settings :=
  match Files.readText files path with
  | .error fault => .error (.unreadable fault)
  | .ok text =>
    match parse text with
    | .ok settings => .ok settings
    | .error _ => .error (.malformedFile path)

/-- The settings of a pack directory: those of its settings file, if it has one. -/
def ofDirectory (files : φ) (directory : String) : Except Fault Settings :=
  let path := Files.joinPath directory settingsFileName
  if Files.isFile files path then ofFile files path else .ok default

end Files

/-- The encoder program with its arguments, if one is set. -/
def encoderCommand (settings : Settings) : Except Fault (String × List String) :=
  match settings.encoder.program with
  | some program => .ok (program, settings.encoder.args)
  | none => .error .noEncoder

end Settings

end SpeechRom
