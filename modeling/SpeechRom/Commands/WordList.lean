import SpeechRom.Build
import SpeechRom.Commands.Outcome

/-!
# Listing the words of a pack

The command prints the words that a pack uses, one a line in the order of their
discovery.  With `--missing` and a directory of recordings it leaves out the
words that are recorded there.
-/

namespace SpeechRom.Commands.WordList

open Files

/-- How the command is used. -/
def usage (program : String) : String :=
  s!"Usage: {program} <phrase_pack_directory> [--missing <word_directory>]\n"

/-- What is asked for: a pack directory, and perhaps a directory of recordings. -/
def request? : List String → Option (String × Option String)
  | [phrases] => some (phrases, none)
  | [phrases, "--missing", recordings] => some (phrases, some recordings)
  | _ => none

variable {φ : Type} [FileSystem φ]

/-- The recorded words, none if no directory is given. -/
def recordedWords (files : φ) : Option String → Except Fault (List String)
  | none => .ok []
  | some directory => do
    let found ← namedFiles files directory recordingExtension
    return found.map (·.stem)

/-- The words of a pack that are not recorded. -/
def missingWords (pack : Pack) (recorded : List String) : List String :=
  pack.words.keys.filter fun word => !recorded.contains word

/-- Run the command. -/
def run (files : φ) (program : String) (arguments : List String) : Outcome φ :=
  match request? arguments with
  | none => .failure files (usage program) ""
  | some (phrases, recordings) =>
    match Pack.ofDirectory files phrases with
    | .error failure => .failure files "" s!"Error: {failure.message}\n"
    | .ok pack =>
      match recordedWords files recordings with
      | .error fault => .failure files "" s!"Error: {fault.message}\n"
      | .ok recorded => .success files (lines (missingWords pack recorded))

end SpeechRom.Commands.WordList
