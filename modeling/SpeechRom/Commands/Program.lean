import SpeechRom.Commands.ImageBuilder
import SpeechRom.Commands.Preview
import SpeechRom.Commands.WordList

/-!
# The commands by name

Three commands share one way of being run: the words of a command line, of which
the first one is the name under which the command was called, which its messages
repeat.  All words have to be texts.
-/

namespace SpeechRom.Commands

/-- The commands. -/
inductive Program where
  | wordList
  | imageBuilder
  | preview
  deriving DecidableEq, Repr

namespace Program

/-- The name of a command. -/
def name : Program → String
  | .wordList => "list-words"
  | .imageBuilder => "phrasepack-rom"
  | .preview => "say-phrase"

/-- The command of a name. -/
def ofName? (text : String) : Option Program :=
  [wordList, imageBuilder, preview].find? fun program => program.name = text

/-- A name that is printed is a name that is read. -/
theorem ofName?_name (program : Program) : ofName? program.name = some program := by
  cases program <;> decide

/-- Run a command on the words of a command line.  Encoder programs are run by `launch`, and the
entropy is for choices without a seed. -/
def run {φ : Type} [Files.FileSystem φ] (program : Program) (launch : Encoding.Launcher φ)
    (entropy : UInt64) (files : φ) (words : List (List UInt8)) : Outcome φ :=
  match program with
  | .wordList => onWords (WordList.run files) files words
  | .imageBuilder => onWords (ImageBuilder.run launch files) files words
  | .preview => onWords (Preview.run files entropy) files words

end Program

end SpeechRom.Commands
