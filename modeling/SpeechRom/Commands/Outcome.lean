import SpeechRom.Text.Utf8

/-!
# What a command does

A command line is a function of its words and the files: it ends with a code,
writes to the output and to the error output, and leaves files behind.  Its
words come as bytes; the first one is the name under which the command was
called.
-/

namespace SpeechRom.Commands

/-- The end of a command, on a system with states in `φ`. -/
structure Outcome (φ : Type) where
  code : Nat
  output : List UInt8
  errors : List UInt8
  files : φ

variable {φ : Type}

/-- A command that ends well. -/
def Outcome.success (files : φ) (output : String) : Outcome φ :=
  ⟨0, Text.utf8 output, [], files⟩

/-- A command that fails; it may have written text before. -/
def Outcome.failure (files : φ) (output errors : String) : Outcome φ :=
  ⟨1, Text.utf8 output, Text.utf8 errors, files⟩

/-- A command that breaks down before it has done anything.  What its runtime writes about that into
the error output is not the command's own and left out. -/
def Outcome.breakdown (files : φ) : Outcome φ := ⟨101, [], [], files⟩

/-- Texts, each on a line of its own. -/
def lines (texts : List String) : String := String.join (texts.map (· ++ "\n"))

/-- Run a command on the words of a command line.  It breaks down over a word that is no text, and
over a line without any word. -/
def onWords (command : String → List String → Outcome φ) (files : φ) (words : List (List UInt8)) :
    Outcome φ :=
  match words.mapM Text.ofUtf8? with
  | some (calledAs :: arguments) => command calledAs arguments
  | some [] | none => .breakdown files

end SpeechRom.Commands
