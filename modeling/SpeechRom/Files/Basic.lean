import SpeechRom.Attempt
import SpeechRom.Files.Fault
import SpeechRom.Text.Pieces
import SpeechRom.Text.Utf8

/-!
# Systems of files

What a program can ask of the system that keeps the files: what a path leads to,
what stands in a directory, what is read from a file, and that a file be
written.  The system is free in its answers.  Links, permissions, devices and
damaged disks are its own matter; all that shows of them is that a path leads
somewhere else, that a question is refused, or that a write fails.

A question changes nothing, and an answer is complete: there is none for a file
that is read without end.
-/

namespace SpeechRom.Files

/-! ## Paths -/

/-- The path of a name in a directory. -/
def joinPath (directory name : String) : String :=
  if directory.isEmpty || name.toList.head? == some '/' then name
  else if directory.toList.getLast? == some '/' then directory ++ name
  else directory ++ "/" ++ name

/-- The parts of a path between slashes; an empty part stands for the place itself. -/
def pathParts (path : String) : List String :=
  (Text.pieces (· == '/') path.toList).map String.ofList

/-- The last part of a path. -/
def fileName (path : String) : String := (pathParts path).getLast?.getD ""

/-! ## Answers of a system -/

/-- What a path leads to, once all links are followed. -/
inductive Kind where
  | file
  | directory
  | other
  deriving DecidableEq, Repr

/-- What comes of enumerating a directory that could be opened. -/
structure Listing where
  /-- The names in the directory, as bytes, in the order of enumeration. -/
  names : List (List UInt8)
  /-- No name stands in a directory twice. -/
  distinct : names.Nodup
  /-- The reason for which the enumeration broke off, if it did. -/
  failure : Option SystemError

/-- The names that are texts, in the order of enumeration. -/
def Listing.texts (listing : Listing) : List String := listing.names.filterMap Text.ofUtf8?

/-- A system that keeps files, with its states in `φ`. -/
class FileSystem (φ : Type) where
  /-- What a path leads to. -/
  kind : φ → String → Except SystemError Kind
  /-- The entries of the directory that a path leads to; they can only be had if it can be opened. -/
  enumerate : φ → String → Except SystemError Listing
  /-- The bytes of the file that a path leads to. -/
  read : φ → String → Except SystemError (List UInt8)
  /-- Make bytes the content of the file that a path leads to; there may be none before.  A write
  that fails may have done part of its work. -/
  write : String → List UInt8 → Attempt SystemError φ Unit
  /-- The stream of the program itself that a path leads to: 1 for its output, 2 for its errors. -/
  streamAt? : φ → String → Option Nat

/-! ## What programs ask -/

section Questions

variable {φ : Type} [FileSystem φ]

/-- Whether a path leads anywhere. -/
def pathExists (files : φ) (path : String) : Bool := (FileSystem.kind files path).isOk

/-- Whether a path leads to a directory. -/
def isDirectory (files : φ) (path : String) : Bool :=
  match FileSystem.kind files path with
  | .ok kind => kind = .directory
  | .error _ => false

/-- Whether a path leads to a regular file.  The answer is no as well if the system refuses to say
where the path leads. -/
def isFile (files : φ) (path : String) : Bool :=
  match FileSystem.kind files path with
  | .ok kind => kind = .file
  | .error _ => false

/-- The text of a file. -/
def readText (files : φ) (path : String) : Except Fault String :=
  match FileSystem.read files path with
  | .error reason => .error (.refused path reason)
  | .ok content =>
    match Text.ofUtf8? content with
    | some text => .ok text
    | none => .error (.notText path)

end Questions

end SpeechRom.Files
