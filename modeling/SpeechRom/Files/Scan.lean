import SpeechRom.Files.Basic
import SpeechRom.Identifier

/-!
# Scanning a directory

Phrase files and recordings are the files of a directory that are named by an
identifier and an extension.  A scan gives them sorted by name, so its result
does not depend on the order in which the directory is enumerated.
-/

namespace SpeechRom.Files

/-- A file named by an identifier: the identifier and the path. -/
structure NamedFile where
  stem : String
  path : String
  deriving DecidableEq, Repr

/-- The identifier in front of the extension, if a name has this form. -/
def stem? (extension name : String) : Option String :=
  let ending := '.' :: extension.toList
  let letters := name.toList
  if ending.isSuffixOf letters then
    let stem := letters.take (letters.length - ending.length)
    if isName stem then some (String.ofList stem) else none
  else none

variable {φ : Type} [FileSystem φ]

/-- Make sure that a path leads to a directory that can be opened. -/
def checkDirectory (files : φ) (path : String) : Except Fault Unit :=
  if !pathExists files path then .error (.missing path)
  else if !isDirectory files path then .error (.notDirectory path)
  else
    match FileSystem.enumerate files path with
    | .error reason => .error (.refused path reason)
    | .ok _ => .ok ()

/-- The files of a directory that are named by an identifier and the extension, by name.  What is
not seen to be a regular file by its path is passed over in silence, and so is a name that is no
text. -/
def namedFiles (files : φ) (directory extension : String) : Except Fault (List NamedFile) := do
  checkDirectory files directory
  match FileSystem.enumerate files directory with
  | .error reason => .error (.refused directory reason)
  | .ok listing =>
    match listing.failure with
    | some reason => .error (.refused directory reason)
    | none =>
      let present := listing.texts.filter fun name => isFile files (joinPath directory name)
      let sorted := present.mergeSort fun first second => decide (first ≤ second)
      return sorted.filterMap fun name =>
        (stem? extension name).map (⟨·, joinPath directory name⟩)

end SpeechRom.Files
