import SpeechRom.Files.Tree
import SpeechRom.Shell.Field

/-!
# File names that match a pattern

A field with signs of a pattern stands for the paths that match it, name by
name, in the order of their bytes; if there are none it stands for itself.  A
name that starts with a dot must be asked for.
-/

namespace SpeechRom.Shell.Glob

open Files

/-- The marked parts of a pattern between slashes. -/
def parts (text : List MarkedByte) : List (List MarkedByte) :=
  Text.pieces (fun marked => marked.1 == 0x2f) text

/-- Whether a part of a pattern matches more than itself. -/
def isWild (part : List MarkedByte) : Bool := !(Pattern.ofMarked part).all Pattern.isLiteral

/-- The text that a part without signs stands for. -/
def literalText (part : List MarkedByte) : Bytes := (Pattern.settled part).map (·.1)

/-- The names in the directory that a path leads to. -/
def namesIn (tree : FileTree) (path : Bytes) : List Bytes :=
  match tree.locate (if path.isEmpty then "." else pathOf path) with
  | .ok place => [utf8 ".", utf8 ".."] ++ (tree.children place).map fun child => utf8 child.1
  | .error _ => []

/-- The names of a directory that a part matches. -/
def matchesIn (tree : FileTree) (path : Bytes) (part : List MarkedByte) : List Bytes :=
  let pattern := Pattern.ofMarked part
  let dotted := (literalText part).head? = some 0x2e
  (namesIn tree path).filter fun name =>
    (dotted || name.head? ≠ some 0x2e) && Pattern.accepts pattern name

/-- The paths that start with a path and go on as parts of a pattern say. -/
def pathsFrom (tree : FileTree) : (path : Bytes) → List (List MarkedByte) → List Bytes
  | path, [] => [path]
  | path, [part] =>
    if isWild part then (matchesIn tree path part).map (path ++ ·)
    else
      let path := path ++ literalText part
      if pathExists tree (pathOf path) then [path] else []
  | path, part :: rest =>
    if isWild part then
      (matchesIn tree path part).flatMap fun name =>
        let path := path ++ name ++ [0x2f]
        if isDirectory tree (pathOf path) then pathsFrom tree path rest else []
    else pathsFrom tree (path ++ literalText part ++ [0x2f]) rest

/-- Whether a text of bytes comes no later than another. -/
def comesFirst : Bytes → Bytes → Bool
  | [], _ => true
  | _ :: _, [] => false
  | a :: first, b :: second => if a = b then comesFirst first second else a < b

/-- The paths that a field stands for. -/
def expand (tree : FileTree) (field : List Mark) : List Bytes :=
  let text := markedBytes field
  let itself := bytesOfMarks field
  if (parts text).any isWild then
    match (pathsFrom tree [] (parts text)).mergeSort comesFirst with
    | [] => [itself]
    | paths => paths
  else [itself]

end SpeechRom.Shell.Glob
