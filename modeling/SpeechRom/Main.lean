import SpeechRom.Commands.Program
import SpeechRom.Shell.Program

/-!
# The command line

The first argument names a command, the others are its arguments.  The command
is a function of a tree of files, so what the arguments name is copied into a
tree before, and the files that the command has changed are written after.
Encoder programs are run on the tree as well.
-/

namespace SpeechRom.CommandLine

open Commands Files

/-- The location that a path names, seen from a working directory. -/
def locationOf (working : Location) (path : String) : Location :=
  (pathParts path).foldl (fun place part =>
    if part = "" ∨ part = "." then place
    else if part = ".." then place.dropLast
    else place ++ [part]) (if path.startsWith "/" then [] else working)

/-- Copy the file or directory at a location into a tree; a directory comes without its entries. -/
def copyNode (tree : FileTree) (location : Location) : IO FileTree := do
  let path := (← IO.currentDir) / absolutePath location
  if location.isEmpty || !(← path.pathExists) then return tree
  else
    match (← path.metadata).type with
    | .dir => return tree.plant location .directory
    | .file => return tree.plant location (.file (← IO.FS.readBinFile path).toList)
    | _ => return tree

/-- Copy what a path names into a tree: the way to it, the node itself, and the entries if it is
a directory. -/
def copyPath (tree : FileTree) (path : String) : IO FileTree := do
  let location := locationOf tree.workingDirectory path
  let wayAndNode := (List.range (location.length + 1)).map location.take
  let tree ← wayAndNode.foldlM copyNode tree
  let directory := (← IO.currentDir) / absolutePath location
  if ← directory.isDir then
    let entries ← directory.readDir
    entries.toList.foldlM (fun tree entry => copyNode tree (location ++ [entry.fileName])) tree
  else return tree

/-- Write the files that differ between two trees. -/
def writeChanges (before after : FileTree) : IO Unit :=
  after.nodes.entries.forM fun (location, node) => do
    match node with
    | .file content =>
      if before.node? location ≠ some node then
        IO.FS.writeBinFile (absolutePath location) ⟨content.toArray⟩
    | _ => return ()

/-- A seed from the system's entropy. -/
def freshSeed : IO UInt64 := do
  let bytes ← IO.getRandomBytes 8
  return bytes.toList.foldl (fun seed byte => seed * 256 + byte.toUInt64) 0

/-- What is given as input, if one of the paths leads to it. -/
def givenInput (tree : FileTree) (paths : List String) : IO (List UInt8) :=
  match paths.find? fun path => tree.streamAt? path = some 0 with
  | some path => return (← IO.FS.readBinFile path).toList
  | none => return []

/-- Run a command on the files of the system; the result is its exit code. -/
def perform (program : Program) (calledAs : String) (arguments : List String) : IO UInt32 := do
  let working := locationOf [] (← IO.currentDir).toString
  let copied ← arguments.foldlM copyPath { FileTree.system with workingDirectory := working }
  let before := { copied with input := ← givenInput copied arguments }
  let words := (calledAs :: arguments).map Text.utf8
  let outcome := program.run Shell.launcher (← freshSeed) before words
  (← IO.getStdout).write ⟨outcome.output.toArray⟩
  (← IO.getStderr).write ⟨outcome.errors.toArray⟩
  writeChanges before outcome.files
  return UInt32.ofNat outcome.code

end SpeechRom.CommandLine

/-- Run the command that the first argument names. -/
def main (arguments : List String) : IO UInt32 := do
  match arguments with
  | name :: rest =>
    match SpeechRom.Commands.Program.ofName? name with
    | some program => SpeechRom.CommandLine.perform program name rest
    | none =>
      IO.eprintln ("Error: Unknown command '" ++ name ++ "'")
      return 1
  | [] =>
    IO.eprintln "Error: No command given; there are list-words, phrasepack-rom and say-phrase"
    return 1
