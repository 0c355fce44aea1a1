import SpeechRom.Files.Tree

/-!
# The files of a system

The tree that a program starts with: the directories of programs and devices,
and a working directory of its own with nothing in it.
-/

namespace SpeechRom.Files

/-- The directories of a system, parents first. -/
def systemDirectories : List Location :=
  [["bin"], ["boot"], ["dev"], ["dev", "fd"], ["etc"], ["home"], ["lib"], ["media"], ["mnt"],
   ["opt"], ["proc"], ["root"], ["run"], ["sbin"], ["srv"], ["sys"], ["tmp"], ["usr"],
   ["usr", "bin"], ["usr", "lib"], ["usr", "local"], ["usr", "local", "bin"],
   ["usr", "local", "sbin"], ["usr", "sbin"], ["usr", "share"], ["var"]]

/-- The files of a system that all programs may read. -/
def systemFiles : List (Location × String) :=
  [(["etc", "group"], "root:x:0:\n"), (["etc", "hosts"], "127.0.0.1 localhost\n"),
   (["etc", "passwd"], "root:x:0:0:root:/root:/bin/sh\n")]

/-- The programs of a system. -/
def systemPrograms : List String := ["[", "cat", "echo", "false", "printf", "sh", "test", "true"]

/-- The devices of a system. -/
def systemDevices : List (Location × Device) :=
  [(["dev", "null"], .null), (["dev", "zero"], .endless), (["dev", "random"], .endless),
   (["dev", "urandom"], .endless), (["dev", "full"], .full), (["dev", "tty"], .terminal),
   (["dev", "stdin"], .stream 0), (["dev", "stdout"], .stream 1), (["dev", "stderr"], .stream 2)] ++
    (List.range 10).map fun number => (["dev", "fd", toString number], .stream number)

/-- The working directory of a program that is started. -/
def workPlace : Location := ["tmp", "work"]

namespace FileTree

/-- A system with an empty working directory. -/
def system : FileTree :=
  let tree := (systemDirectories ++ [workPlace]).foldl (fun tree place =>
    tree.plant place .directory) { FileTree.empty with workingDirectory := workPlace }
  let tree := systemFiles.foldl (fun tree (place, text) =>
    tree.plant place (.file text.toUTF8.toList)) tree
  let tree := systemDevices.foldl (fun tree (place, device) =>
    tree.plant place (.device device)) tree
  systemPrograms.foldl (fun tree name =>
    (tree.plant ["bin", name] (.program name)).plant ["usr", "bin", name] (.program name)) tree

/-- Make a directory, if nothing stands there. -/
def makeDirectory (tree : FileTree) (place : Location) : FileTree :=
  if (tree.node? place).isSome then tree else tree.plant place .directory

/-- Go on from a place by one part of a path.  To leave a directory again it has to be there. -/
def goOn : FileTree × Location → String → FileTree × Location
  | (tree, place), part =>
    if part = "" ∨ part = "." then (tree, place)
    else if part = ".." then (tree.makeDirectory place, place.dropLast)
    else (tree, place ++ [part])

/-- Put a node at the place that the parts of a path name, seen from the working directory. -/
def plantHere (tree : FileTree) (parts : List String) (node : Node) : FileTree :=
  let (tree, place) := parts.foldl goOn (tree, tree.workingDirectory)
  tree.plant place node

end FileTree

end SpeechRom.Files
