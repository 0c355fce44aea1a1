import SpeechRom.Files.Basic
import SpeechRom.OrderedMap

/-!
# File trees

A small system of files, as a value: every directory and file under its
location, in the order in which a directory is enumerated, and the directory in
which the program works.  Paths are followed name by name, so a path through a
file or past the end of the tree fails for the reason a system would give.
There are no links, and everything may be read and written.
-/

namespace SpeechRom.Files

/-- The names that lead from the root to a place. -/
abbrev Location := List String

/-- What is read and written like a file and keeps nothing. -/
inductive Device where
  /-- Nothing is read from it, and what is written to it is gone. -/
  | null
  /-- Who reads it never comes to an end, and what is written to it is gone. -/
  | endless
  /-- Nothing can be written to it. -/
  | full
  /-- The terminal of a process that has none. -/
  | terminal
  /-- The stream of the process that opens it. -/
  | stream (number : Nat)
  deriving DecidableEq, Repr, Inhabited

/-- The number of streams that a process has from its start: input, output and errors. -/
def firstStreams : Nat := 3

/-- What is read from a device up to its end by a process that is given an input.  What has no end
does not fit into memory, and the streams that a process writes to give nothing back. -/
def Device.read (input : List UInt8) : Device → Except SystemError (List UInt8)
  | .null => .ok []
  | .endless | .full => .error .outOfMemory
  | .terminal => .error .noDevice
  | .stream 0 => .ok input
  | .stream number => .error (if number < firstStreams then .badStream else .notFound)

/-- Why a process cannot write content to a device, if it has no streams but those from its
start. -/
def Device.refusal? (device : Device) (content : List UInt8) : Option SystemError :=
  match device with
  | .null | .endless => none
  | .full => if content.isEmpty then none else some .noSpace
  | .terminal => some .noDevice
  | .stream number => if number < firstStreams then none else some .notFound

/-- What stands at a location. -/
inductive Node where
  | file (content : List UInt8)
  | directory
  | device (device : Device)
  /-- A program of the system, which is known by its name. -/
  | program (name : String)
  deriving DecidableEq, Repr, Inhabited

namespace Node

/-- What kind of thing the node is. -/
def kind : Node → Kind
  | .file _ | .program _ => .file
  | .directory => .directory
  | .device _ => .other

/-- Whether the node is a directory. -/
def isDirectory : Node → Bool
  | .directory => true
  | _ => false

/-- Whether the node is a regular file. -/
def isFile : Node → Bool
  | .file _ | .program _ => true
  | _ => false

/-- Whether the node is a device. -/
def isDevice : Node → Bool
  | .device _ => true
  | _ => false

/-- Whether the node can be run. -/
def isProgram : Node → Bool
  | .program _ => true
  | _ => false

/-- The bytes that stand for the code of a program.  They are no text. -/
def machineCode : List UInt8 := [0x7f, 0x45, 0x4c, 0x46, 0xff]

/-- The bytes that the node holds. -/
def content? : Node → Option (List UInt8)
  | .file content => some content
  | .program _ => some machineCode
  | .directory | .device _ => none

/-- What is read from the node by a process that is given an input. -/
def read (input : List UInt8) : Node → Except SystemError (List UInt8)
  | .directory => .error .isADirectory
  | .device source => source.read input
  | .file content => .ok content
  | .program _ => .ok machineCode

end Node

/-- Files and directories by location, the place to start from, and what is given as input. -/
structure FileTree where
  nodes : OrderedMap Location Node
  workingDirectory : Location
  input : List UInt8 := []
  deriving DecidableEq, Inhabited

/-! ## Paths -/

/-- The path of a location from the root. -/
def absolutePath (location : Location) : String := "/" ++ "/".intercalate location

/-- The longest name of a file, in bytes. -/
def maxNameSize : Nat := 255

/-- The longest path, in bytes. -/
def maxPathSize : Nat := 4095

namespace FileTree

/-- The tree with nothing in it. -/
def empty : FileTree := ⟨∅, [], []⟩

/-- What stands at a location; the root is a directory. -/
def node? (tree : FileTree) (location : Location) : Option Node :=
  if location.isEmpty then some .directory else tree.nodes.get? location

/-- Follow the parts of a path from a location that exists. -/
def follow (tree : FileTree) : Location → List String → Except SystemError Location
  | place, [] => .ok place
  | place, part :: rest =>
    if !((tree.node? place).any Node.isDirectory) then .error .notADirectory
    else if part = "" ∨ part = "." then tree.follow place rest
    else if part = ".." then tree.follow place.dropLast rest
    else if part.utf8ByteSize > maxNameSize then .error .nameTooLong
    else if (tree.node? (place ++ [part])).isSome then tree.follow (place ++ [part]) rest
    else .error .notFound

/-- Where the parts of a path start. -/
def startOf (tree : FileTree) (path : String) : Location :=
  if path.toList.head? == some '/' then [] else tree.workingDirectory

/-- Refuse a path that no system looks up. -/
def checkPath (path : String) : Except SystemError Unit :=
  if path.toList.contains '\x00' then .error .nulInPath
  else if path.isEmpty then .error .notFound
  else if path.utf8ByteSize > maxPathSize then .error .nameTooLong
  else .ok ()

/-- The location that a path leads to. -/
def locate (tree : FileTree) (path : String) : Except SystemError Location := do
  checkPath path
  tree.follow (tree.startOf path) (pathParts path)

/-- What a path leads to. -/
def look (tree : FileTree) (path : String) : Except SystemError Node := do
  let place ← tree.locate path
  match tree.node? place with
  | some node => .ok node
  | none => .error .notFound

/-! ## Reading -/

/-- The bytes of a file. -/
def readBytes (tree : FileTree) (path : String) : Except SystemError (List UInt8) := do
  (← tree.look path).read tree.input

/-- The names and nodes in a directory, in the order of enumeration. -/
def children (tree : FileTree) (place : Location) : List (String × Node) :=
  tree.nodes.entries.filterMap fun (location, node) =>
    match location.getLast? with
    | some name => if location.dropLast = place then some (name, node) else none
    | none => none

/-- The children of a place have different names. -/
theorem pairwise_children (tree : FileTree) (place : Location) :
    (tree.children place).Pairwise fun child other => child.1 ≠ other.1 := by
  have hdistinct : tree.nodes.entries.Pairwise fun entry other => entry.1 ≠ other.1 :=
    List.pairwise_map.mp tree.nodes.distinct
  refine List.pairwise_filterMap.mpr (hdistinct.imp ?_)
  intro entry other hne child hchild twin htwin heq
  refine hne ?_
  dsimp only at hchild htwin
  split at hchild
  · rename_i name hname
    split at htwin
    · rename_i last hlast
      rw [Option.ite_none_right_eq_some, Option.some.injEq] at hchild htwin
      obtain ⟨hplace, rfl⟩ := hchild
      obtain ⟨hother, rfl⟩ := htwin
      obtain rfl : name = last := heq
      -- both stand at the place with the name behind it
      obtain ⟨front, hentry⟩ := List.getLast?_eq_some_iff.mp hname
      obtain ⟨above, hsecond⟩ := List.getLast?_eq_some_iff.mp hlast
      rw [hentry, List.dropLast_concat] at hplace
      rw [hsecond, List.dropLast_concat] at hother
      rw [hentry, hsecond, hplace, hother]
    · cases htwin
  · cases hchild

/-- The names in a directory. -/
def listing (tree : FileTree) (place : Location) : Listing where
  names := (tree.children place).map fun child => Text.utf8 child.1
  distinct := by
    refine List.pairwise_map.mpr ((tree.pairwise_children place).imp ?_)
    exact fun hne heq => hne (Text.utf8_inj.mp heq)
  failure := none

/-- The entries of a directory. -/
def enumerate (tree : FileTree) (path : String) : Except SystemError Listing := do
  let place ← tree.locate path
  if (tree.node? place).any Node.isDirectory then return tree.listing place
  else throw .notADirectory

/-! ## Writing -/

/-- The last part of a path and the parts before it, slashes at the end aside; the root has no
last part. -/
def splitLast (path : String) : Option (List String × String) :=
  let parts := ((pathParts path).reverse.dropWhile String.isEmpty).reverse
  parts.getLast?.map (parts.dropLast, ·)

/-- Whether a path can only name a directory: it ends in a slash or in a part of dots. -/
def namesDirectory (path : String) : Bool := ["", ".", ".."].contains (fileName path)

/-- Put content at a location; a device keeps nothing. -/
def put (tree : FileTree) (place : Location) (content : List UInt8) :
    Except SystemError FileTree :=
  match tree.node? place with
  | some (.device device) =>
    match device.refusal? content with
    | some reason => .error reason
    | none => .ok tree
  | _ => .ok { tree with nodes := tree.nodes.insert place (.file content) }

/-- Write a file: an existing one gets new content, a new one joins an existing directory. -/
def write (tree : FileTree) (path : String) (content : List UInt8) :
    Except SystemError FileTree := do
  checkPath path
  match splitLast path with
  | none => .error .isADirectory
  | some (parts, name) =>
    let place ← tree.follow (tree.startOf path) parts
    if !((tree.node? place).any Node.isDirectory) then .error .notADirectory
    else if namesDirectory path then .error .isADirectory
    else if name.utf8ByteSize > maxNameSize then .error .nameTooLong
    else if (tree.node? (place ++ [name])).any Node.isDirectory then .error .isADirectory
    else tree.put (place ++ [name]) content

/-- The stream that a path leads to. -/
def streamAt? (tree : FileTree) (path : String) : Option Nat :=
  match tree.look path with
  | .ok (.device (.stream number)) => some number
  | _ => none

instance : FileSystem FileTree where
  kind tree path := (tree.look path).map Node.kind
  enumerate := enumerate
  read := readBytes
  write path content := do
    let after ← Attempt.ofExcept ((← get).write path content)
    set after
  streamAt? := streamAt?

/-! ## Planting -/

/-- Put a node at a location and make the directories above it. -/
def plant (tree : FileTree) (location : Location) (node : Node) : FileTree :=
  let above := (List.range location.length).map location.take
  let nodes := above.foldl (fun nodes place =>
    if place.isEmpty || nodes.contains place then nodes else nodes.insert place .directory)
    tree.nodes
  { tree with nodes := nodes.insert location node }

end FileTree

end SpeechRom.Files
