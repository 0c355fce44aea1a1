import SpeechRom.Files.System
import SpeechRom.Shell.Bytes

/-!
# Files and streams of a process

A process sees a tree of files and a table of numbered streams.  A stream leads
to a channel, and several streams may lead to the same one: what is written to
one of them comes after what was written to the other.  Processes run one after
another, so a pipe is a channel that keeps what waits to be read.
-/

namespace SpeechRom.Shell

open Files

/-- What a stream leads to. -/
inductive Channel where
  | device (device : Device) (readable writable : Bool)
  | directory
  /-- A file at a place, read and written from an offset, or written at its end. -/
  | file (place : Location) (offset : Nat) (appends readable writable : Bool)
  /-- What waits to be read: the front, and later pieces, newest first.  If there is a bound,
  `room` is the number of pieces that may still be added before the reader is started. -/
  | pipe (front : Bytes) (later : List Bytes) (room : Option Nat)
  deriving Inhabited

/-- The files and streams of a process. -/
structure Machine where
  files : FileTree
  channels : Array Channel
  /-- The streams that are open, with the channels they lead to. -/
  streams : List (Nat × Nat)
  /-- The number of the process that was started last. -/
  lastProcess : Nat
  /-- Signals that were sent to processes and not yet received. -/
  signals : List (Nat × Nat)
  deriving Inhabited

/-- Something done on the files and streams of a process. -/
abbrev Work (α : Type) := StateM Machine α

namespace Machine

/-! ## Streams -/

/-- The channel that a stream leads to. -/
def channelAt? (machine : Machine) (stream : Nat) : Option (Nat × Channel) := do
  let index ← machine.streams.lookup stream
  return (index, ← machine.channels[index]?)

/-- A machine with one more channel, and the number of that channel. -/
def addChannel (machine : Machine) (channel : Channel) : Nat × Machine :=
  (machine.channels.size, { machine with channels := machine.channels.push channel })

/-- Let a stream lead to a channel, or close it. -/
def setStream (machine : Machine) (stream : Nat) (channel : Option Nat) : Machine :=
  let others := machine.streams.filter fun entry => entry.1 ≠ stream
  { machine with streams := match channel with
    | some index => (stream, index) :: others
    | none => others }

/-- Replace a channel. -/
def setChannel (machine : Machine) (index : Nat) (channel : Channel) : Machine :=
  { machine with channels := machine.channels.setIfInBounds index channel }

/-- The bytes of the file at a place. -/
def contentAt (machine : Machine) (place : Location) : Bytes :=
  ((machine.files.node? place).bind Node.content?).getD []

/-! ## Writing -/

/-- Content with bytes put in at an offset. -/
def splice (content : Bytes) (offset : Nat) (bytes : Bytes) : Bytes :=
  let front := content.take offset
  front ++ List.replicate (offset - front.length) 0 ++ bytes ++ content.drop (offset + bytes.length)

/-- Write to a stream. -/
def write (stream : Nat) (bytes : Bytes) : Work (Except SystemError Unit) := fun machine =>
  match machine.channelAt? stream with
  | none => (.error .badStream, machine)
  | some (_, .device device _ writable) =>
    let refusal := if writable then device.refusal? bytes else some .badStream
    (match refusal with
      | some reason => .error reason
      | none => .ok (), machine)
  | some (_, .directory) => (.error .badStream, machine)
  | some (index, .pipe front later room) =>
    if bytes.isEmpty then (.ok (), machine)
    else if room = some 0 then (.error .brokenPipe, machine)
    else (.ok (), machine.setChannel index (.pipe front (bytes :: later) (room.map Nat.pred)))
  | some (index, .file place offset appends readable writable) =>
    if !writable then (.error .badStream, machine)
    else if bytes.isEmpty then (.ok (), machine)
    else
      let content := machine.contentAt place
      let start := if appends then content.length else offset
      match machine.files.put place (splice content start bytes) with
      | .error reason => (.error reason, machine)
      | .ok files =>
        (.ok (), { machine with files }.setChannel index
          (.file place (start + bytes.length) appends readable writable))

/-! ## Reading -/

/-- Take from a stream what a splitting of its bytes gives: the part that is taken, and the rest
that stays. -/
def takeBy (split : Bytes → Bytes × Bytes) (stream : Nat) : Work (Except SystemError Bytes) :=
  fun machine =>
    match machine.channelAt? stream with
    | none => (.error .badStream, machine)
    | some (_, .device _ readable _) =>
      (if readable then .ok [] else .error .badStream, machine)
    | some (_, .directory) => (.error .isADirectory, machine)
    | some (index, .pipe front later room) =>
      let (taken, rest) := split (front ++ later.reverse.flatten)
      (.ok taken, machine.setChannel index (.pipe rest [] room))
    | some (index, .file place offset appends readable writable) =>
      if !readable then (.error .badStream, machine)
      else
        let (taken, _) := split ((machine.contentAt place).drop offset)
        (.ok taken, machine.setChannel index
          (.file place (offset + taken.length) appends readable writable))

/-- Take all that a stream holds. -/
def takeAll (stream : Nat) : Work (Except SystemError Bytes) :=
  takeBy (fun bytes => (bytes, [])) stream

/-- A text cut after its first line end. -/
def splitLine (bytes : Bytes) : Bytes × Bytes :=
  let line := bytes.takeWhile (· != 0x0a)
  bytes.splitAt (line.length + 1)

/-- Take a line of a stream, with its end if it has one. -/
def takeLine (stream : Nat) : Work (Except SystemError Bytes) := takeBy splitLine stream

/-! ## Opening files -/

/-- The use for which a file is opened. -/
inductive Opening where
  | reading
  /-- From an empty file. -/
  | writing
  | appending
  | updating
  deriving DecidableEq, Repr

/-- Open a path that leads nowhere yet or to something that is no device. -/
def openFile (path : String) (use : Opening) : Work (Except SystemError Nat) := fun machine =>
  let create := fun (content : Bytes) (appends readable : Bool) =>
    match machine.files.write path content with
    | .error reason => (.error reason, machine)
    | .ok files =>
      match files.locate path with
      | .error reason => (.error reason, machine)
      | .ok place =>
        let (index, machine) := { machine with files }.addChannel
          (.file place 0 appends readable true)
        (.ok index, machine)
  let kept := (machine.files.readBytes path).toOption.getD []
  match use with
  | .writing => create [] false false
  | .appending => create kept true false
  | .updating => create kept false true
  | .reading =>
    match machine.files.locate path with
    | .error reason => (.error reason, machine)
    | .ok place =>
      let channel := match machine.files.node? place with
        | some .directory => .directory
        | _ => .file place 0 false true false
      let (index, machine) := machine.addChannel channel
      (.ok index, machine)

/-- Open a device that is no stream. -/
def openDevice (device : Device) (use : Opening) : Work (Except SystemError Nat) := fun machine =>
  if device = .terminal then (.error .noDevice, machine)
  else
    let (index, machine) := machine.addChannel
      (.device device (use ≠ .writing && use ≠ .appending) (use ≠ .reading))
    (.ok index, machine)

/-- Open a path: the channel that a stream may lead to.  The name of a stream opens once more what
the stream leads to. -/
def openPath (path : String) (use : Opening) : Work (Except SystemError Nat) := fun machine =>
  match machine.files.look path with
  | .ok (.device (.stream number)) =>
    match machine.channelAt? number with
    | none => (.error .notFound, machine)
    | some (_, .device device _ _) => openDevice device use machine
    | some (_, .file place _ _ _ _) => openFile (absolutePath place) use machine
    | some (index, .directory) =>
      (if use = .reading then .ok index else .error .isADirectory, machine)
    | some (index, .pipe _ _ _) => (.ok index, machine)
  | .ok (.device device) => openDevice device use machine
  | _ => openFile path use machine

/-! ## Looking at files -/

/-- What a process sees under a path. -/
inductive Sight where
  | node (node : Node)
  | pipe

/-- What a process sees under a path; the name of a stream shows what the stream leads to. -/
def look (machine : Machine) (path : String) : Except SystemError Sight := do
  match ← machine.files.look path with
  | .device (.stream number) =>
    match machine.channelAt? number with
    | none => .error .notFound
    | some (_, .device device _ _) => .ok (.node (.device device))
    | some (_, .file place _ _ _ _) => .ok (.node ((machine.files.node? place).getD (.file [])))
    | some (_, .directory) => .ok (.node .directory)
    | some (_, .pipe _ _ _) => .ok .pipe
  | node => .ok (.node node)

/-! ## A process of its own -/

/-- All that was written to a channel and not yet taken. -/
def drained (machine : Machine) (index : Nat) : Bytes :=
  match machine.channels[index]? with
  | some (.pipe front later _) => front ++ later.reverse.flatten
  | _ => []

/-- A machine after a process that was started on it has ended: the streams and the working
directory of the process end with it, and so do the channels that it has opened. -/
def afterProcess (before after : Machine) : Machine :=
  { after with
    files := { after.files with workingDirectory := before.files.workingDirectory }
    streams := before.streams
    channels := after.channels.take before.channels.size }

end Machine

end SpeechRom.Shell
