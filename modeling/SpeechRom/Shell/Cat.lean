import SpeechRom.Shell.Complaint

/-!
# The program `cat`

Files and the input, one after another, to the output.  Options number the
lines, mark their ends, leave out blank lines or make letters visible that have
no form of their own.
-/

namespace SpeechRom.Shell

open Files

namespace Cat

/-! ## Options -/

/-- How lines are shown. -/
structure Style where
  numbers : Bool
  /-- Whether blank lines go without numbers. -/
  filledOnly : Bool
  /-- Whether a row of blank lines becomes one. -/
  squeeze : Bool
  ends : Bool
  tabs : Bool
  /-- Whether all other letters without a form are shown. -/
  codes : Bool
  deriving DecidableEq, Repr

/-- Lines as they are. -/
def Style.bare : Style := ⟨false, false, false, false, false, false⟩

/-- The style with an option. -/
def Style.with? (style : Style) : Char → Option Style
  | 'A' => some { style with codes := true, ends := true, tabs := true }
  | 'b' => some { style with numbers := true, filledOnly := true }
  | 'e' => some { style with codes := true, ends := true }
  | 'E' => some { style with ends := true }
  | 'n' => some { style with numbers := true }
  | 's' => some { style with squeeze := true }
  | 't' => some { style with codes := true, tabs := true }
  | 'T' => some { style with tabs := true }
  | 'u' => some style
  | 'v' => some { style with codes := true }
  | _ => none

/-- The long names of options. -/
def longNames : List (String × Char) :=
  [("number-nonblank", 'b'), ("number", 'n'), ("squeeze-blank", 's'), ("show-nonprinting", 'v'),
   ("show-ends", 'E'), ("show-tabs", 'T'), ("show-all", 'A')]

/-- The option that a long name means, which may be cut as long as it is the only one. -/
def longOption (text : Bytes) : Except Bytes Char :=
  let quoted := fun (name : Bytes) => utf8 "'--" ++ name ++ utf8 "'"
  let name := text.takeWhile (· != 0x3d)
  let candidates := longNames.filter fun entry => name.isPrefixOf (utf8 entry.1)
  let exact := candidates.filter fun entry => utf8 entry.1 = name
  match if exact.isEmpty then candidates else exact with
  | [] => .error (utf8 "unrecognized option " ++ quoted text)
  | [(full, option)] =>
    if name.length < text.length then
      .error (utf8 "option " ++ quoted (utf8 full) ++ utf8 " doesn't allow an argument")
    else .ok option
  | several =>
    .error (utf8 "option " ++ quoted text ++ utf8 " is ambiguous; possibilities:" ++
      several.flatMap fun entry => 0x20 :: quoted (utf8 entry.1))

/-- The style with the options of a group of letters. -/
def shortOptions (style : Style) (letters : Bytes) : Except Bytes Style :=
  letters.foldlM (fun style letter =>
    match style.with? (Char.ofNat letter.toNat) with
    | some style => .ok style
    | none => .error (utf8 "invalid option -- '" ++ [letter] ++ utf8 "'")) style

/-- The style that arguments ask for, and the paths among them. -/
def readArguments : List Bytes → Style → Except Bytes (Style × List Bytes)
  | [], style => .ok (style, [])
  | argument :: rest, style => do
    match argument with
    | [0x2d, 0x2d] => return (style, rest)
    | 0x2d :: 0x2d :: name =>
      let option ← longOption name
      readArguments rest ((style.with? option).getD style)
    | 0x2d :: letter :: letters => readArguments rest (← shortOptions style (letter :: letters))
    | path =>
      let (style, paths) ← readArguments rest style
      return (style, path :: paths)

/-! ## Lines -/

/-- A place in the text that is shown. -/
structure Position where
  /-- The number of the last line. -/
  line : Nat
  /-- The number of line ends just passed; nothing within a line. -/
  ends : Option Nat
  /-- Whether a carriage return was passed that is shown only in front of a line end. -/
  held : Bool

/-- A letter made visible. -/
def visible (byte : UInt8) : Bytes :=
  let plain := fun (byte : UInt8) =>
    if byte < 0x20 then [0x5e, byte + 0x40] else if byte = 0x7f then [0x5e, 0x3f] else [byte]
  if byte < 0x80 then plain byte else [0x4d, 0x2d] ++ plain (byte - 0x80)

/-- A letter within a line. -/
def shownLetter (style : Style) (byte : UInt8) : Bytes :=
  if byte = 0x09 then if style.tabs then [0x5e, 0x49] else [byte]
  else if style.codes then visible byte
  else [byte]

/-- The number in front of a line. -/
def numberText (n : Nat) : Bytes := bytesOf ((Nat.toDigits 10 n).leftpad 6 ' ') ++ [0x09]

/-- Show a letter. -/
def display (style : Style) (position : Position) (byte : UInt8) : Position × Bytes :=
  if byte = 0x0a then
    let ends := match position.ends with
      | none => 0
      | some n => min 2 (n + 1)
    if style.squeeze && ends = 2 then ({ position with ends := some 2 }, [])
    else
      let numbered := style.numbers && !style.filledOnly && 0 < ends
      let line := if numbered then position.line + 1 else position.line
      (⟨line, some ends, false⟩,
        (if numbered then numberText line else []) ++
          (if position.held then utf8 "^M" else []) ++
          (if style.ends then [0x24] else []) ++ [0x0a])
  else
    let numbered := style.numbers && position.ends.isSome
    let line := if numbered then position.line + 1 else position.line
    let held := byte = 0x0d && style.ends && !style.codes
    (⟨line, none, held⟩,
      (if position.held then [0x0d] else []) ++ (if numbered then numberText line else []) ++
        if held then [] else shownLetter style byte)

/-- Show a text. -/
def displayAll (style : Style) (position : Position) (text : Bytes) : Position × Bytes :=
  let (position, shown) := text.foldl (fun (position, shown) byte =>
    let (position, more) := display style position byte
    (position, more.reverse ++ shown)) (position, [])
  (position, shown.reverse)

/-! ## Files -/

/-- Whether a channel reads the file that another one writes, from in front of where it writes. -/
def chases (machine : Machine) : Channel → Channel → Bool
  | .file source offset _ _ _, .file target place appends _ _ =>
    source = target && offset < if appends then (machine.contentAt target).length else place
  | _, _ => false

/-- Take what is left in a channel, in the place of the input. -/
def takeFrom (channel : Nat) : Work (Except SystemError Bytes) := fun machine =>
  let (content, after) := Machine.takeAll 0 (machine.setStream 0 (some channel))
  (content, { after with streams := machine.streams })

/-- The channel that a path is read from; a hyphen is the input. -/
def channelOf (path : Bytes) : Work (Except SystemError Nat) := do
  if path = [0x2d] then
    match (← get).streams.lookup 0 with
    | some channel => return .ok channel
    | none => return .error .badStream
  else Machine.openPath (pathOf path) .reading

/-- Show the file at a path.  The answer is where the text goes on, and whether all went well; the
program ends if it cannot write. -/
def displayFile (name : Bytes) (style : Style) (position : Position) (path : Bytes) :
    Work (Except Status (Position × Bool)) := do
  let refused := fun (reason : String) => do
    complainAs name (mention path ++ utf8 (": " ++ reason))
    return .ok (position, false)
  match ← channelOf path with
  | .error reason => refused (refusal reason)
  | .ok channel =>
    let machine ← get
    let target := (machine.channelAt? 1).map (·.2)
    if (machine.channels[channel]?.bind fun source =>
        target.map (chases machine source)).getD false then
      refused "input file is output file"
    else
      match ← takeFrom channel with
      | .error reason => refused (refusal reason)
      | .ok content =>
        let (position, shown) :=
          if style = .bare then (position, content) else displayAll style position content
        match ← Machine.write 1 shown with
        | .ok () => return .ok (position, true)
        | .error reason => return .error (← endUnwritten name reason)

/-- Show the files at paths, one after another. -/
def displayFiles (name : Bytes) (style : Style) (position : Position) (fine : Bool) :
    List Bytes → Work (Except Status (Position × Bool))
  | [] => return .ok (position, fine)
  | path :: rest => do
    match ← displayFile name style position path with
    | .error status => return .error status
    | .ok (position, shown) => displayFiles name style position (fine && shown) rest

end Cat

/-- Run `cat` under a name. -/
def cat (name : Bytes) (arguments : List Bytes) : Work Status := do
  match Cat.readArguments arguments .bare with
  | .error complaint =>
    complainAs name complaint
    pointToHelp name
    return .exited 1
  | .ok (style, paths) =>
    let machine ← get
    if (machine.streams.lookup 1).isNone then
      complainAs name (utf8 "standard output: Bad file descriptor")
      return .exited 1
    let paths := if paths.isEmpty then [[0x2d]] else paths
    match ← Cat.displayFiles name style ⟨0, some 0, false⟩ true paths with
    | .error status => return status
    | .ok (position, fine) =>
      if position.held then
        let _ ← Machine.write 1 [0x0d]
      if paths.contains [0x2d] && (machine.streams.lookup 0).isNone then
        complainAs name (utf8 "closing standard input: Bad file descriptor")
        return .exited 1
      return .exited (if fine then 0 else 1)

end SpeechRom.Shell
