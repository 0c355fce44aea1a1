import SpeechRom.Shell.Builtin.Basic
import SpeechRom.Shell.Field

/-!
# Commands that read into variables
-/

namespace SpeechRom.Shell

/-! ## Lines of the input -/

/-- A line while it is read. -/
structure LineParts where
  /-- The segments that are done, last first. -/
  segments : List Segment
  /-- The segment begun, last mark first. -/
  current : List Mark

namespace LineParts

/-- End the segment begun. -/
def cut (parts : LineParts) : LineParts :=
  ⟨⟨.atSeparators, parts.current.reverse⟩ :: parts.segments, []⟩

/-- Take the bytes of a line up to its end; a backslash protects a letter from being split, and
joins lines.  The answer tells how it ended: with an end of line, at one that joins, or neither. -/
def take (raw : Bool) : LineParts → Bytes → LineParts × Option Bool
  | parts, [] => (parts, none)
  | parts, 0x0a :: _ => (parts, some true)
  | parts, 0x5c :: rest =>
    if raw then take raw ⟨parts.segments, .letter 0x5c false :: parts.current⟩ rest
    else
      match rest with
      | [] => (parts, none)
      | 0x0a :: _ => (parts.cut, some false)
      | byte :: rest =>
        let parts := parts.cut
        take raw ⟨⟨.fixed, [.letter byte true]⟩ :: parts.segments, []⟩ rest
  | parts, byte :: rest => take raw ⟨parts.segments, .letter byte false :: parts.current⟩ rest

end LineParts

/-- Read a line, with those that are joined to it; the answer tells whether it had an end. -/
def readLine (raw : Bool) : (fuel : Nat) → LineParts → Step (LineParts × Bool)
  | 0, parts => return (parts, false)
  | fuel + 1, parts => do
    match ← work (Machine.takeLine 0) with
    | .error _ => return (parts, false)
    | .ok line =>
      match parts.take raw (line.filter (· != 0)) with
      | (parts, some true) => return (parts, true)
      | (parts, some false) => readLine raw fuel parts
      | (parts, none) => return (parts, false)

/-- Give fields to variables by their order; variables that are left become empty. -/
def assignFields : List Bytes → List Bytes → Step Unit
  | [], _ => return ()
  | word :: words, fields => do
    assign (← checkName word) (fields.head?.getD [])
    assignFields words (fields.drop 1)

/-- The number of lines that may be joined. -/
def joinedLines : Nat := 1000000

/-- Read a line into variables, split at the separators; the last one takes what is left. -/
def readCommand : Builtin := fun arguments => do
  let (options, words) ← readOptions [('p', true), ('r', false)] arguments
  if words.isEmpty then fail (utf8 "arg count")
  let (parts, complete) ← readLine (options.any (·.1 = 'r')) joinedLines ⟨[], []⟩
  let separators := (← get).separators?.getD blankBytes
  let fields := fieldsOf separators (some words.length) parts.cut.segments.reverse
  assignFields words (fields.map bytesOfMarks)
  return if complete then 0 else 1

/-! ## Options of a script -/

/-- What is found at the place of the reader of options. -/
inductive FoundOption where
  | finished
  /-- A letter, and what comes behind it in its argument. -/
  | letter (letter : UInt8) (rest : Bytes)

/-- Look at the next option: within an argument that is begun, or in the next one.  The answer
holds the number of the next argument. -/
def findOption (arguments : List Bytes) (place : OptionPlace) : FoundOption × Nat :=
  let begun := match place.offset with
    | some offset =>
      if place.index ≤ 1 then [] else ((arguments[place.index - 2]?).getD []).drop offset
    | none => []
  match begun with
  | letter :: rest => (.letter letter rest, place.index)
  | [] =>
    match arguments[place.index - 1]? with
    | some [0x2d, 0x2d] => (.finished, place.index + 1)
    | some (0x2d :: letter :: rest) => (.letter letter rest, place.index + 1)
    | _ => (.finished, place.index)

/-- Whether a text of options knows a letter, and whether a text belongs to that option. -/
def optionKind? (letter : UInt8) : Bytes → Option Bool
  | [] => none
  | known :: 0x3a :: rest => if known = letter then some true else optionKind? letter rest
  | known :: rest => if known = letter then some false else optionKind? letter rest

/-- Forget the text of an option. -/
def clearOptionText : Step Unit := changeBinding "OPTARG" fun _ => none

/-- Complain about an option that was given to the script. -/
def complainBare (text : Bytes) : Step Unit := do
  let _ ← write 2 (text ++ [0x0a])

/-- Note the place of the reader of options, and what it has found. -/
def noteOption (variableName : Bytes) (found : UInt8) (place : OptionPlace) : Step Unit := do
  assign "OPTIND" (decimalText place.index)
  assign (← checkName variableName) [found]
  modify fun session => { session with optionPlace := place }

/-- Read the next option of arguments. -/
def nextOption (known variableName : Bytes) (arguments : List Bytes) (place : OptionPlace) :
    Step Nat := do
  let silent := known.head? = some 0x3a
  match findOption arguments place with
  | (.finished, next) =>
    noteOption variableName 0x3f ⟨next, none⟩
    return 1
  | (.letter letter rest, next) =>
    let size := ((arguments[next - 2]?).getD []).length
    let after : OptionPlace := ⟨next, some (size - rest.length)⟩
    match optionKind? letter known with
    | none =>
      if silent then assign "OPTARG" [letter]
      else
        complainBare (utf8 "Illegal option -" ++ [letter])
        clearOptionText
      noteOption variableName 0x3f after
    | some false =>
      assign "OPTARG" []
      noteOption variableName letter after
    | some true =>
      match rest, arguments[next - 1]? with
      | [], none =>
        if silent then assign "OPTARG" [letter]
        else
          complainBare (utf8 "No arg for -" ++ [letter] ++ utf8 " option")
          clearOptionText
        noteOption variableName (if silent then 0x3a else 0x3f) after
      | [], some text =>
        assign "OPTARG" text
        noteOption variableName letter ⟨next + 1, none⟩
      | rest, _ =>
        assign "OPTARG" rest
        noteOption variableName letter ⟨next, none⟩
    return 0

/-- Read the next option of the script or of the arguments that are given. -/
def getoptsCommand : Builtin := fun words => do
  match words with
  | known :: variableName :: given =>
    let session ← get
    let arguments := if given.isEmpty then session.arguments else given
    let place := if session.optionPlace.index > arguments.length + 1 then ⟨1, none⟩
      else session.optionPlace
    nextOption known variableName arguments place
  | _ => fail (utf8 "Usage: getopts optstring var [arg...]")

end SpeechRom.Shell
