import SpeechRom.Shell.Pattern

/-!
# Fields

What the expansion of a word gives is split into fields.  Segments that come
from expansions outside of quotes are split at separators, and a row of
arguments is split between them; all else stays together.  Blanks among the
separators count as one, and as none at the start and the end.
-/

namespace SpeechRom.Shell

/-- A letter or a mark of an expanded word. -/
inductive Mark where
  | letter (byte : UInt8) (quoted : Bool)
  /-- A quotation mark, which makes a field even of nothing. -/
  | quote
  /-- The end of an argument in a row of them. -/
  | separator
  deriving DecidableEq, Repr

/-- How a segment is split. -/
inductive Splitting where
  | fixed
  | atSeparators
  | atArguments
  deriving DecidableEq, Repr

/-- A part of an expanded word. -/
structure Segment where
  splitting : Splitting
  marks : List Mark
  deriving Repr

/-- The marks of text. -/
def marksOf (quoted : Bool) (bytes : Bytes) : List Mark := bytes.map (Mark.letter · quoted)

/-- The bytes of marks. -/
def bytesOfMarks (marks : List Mark) : Bytes :=
  marks.filterMap fun
    | .letter byte _ => some byte
    | _ => none

/-- The letters of marks, with what quotes protect. -/
def markedBytes (marks : List Mark) : List MarkedByte :=
  marks.filterMap fun
    | .letter byte quoted => some (byte, quoted)
    | _ => none

/-- The text of segments that are not split. -/
def textOf (segments : List Segment) : Bytes := bytesOfMarks (segments.flatMap Segment.marks)

/-- The pattern of segments. -/
def patternOf (segments : List Segment) : List PatternItem :=
  Pattern.ofMarked (markedBytes (segments.flatMap Segment.marks))

/-- Whether a pattern matches marks up to the end of the first argument among them. -/
def matchesMarks (pattern : List PatternItem) (marks : List Mark) : Bool :=
  Pattern.accepts pattern (bytesOfMarks (marks.takeWhile (· ≠ .separator)))

/-- Remove what a pattern matches at one end of marks.  The longest match at the end is looked for
in the first argument alone, and takes all arguments after that with it. -/
def removeMarks (pattern : List PatternItem) (front longest : Bool) (marks : List Mark) :
    List Mark :=
  if front || !longest then Pattern.remove (matchesMarks pattern) front longest marks
  else
    let first := marks.takeWhile (· ≠ .separator)
    let left := Pattern.remove (matchesMarks pattern) false true first
    if left.length < first.length || Pattern.accepts pattern [] then left else marks

/-- Whether a byte is a blank: space, tab or line feed. -/
def isBlankByte (byte : UInt8) : Bool := byte == 0x20 || byte == 0x09 || byte == 0x0a

/-- The blanks, which separate fields where nothing else is said. -/
def blankBytes : Bytes := [0x20, 0x09, 0x0a]

/-- Fields while they are gathered. -/
structure Gathering where
  /-- The fields that are done, last first. -/
  fields : List (List Mark)
  /-- The field begun, last mark first. -/
  current : List Mark
  /-- Whether the last field has ended at a blank. -/
  afterBlank : Bool
  /-- Whether the last segment was a row of arguments. -/
  afterArguments : Bool
  /-- How many fields may still be begun, if that is limited; the last one takes all that is
  left. -/
  left : Option Nat
  /-- The length to which the last field is cut at the end. -/
  cut : Option Nat

namespace Gathering

/-- No fields yet. -/
def start (limit : Option Nat) : Gathering := ⟨[], [], false, false, limit, none⟩

/-- Take a mark into the field begun. -/
def take (gathering : Gathering) (mark : Mark) : Gathering :=
  { gathering with current := mark :: gathering.current, afterBlank := false }

/-- End a field at a separator. -/
def close (gathering : Gathering) (mark : Mark) (blank : Bool) : Gathering :=
  if gathering.current.isEmpty && blank then { gathering with afterBlank := false }
  else
    match gathering.left with
    | some 1 =>
      { gathering with left := some 0, cut := some gathering.current.length,
                       current := mark :: gathering.current, afterBlank := blank }
    | left =>
      { gathering with fields := gathering.current.reverse :: gathering.fields, current := [],
                       left := left.map (· - 1), afterBlank := blank }

/-- Take a mark into the last field, which separators do not end; those at its end are cut. -/
def takeLast (gathering : Gathering) (mark : Mark) (separates blank : Bool) : Gathering :=
  let longer := { gathering with current := mark :: gathering.current }
  if blank then { longer with cut := some (gathering.cut.getD gathering.current.length) }
  else
    { longer with afterBlank := false
                  cut := if separates && gathering.afterBlank then gathering.cut else none }

/-- Take a mark of a segment that is split. -/
def step (separators : Bytes) (arguments joined : Bool) (gathering : Gathering) (mark : Mark) :
    Gathering :=
  let (separates, blank) := match mark with
    | .separator => (true, true)
    | .letter byte _ =>
      let separates := !arguments && separators.contains byte
      (separates, separates && isBlankByte byte)
    | .quote => (false, false)
  if gathering.left = some 0 then gathering.takeLast mark separates blank
  else if gathering.afterBlank then
    if blank then gathering
    else if separates then { gathering with afterBlank := false }
    else gathering.take mark
  else if separates then
    let blank := blank && !joined && !arguments
    gathering.close mark blank
  else gathering.take mark

/-- Take a segment. -/
def add (separators : Bytes) (gathering : Gathering) (segment : Segment) : Gathering :=
  match segment.splitting with
  | .fixed =>
    if segment.marks.isEmpty then gathering
    else { gathering with current := segment.marks.reverse ++ gathering.current }
  | splitting =>
    let arguments := splitting = .atArguments
    let joined := gathering.afterArguments
    let gathering := { gathering with afterBlank := false, afterArguments := arguments }
    segment.marks.foldl (step separators arguments joined) gathering

/-- The fields that were gathered. -/
def finish (gathering : Gathering) : List (List Mark) :=
  let current := match gathering.cut with
    | some size => gathering.current.reverse.take size
    | none => gathering.current.reverse
  if current.isEmpty && !gathering.afterArguments then gathering.fields.reverse
  else (current :: gathering.fields).reverse

end Gathering

/-- The fields that segments are split into, no more than a limit. -/
def fieldsOf (separators : Bytes) (limit : Option Nat) (segments : List Segment) :
    List (List Mark) :=
  (segments.foldl (Gathering.add separators) (.start limit)).finish

end SpeechRom.Shell
