import SpeechRom.Shell.Arithmetic
import SpeechRom.Shell.Field
import SpeechRom.Shell.Glob
import SpeechRom.Shell.Session

/-!
# Expansion

How words become text and fields: parameters, substitutions and arithmetic
expressions give their values, and quotes decide what is split and which
letters of a pattern stand for themselves.
-/

namespace SpeechRom.Shell

/-- How a script within a word is run: the answer is what it has written. -/
abbrev Substitute := Script → Step Bytes

/-- What the surroundings of a word ask of its expansion. -/
structure Manner where
  /-- Whether the result is split into fields. -/
  split : Bool
  /-- Whether the word stands between quotes. -/
  quoted : Bool
  /-- Whether the word stands behind the operator of a parameter. -/
  operand : Bool
  /-- Whether a tilde counts after each colon too. -/
  assigned : Bool

/-- A word whose fields become arguments. -/
def Manner.fields : Manner := ⟨true, false, false, false⟩

/-- A word that becomes one text. -/
def Manner.text : Manner := ⟨false, false, false, false⟩

/-- The value of an assignment. -/
def Manner.value : Manner := ⟨false, false, false, true⟩

/-- The text of a document. -/
def Manner.document : Manner := ⟨false, true, false, false⟩

/-! ## Parameters -/

/-- The letters of the options that are set, the last option first. -/
def Session.optionLetters (session : Session) : Bytes :=
  bytesOf ((optionNames.map (·.1)).reverse.filter fun letter => ' ' < letter && session.has letter)

/-- The value of a parameter that is no row of arguments. -/
def Session.value? (session : Session) (name : String) : Option Bytes :=
  match name with
  | "#" => some (decimalText session.arguments.length)
  | "?" => some (decimalText session.status)
  | "$" => some (decimalText session.process)
  | "!" => session.background.map decimalText
  | "-" => some session.optionLetters
  | name =>
    if name.toList.all Char.isDigit then
      match digitsValue 10 name.toList with
      | 0 => some session.name
      | position + 1 => session.arguments[position]?
    else session.contentOf? name

/-- What stands between the arguments of a row. -/
def Session.rowSeparator (session : Session) (name : String) (split quoted : Bool) : List Mark :=
  if split && (name = "@" || !quoted) then
    if quoted || session.separators?.isSome then [.separator] else [.letter 0x20 false]
  else
    match session.separators? with
    | none => [.letter 0x20 quoted]
    | some [] => []
    | some (first :: _) => [.letter first quoted]

/-- The marks of the value of a parameter. -/
def Session.marks? (session : Session) (name : String) (split quoted : Bool) :
    Option (List Mark) :=
  if name = "@" || name = "*" then
    some ((session.arguments.map (marksOf quoted)).intersperse
      (session.rowSeparator name split quoted)).flatten
  else (session.value? name).map (marksOf quoted)

/-- The segment of a value. -/
def valueSegment (name : String) (arguments : List Bytes) (quoted : Bool) (marks : List Mark) :
    Segment :=
  if !quoted then ⟨.atSeparators, marks⟩
  else if name = "@" && !arguments.isEmpty then ⟨.atArguments, marks⟩
  else ⟨.fixed, marks⟩

/-- The number that a variable spells for arithmetic; a missing or blank one is zero. -/
def numberOf (name : String) : Step Int64 := do
  let text := ((← get).value? name).getD []
  if (lettersOf text).all isSpaceLetter then return 0
  match integerOf? true text with
  | some n => return Int64.ofInt n
  | none => fail (utf8 "Illegal number: " ++ text)

/-- The value of an arithmetic expression. -/
def arithmeticValue (text : Bytes) : Step Int := do
  let failing := fun (fault : ArithmeticFault) => (fail (fault.message text) : Step Int64)
  let (expression, fault) := Arithmetic.parse text
  let value ← expression.evaluate
    ⟨numberOf, fun name value => assign name (integerText value.toInt), failing⟩
  match fault with
  | some fault => return (← failing fault).toInt
  | none => return value.toInt

/-! ## Tildes -/

/-- The home directories of users by name. -/
def homes : List (String × Bytes) := [("root", utf8 "/root")]

/-- The directory that a tilde with a name stands for. -/
def Session.home? (session : Session) (name : Bytes) : Option Bytes :=
  let found := if name.isEmpty then session.contentOf? "HOME" else homes.lookup (asciiText name)
  found.filter fun path => !path.isEmpty

/-- Text that may start with a tilde; `last` tells whether the word ends with it. -/
def tildeMarks (session : Session) (assigned last : Bool) (bytes : Bytes) : List Mark :=
  match bytes with
  | 0x7e :: after =>
    let name := after.takeWhile fun byte => byte != 0x2f && !(assigned && byte == 0x3a)
    let rest := after.drop name.length
    match if rest.isEmpty && !last then none else session.home? name with
    | some home => marksOf true home ++ marksOf false rest
    | none => marksOf false bytes
  | _ => marksOf false bytes

/-- Text outside of quotes in which tildes are looked for, at its start or after colons. -/
def literalMarks (session : Session) (manner : Manner) (atStart last : Bool) (bytes : Bytes) :
    List Mark :=
  if manner.assigned then
    let pieces := Text.pieces (· == 0x3a) bytes
    let marked := pieces.mapIdx fun index piece =>
      if index = 0 && !atStart then marksOf false piece
      else tildeMarks session false (last || index + 1 < pieces.length) piece
    (marked.intersperse [.letter 0x3a false]).flatten
  else if atStart then tildeMarks session false last bytes
  else marksOf false bytes

/-! ## Words -/

/-- The complaint about a parameter that is not set. -/
def unsetComplaint {α : Type} (name : String) : Step α :=
  fail (utf8 (name ++ ": parameter not set"))

/-- Expand the parts of a word; the segments found so far come last first. -/
def expandParts (substitute : Substitute) : (fuel : Nat) → Manner → (within atStart : Bool) →
    List WordPart → List Segment → Step (List Segment)
  | 0, _, _, _, _, found => return found.reverse
  | _, _, _, _, [], found => return found.reverse
  | fuel + 1, manner, within, atStart, part :: rest, found => do
    let quoted := manner.quoted || within
    let goOn := fun segment =>
      expandParts substitute fuel manner within false rest (segment :: found)
    let inner := fun manner operand =>
      expandParts substitute fuel manner false true operand []
    match part with
    | .literal bytes literally =>
      let session ← get
      let marks := if literally || quoted then marksOf true bytes
        else literalMarks session manner atStart rest.isEmpty bytes
      let splits := manner.operand && !quoted && !literally
      goOn ⟨if splits then .atSeparators else .fixed, marks⟩
    | .quote =>
      match within, rest with
      | false, .parameter "@" .value false [] :: .quote :: after =>
        let session ← get
        let marks := (session.marks? "@" manner.split true).getD []
        expandParts substitute fuel manner false false after
          (valueSegment "@" session.arguments true marks :: found)
      | _, _ =>
        expandParts substitute fuel manner (!within) false rest (⟨.fixed, [.quote]⟩ :: found)
    | .substitution script =>
      let output ← substitute script
      goOn ⟨if quoted then .fixed else .atSeparators, marksOf quoted output⟩
    | .arithmetic text =>
      let value ← arithmeticValue (textOf (← inner .text text))
      goOn ⟨if quoted then .fixed else .atSeparators, marksOf quoted (integerText value)⟩
    | .parameter name expansion emptyToo operand =>
      let session ← get
      let value := session.marks? name manner.split quoted
      let missing := match value with
        | none => true
        | some marks => emptyToo && marks.isEmpty
      let strictly := fun (action : Step (List Segment)) =>
        if value.isNone && session.has 'u' then unsetComplaint name else action
      let whole := fun (session : Session) (value : Option (List Mark)) =>
        goOn (valueSegment name session.arguments quoted (value.getD []))
      let instead := do
        let segments ← inner { manner with quoted, operand := true } operand
        expandParts substitute fuel manner within false rest (segments.reverse ++ found)
      match expansion with
      | .malformed => fail (utf8 "Bad substitution")
      | .value => strictly (whole session value)
      | .length =>
        let size := ((session.marks? name false quoted).getD []).length
        strictly (goOn ⟨if quoted then .fixed else .atSeparators,
          marksOf quoted (decimalText size)⟩)
      | .orElse => if missing then instead else whole session value
      | .ifPresent => if missing then goOn ⟨.fixed, []⟩ else instead
      | .orAssign =>
        if missing then
          let text := textOf (← inner .text operand)
          assign (← checkName (utf8 name)) text
          whole session (some (marksOf quoted text))
        else whole session value
      | .orFail =>
        if missing then
          let reason ← (do
            if operand.isEmpty then
              return utf8 (if emptyToo then "parameter not set or null" else "parameter not set")
            else return textOf (← inner .text operand))
          fail (utf8 (name ++ ": ") ++ reason)
        else whole session value
      | .remove front longest => strictly (do
          let pattern := patternOf (← inner .text operand)
          whole session (some (removeMarks pattern front longest (value.getD []))))

/-- The segments of a word. -/
def expandWord (substitute : Substitute) (fuel : Nat) (manner : Manner) (word : Word) :
    Step (List Segment) :=
  expandParts substitute fuel manner false true word []

/-- The text of a word. -/
def expandText (substitute : Substitute) (fuel : Nat) (manner : Manner) (word : Word) :
    Step Bytes := do
  return textOf (← expandWord substitute fuel manner word)

/-- The fields of a word. -/
def expandFields (substitute : Substitute) (fuel : Nat) (word : Word) : Step (List Bytes) := do
  let segments ← expandWord substitute fuel .fields word
  let session ← get
  let fields := fieldsOf (session.separators?.getD blankBytes) none segments
  if session.has 'f' then return fields.map bytesOfMarks
  else return fields.flatMap (Glob.expand session.machine.files)

/-- The fields of words. -/
def expandAll (substitute : Substitute) (fuel : Nat) (words : List Word) : Step (List Bytes) := do
  return (← words.mapM (expandFields substitute fuel)).flatten

end SpeechRom.Shell
