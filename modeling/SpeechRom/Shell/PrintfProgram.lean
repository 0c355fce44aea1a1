import SpeechRom.Shell.Complaint
import SpeechRom.Shell.Printf

/-!
# Formatted output by a program

The program `printf` reads formats like the command of the shell, and more: it
knows escapes for hexadecimal numbers and characters, quotes arguments, counts
with longer floating-point numbers and refuses flags where they mean nothing.
Output and complaints keep their order.
-/

namespace SpeechRom.Shell.PrintfProgram

open Printf

/-! ## Escapes -/

/-- What an escape stands for. -/
inductive Escape where
  | bytes (bytes : Bytes)
  /-- All output ends. -/
  | stop
  /-- The escape is refused, for a reason. -/
  | refused (reason : Bytes)

/-- Whether a byte is a hexadecimal digit. -/
def isHexadecimal (byte : UInt8) : Bool := isDigitOf 16 (Char.ofNat byte.toNat)

/-- A number as hexadecimal digits, at least so many. -/
def hexadecimalText (size n : Nat) : List Char :=
  (Nat.toDigits 16 n).leftpad size '0'

/-- What a character is written as: itself if it has one byte, or else its escape. -/
def characterText (letter : UInt8) (size n : Nat) : Escape :=
  if 0xd800 ≤ n && n ≤ 0xdfff then
    .refused (utf8 "invalid universal character name \\" ++ [letter] ++
      bytesOf (hexadecimalText size n))
  else if n < 0x80 then .bytes [UInt8.ofNat n]
  else
    let (mark, size) := if n < 0x10000 then ('u', 4) else ('U', 8)
    .bytes (bytesOf ('\\' :: mark :: (hexadecimalText size n).map Char.toUpper))

/-- What stands behind a backslash, and what follows it.  In an argument a zero may stand in front
of octal digits. -/
def escape (inArgument : Bool) (text : Bytes) : Escape × Bytes :=
  let noDigits := Escape.refused (utf8 "missing hexadecimal number in escape")
  match text with
  | [] => (.bytes [0x5c], [])
  | letter :: rest =>
    if letter = 0x78 then
      let digits := (rest.take 2).takeWhile isHexadecimal
      if digits.isEmpty then (noDigits, rest)
      else
        (.bytes [UInt8.ofNat (digitsValue 16 (lettersOf digits))], rest.drop digits.length)
    else if isOctal letter then
      let start := if inArgument && letter = 0x30 then rest else text
      let digits := (start.take 3).takeWhile isOctal
      (.bytes [octalByte digits], start.drop digits.length)
    else if letter = 0x22 then (.bytes [letter], rest)
    else if letter = 0x63 then (.stop, rest)
    else if letter = 0x75 || letter = 0x55 then
      let size := if letter = 0x75 then 4 else 8
      let digits := (rest.take size).takeWhile isHexadecimal
      if digits.length < size then (noDigits, rest)
      else (characterText letter size (digitsValue 16 (lettersOf digits)), rest.drop size)
    else
      match escapedByte? letter with
      | some byte => (.bytes [byte], rest)
      | none => (.bytes [0x5c, letter], rest)

/-! ## Progress -/

/-- What the program does to the streams. -/
inductive Event where
  | output (bytes : Bytes)
  | complaint (text : Bytes)

/-- The state while a format is used. -/
structure Progress where
  /-- What was done, last first. -/
  events : List Event
  arguments : List Bytes
  /-- Whether an argument was flawed. -/
  flawed : Bool
  /-- The status if the end has come. -/
  ended : Option Nat

namespace Progress

/-- Write bytes. -/
def put (progress : Progress) (bytes : Bytes) : Progress :=
  { progress with events := .output bytes :: progress.events }

/-- Complain. -/
def complain (progress : Progress) (text : Bytes) : Progress :=
  { progress with events := .complaint text :: progress.events }

/-- Complain and come to the end. -/
def refuse (progress : Progress) (text : Bytes) : Progress :=
  { progress.complain text with ended := some 1 }

/-- Write what an escape stands for. -/
def putEscape (progress : Progress) : Escape → Progress
  | .bytes bytes => progress.put bytes
  | .stop => { progress with ended := some 0 }
  | .refused reason => progress.refuse reason

/-- Write an argument with its escapes. -/
def putEscaped : (fuel : Nat) → Progress → Bytes → Progress
  | 0, progress, _ => progress
  | _, progress, [] => progress
  | fuel + 1, progress, 0x5c :: rest =>
    let (meaning, rest) := escape true rest
    let progress := progress.putEscape meaning
    if progress.ended.isSome then progress else putEscaped fuel progress rest
  | fuel + 1, progress, byte :: rest => putEscaped fuel (progress.put [byte]) rest

/-- The wording of a flaw. -/
def flawText (argument : Bytes) : Flaw → Bytes
  | .noNumber => quote argument ++ utf8 ": expected a numeric value"
  | .notAsAWhole => quote argument ++ utf8 ": value not completely converted"
  | .outOfRange => quote argument ++ utf8 ": Numerical result out of range"

/-- Note what is wrong with an argument that was read as a number; its size counts first. -/
def checked (progress : Progress) (argument : Bytes) (present fits : Bool) (rest : List Char) :
    Progress :=
  match if fits then flawOf? present fits rest else some .outOfRange with
  | some flaw => { progress.complain (flawText argument flaw) with flawed := true }
  | none => progress

/-- Read the next argument as a number: behind a quote as the number of a letter, or else as a
numeral.  Without an argument the number is zero. -/
def nextNumber {α : Type} (progress : Progress) (zero : α) (ofLetter : UInt8 → α)
    (read : Progress → Bytes → α × Progress) : α × Progress :=
  match progress.arguments with
  | [] => (zero, progress)
  | argument :: rest =>
    let progress := { progress with arguments := rest }
    match argument with
    | [] => (zero, progress)
    | mark :: letter :: more =>
      if mark = 0x22 || mark = 0x27 then
        (ofLetter letter, if more.isEmpty then progress
          else progress.complain (utf8 "warning: " ++ more ++
            utf8 (": character(s) following character constant have been ignored")))
      else read progress argument
    | argument => read progress argument

/-- The integer that the next argument spells. -/
def nextInteger (progress : Progress) (signed : Bool) : Int × Progress :=
  progress.nextNumber 0 (fun letter => Int.ofNat letter.toNat) fun progress argument =>
    let numeral := Numeral.read true signed (lettersOf argument)
    (numeral.value, progress.checked argument numeral.present numeral.fits numeral.rest)

/-- The real number that the next argument spells. -/
def nextReal (progress : Progress) : RealValue × Progress :=
  progress.nextNumber (.finite false 0 0) (Real.ofByte .extended) fun progress argument =>
    let numeral := Real.read .extended (lettersOf argument)
    (numeral.value, progress.checked argument numeral.present numeral.fits numeral.rest)

/-- The next argument as a text. -/
def nextText (progress : Progress) : Bytes × Progress :=
  ((progress.arguments.head?).getD [], { progress with arguments := progress.arguments.drop 1 })

end Progress

/-! ## Directives -/

/-- The letters of flags. -/
def flagLetters : List Char := "-+ #0'I".toList

/-- Whether a conversion goes with flags and a precision. -/
def isLegal (flags : List Char) (precise : Bool) (conversion : Char) : Bool :=
  "aAcdeEfFgGiosuxX".toList.contains conversion &&
    !((flags.contains '\'' || flags.contains 'I') && "aAceEosxX".toList.contains conversion) &&
    !(flags.contains '#' && "cdisu".toList.contains conversion) &&
    !(flags.contains '0' && "cs".toList.contains conversion) &&
    !(precise && conversion = 'c')

/-- The value of a size.  One that is an argument has bounds, and is refused by its name. -/
def sizeValue (progress : Progress) (name : String) (least : Int) : Size → Option Int × Progress
  | .absent => (none, progress)
  | .given n => (some (Int.ofNat n), progress)
  | .argument =>
    let text := (progress.arguments.head?).getD []
    let (n, progress) := progress.nextInteger true
    if n < least || 2147483647 < n then
      (none, progress.refuse (utf8 ("invalid " ++ name ++ ": ") ++ quote text))
    else (some n, progress)

/-- Use a directive whose sizes are known. -/
def convert (progress : Progress) (directive : Directive) (width : Option Int)
    (precision : Option Nat) : Progress :=
  let directive := if width.any (· < 0) then { directive with flags := '-' :: directive.flags }
    else directive
  let flags := directive.flags
  let width := (width.getD 0).natAbs
  match directive.conversion with
  | 's' =>
    let (text, progress) := progress.nextText
    progress.put (pad flags width (match precision with
      | some size => text.take size
      | none => text))
  | 'c' =>
    let (text, progress) := progress.nextText
    progress.put (pad flags width [text.head?.getD 0])
  | 'd' | 'i' =>
    let (n, progress) := progress.nextInteger true
    progress.put (Printf.integerText directive width precision n)
  | 'o' | 'u' | 'x' | 'X' =>
    let (n, progress) := progress.nextInteger false
    progress.put (Printf.integerText directive width precision n)
  | _ =>
    let (x, progress) := progress.nextReal
    progress.put (realText .extended directive width precision x)

/-- Use the directive behind a percent sign; the answer holds what follows it. -/
def useDirective (progress : Progress) (text : List Char) : Progress × List Char :=
  let flags := text.takeWhile flagLetters.contains
  let (width, precision, rest) := readSizes (text.drop flags.length)
  let rest := rest.dropWhile "lLhjtz".toList.contains
  let after := rest.drop 1
  let written := '%' :: text.take (text.length - after.length)
  let (width, progress) := sizeValue progress "field width" (-2147483648) width
  if progress.ended.isSome then (progress, after)
  else
    let precise := precision ≠ .absent
    let (precision, progress) := sizeValue progress "precision" Shell.leastInteger precision
    if progress.ended.isSome then (progress, after)
    else
      let conversion := rest.head?.getD '\x00'
      if !isLegal flags precise conversion then
        (progress.refuse (bytesOf written ++ utf8 ": invalid conversion specification"), after)
      else if width.any (tooLarge ≤ ·) || precision.any (tooLarge ≤ ·) then
        (progress.refuse (utf8 "write error"), after)
      else
        let directive : Directive := ⟨flags, .absent, .absent, conversion, written⟩
        let precision := (precision.filter (0 ≤ ·)).map Int.toNat
        (convert progress directive width precision, after)

/-! ## Formats -/

/-- Use a format once. -/
def useFormat : (fuel : Nat) → Progress → Bytes → Progress
  | 0, progress, _ => progress
  | _, progress, [] => progress
  | fuel + 1, progress, byte :: rest =>
    let (progress, rest) := match byte, rest with
      | 0x25, 0x25 :: rest => (progress.put [0x25], rest)
      | 0x25, 0x62 :: rest =>
        let (text, progress) := progress.nextText
        (Progress.putEscaped (text.length + 1) progress text, rest)
      | 0x25, 0x71 :: rest =>
        if progress.arguments.isEmpty then (progress, rest)
        else
          let (text, progress) := progress.nextText
          (progress.put (mentionInScript text), rest)
      | 0x25, rest =>
        let (progress, after) := useDirective progress (lettersOf rest)
        (progress, bytesOf after)
      | 0x5c, rest =>
        let (meaning, rest) := escape false rest
        (progress.putEscape meaning, rest)
      | byte, rest => (progress.put [byte], rest)
    if progress.ended.isSome then progress else useFormat fuel progress rest

/-- Use a format again and again until the arguments are used up, or it takes none. -/
def useAgain (format : Bytes) : (fuel : Nat) → Progress → Progress
  | 0, progress => progress
  | fuel + 1, progress =>
    let next := useFormat (format.length + 1) progress format
    match next.ended, next.arguments with
    | some _, _ | none, [] => next
    | none, first :: _ =>
      if next.arguments.length = progress.arguments.length then
        next.complain (utf8 "warning: ignoring excess arguments, starting with " ++ quote first)
      else useAgain format fuel next

/-- What a format with arguments makes the program do, and its status. -/
def run (format : Bytes) (arguments : List Bytes) : List Event × Nat :=
  let progress := useAgain format (arguments.length + 1) ⟨[], arguments, false, none⟩
  (progress.events.reverse, progress.ended.getD (if progress.flawed then 1 else 0))

/-- What came of output and complaints. -/
structure Success where
  /-- Why the last output could not be written, if it could not. -/
  refusal : Option Files.SystemError
  /-- Whether output in front of a complaint could not be written. -/
  lost : Bool
  /-- Whether all complaints could be written. -/
  heard : Bool

/-- Do what the program does to the streams.  What was written so far is out before a complaint. -/
def perform (name : Bytes) : List Event → Success → Work Success
  | [], success => return success
  | .output bytes :: rest, success => do
    match ← Machine.write 1 bytes with
    | .ok () => perform name rest success
    | .error reason => perform name rest { success with refusal := some reason }
  | .complaint text :: rest, success => do
    let heard ← tryComplaining name text
    let full := success.refusal = some .noSpace
    perform name rest { refusal := if full then none else success.refusal
                        lost := success.lost || full
                        heard := success.heard && heard }

end PrintfProgram

/-- Run `printf` under a name. -/
def printf (name : Bytes) (arguments : List Bytes) : Work Status := do
  let arguments := if arguments.head? = some (utf8 "--") then arguments.drop 1 else arguments
  match arguments with
  | [] =>
    complainAs name (utf8 "missing operand")
    pointToHelp name
    return .exited 1
  | format :: arguments =>
    let (events, status) := PrintfProgram.run format arguments
    let success ← PrintfProgram.perform name events ⟨none, false, true⟩
    match success.refusal with
    | some reason => endUnwritten name reason
    | none =>
      if success.lost then
        complainAs name (utf8 "write error")
        return .exited 1
      else return .exited (if success.heard then status else 1)

end SpeechRom.Shell
