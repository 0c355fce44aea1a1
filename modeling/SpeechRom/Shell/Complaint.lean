import SpeechRom.Shell.Machine
import SpeechRom.Shell.Status

/-!
# Complaints of programs

A program writes its name and what is wrong to the error output.  Names that
belong to users are set apart where they could be misread: letters without a
form appear as codes, and what a script would not take for one plain word
stands in quotes, in a form that a script reads back.
-/

namespace SpeechRom.Shell

open Files

/-- The words for which a file cannot be used. -/
def refusal : SystemError → String
  | .notFound => "No such file or directory"
  | .permissionDenied => "Permission denied"
  | .notADirectory => "Not a directory"
  | .isADirectory => "Is a directory"
  | .nameTooLong => "File name too long"
  | .badStream => "Bad file descriptor"
  | .argumentsTooLong => "Argument list too long"
  | .noDevice => "No such device or address"
  | .noSpace => "No space left on device"
  | .brokenPipe => "Broken pipe"
  | .outOfMemory => "Cannot allocate memory"
  | .nulInPath => "Invalid argument"
  | .other words => words

/-! ## Names as they are mentioned -/

/-- Whether a letter has a form of its own. -/
def isPrintable (byte : UInt8) : Bool := 0x20 ≤ byte && byte < 0x7f

/-- The code of a letter behind a backslash: a letter of its own, or three octal digits. -/
def codeOf (byte : UInt8) : Bytes :=
  let named : List (UInt8 × Char) :=
    [(0x07, 'a'), (0x08, 'b'), (0x09, 't'), (0x0a, 'n'), (0x0b, 'v'), (0x0c, 'f'), (0x0d, 'r')]
  0x5c :: match named.lookup byte with
    | some letter => [byteOf letter]
    | none => bytesOf ((Nat.toDigits 8 byte.toNat).leftpad 3 '0')

/-- A text in single quotes, with backslashes in front of quotes and backslashes. -/
def quote (text : Bytes) : Bytes :=
  0x27 :: text.flatMap (fun byte =>
    if byte = 0x27 || byte = 0x5c then [0x5c, byte]
    else if isPrintable byte then [byte]
    else codeOf byte) ++ [0x27]

/-- Whether a letter has a meaning in a script, wherever it stands in a word. -/
def isSpecial (byte : UInt8) : Bool :=
  !isPrintable byte || (utf8 " !\"$&'()*;<=>?[\\^\x60|").contains byte

/-- Whether a text cannot stand for itself as a word of a script. -/
def needsQuotes (text : Bytes) : Bool :=
  text.isEmpty || text.any isSpecial || text.head? = some 0x23 || text.head? = some 0x7e ||
    text = [0x7b] || text = [0x7d]

/-- Whether a letter means the same in single and in double quotes, and in neither anything else
than itself; `first` tells that it is the first one. -/
def isHarmless (first : Bool) (byte : UInt8) : Bool :=
  let letter := Char.ofNat byte.toNat
  letter.isAlphanum || (utf8 " '%+,-./:@]_").contains byte ||
    (first && (letter = '#' || letter = '~'))

/-- Whether double quotes are enough for a text. -/
def isHarmlessText (text : Bytes) : Bool :=
  (text.take 1).all (isHarmless true) && (text.drop 1).all (isHarmless false)

/-- Letters for the inside of single quotes.  Codes stand between signs that open and close them,
and `coded` tells whether they are open. -/
def insideQuotes (coded : Bool) : Bytes → Bytes
  | [] => []
  | byte :: rest =>
    if byte = 0x27 then utf8 "'\\''" ++ insideQuotes false rest
    else if isPrintable byte then
      (if coded then utf8 "''" else []) ++ byte :: insideQuotes false rest
    else (if coded then [] else utf8 "'$'") ++ codeOf byte ++ insideQuotes true rest

/-- A text in quotes, from which a script reads it back.  If it holds quotes and ends in a code, an
empty pair of quotes comes first. -/
def inScriptQuotes (text : Bytes) : Bytes :=
  if text.contains 0x27 then
    if isHarmlessText text then 0x22 :: text ++ [0x22]
    else
      let coded := text.getLast?.any fun byte => !isPrintable byte
      0x27 :: insideQuotes coded text ++ [0x27]
  else 0x27 :: insideQuotes false text ++ [0x27]

/-- A text as a word of a script, in quotes only if they are needed. -/
def mentionInScript (text : Bytes) : Bytes :=
  if needsQuotes text then inScriptQuotes text else text

/-- A name in front of a colon: one that holds colons itself stands in quotes too. -/
def mention (text : Bytes) : Bytes :=
  if needsQuotes text || text.contains 0x3a then inScriptQuotes text else text

/-! ## Complaining -/

/-- Complain in the name of a program; the answer is whether that could be written. -/
def tryComplaining (name text : Bytes) : Work Bool := do
  return (← Machine.write 2 (name ++ utf8 ": " ++ text ++ [0x0a])).isOk

/-- Complain in the name of a program. -/
def complainAs (name text : Bytes) : Work Unit := do
  let _ ← tryComplaining name text

/-- Point to the help of a program. -/
def pointToHelp (name : Bytes) : Work Unit := do
  let _ ← Machine.write 2 (utf8 "Try '" ++ name ++ utf8 " --help' for more information.\n")

/-- The end of a program that cannot write its output. -/
def endUnwritten (name : Bytes) (reason : SystemError) : Work Status := do
  if reason = .brokenPipe then return .signalled brokenPipeSignal
  else
    complainAs name (utf8 ("write error: " ++ refusal reason))
    return .exited 1

end SpeechRom.Shell
