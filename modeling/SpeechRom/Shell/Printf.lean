import SpeechRom.Shell.Real

/-!
# Formatted output

The formats and escapes of the commands `printf` and `echo`.  A format is used
again and again until the arguments are used up; a missing argument is empty or
zero.
-/

namespace SpeechRom.Shell.Printf

/-! ## Escapes -/

/-- Whether a byte is a digit below eight. -/
def isOctal (byte : UInt8) : Bool := 0x30 ≤ byte && byte ≤ 0x37

/-- The byte that up to three octal digits spell; what is too large wraps around. -/
def octalByte (digits : Bytes) : UInt8 :=
  UInt8.ofNat (digits.foldl (fun n b => n * 8 + (b.toNat - 0x30)) 0)

/-- The byte that an escaped letter stands for. -/
def escapedByte? : UInt8 → Option UInt8
  | 0x5c => some 0x5c
  | 0x61 => some 0x07
  | 0x62 => some 0x08
  | 0x65 => some 0x1b
  | 0x66 => some 0x0c
  | 0x6e => some 0x0a
  | 0x72 => some 0x0d
  | 0x74 => some 0x09
  | 0x76 => some 0x0b
  | _ => none

/-- The byte that stands behind a backslash in a format, and what follows it. -/
def escape (text : Bytes) : UInt8 × Bytes :=
  let digits := (text.take 3).takeWhile isOctal
  if digits.isEmpty then
    match text with
    | letter :: rest =>
      match escapedByte? letter with
      | some byte => (byte, rest)
      | none => (0x5c, text)
    | [] => (0x5c, [])
  else (octalByte digits, text.drop digits.length)

/-- Replace the escapes of an argument; a zero may stand in front of octal digits.  The answer
says whether `\c` stopped all output. -/
def unescape : (fuel : Nat) → Bytes → Bytes × Bool
  | 0, _ => ([], false)
  | _, [] => ([], false)
  | _ + 1, 0x5c :: 0x63 :: _ => ([], true)
  | fuel + 1, 0x5c :: 0x30 :: rest =>
    let digits := (rest.take 3).takeWhile isOctal
    let (out, stopped) := unescape fuel (rest.drop digits.length)
    (octalByte digits :: out, stopped)
  | fuel + 1, 0x5c :: rest =>
    let (byte, rest) := escape rest
    let (out, stopped) := unescape fuel rest
    (byte :: out, stopped)
  | fuel + 1, byte :: rest =>
    let (out, stopped) := unescape fuel rest
    (byte :: out, stopped)

/-! ## Formats -/

/-- A size that is too large for any output. -/
def tooLarge : Int := 2147483647

/-- A size in a directive: absent, given, or an argument. -/
inductive Size where
  | absent
  | given (n : Nat)
  | argument
  deriving DecidableEq, Repr

/-- A directive of a format. -/
structure Directive where
  flags : List Char
  width : Size
  precision : Size
  conversion : Char
  /-- The directive as it was written. -/
  text : List Char
  deriving Repr

/-- An item of a format. -/
inductive Item where
  | byte (byte : UInt8)
  | directive (directive : Directive)
  /-- A directive without a conversion at the end of the format. -/
  | unfinished
  deriving Repr

/-- A size at the front of a text. -/
def readSize (text : List Char) : Size × List Char :=
  match text with
  | '*' :: rest => (.argument, rest)
  | text =>
    let digits := text.takeWhile Char.isDigit
    (if digits.isEmpty then .absent else .given (digitsValue 10 digits), text.drop digits.length)

/-- The width and the precision at the front of a text; a point alone is a precision of zero. -/
def readSizes (text : List Char) : Size × Size × List Char :=
  let (width, rest) := readSize text
  match rest with
  | '.' :: rest =>
    match readSize rest with
    | (.absent, rest) => (width, .given 0, rest)
    | (precision, rest) => (width, precision, rest)
  | rest => (width, .absent, rest)

/-- The directive behind a percent sign, and what follows it. -/
def directiveOf (text : List Char) : Item × List Char :=
  let flags := text.takeWhile ("#-+ 0".toList.contains ·)
  let (width, precision, rest) := readSizes (text.drop flags.length)
  match rest with
  | [] => (.unfinished, [])
  | conversion :: rest =>
    (.directive ⟨flags, width, precision, conversion,
      '%' :: text.take (text.length - rest.length)⟩, rest)

/-- The items of a format. -/
def items : (fuel : Nat) → Bytes → List Item
  | 0, _ => []
  | _, [] => []
  | fuel + 1, 0x25 :: 0x25 :: rest => .byte 0x25 :: items fuel rest
  | fuel + 1, 0x25 :: rest =>
    let (item, rest) := directiveOf (lettersOf rest)
    item :: items fuel (bytesOf rest)
  | fuel + 1, 0x5c :: rest =>
    let (byte, rest) := escape rest
    .byte byte :: items fuel rest
  | fuel + 1, byte :: rest => .byte byte :: items fuel rest

/-! ## Conversions -/

/-- Fill a text up to a width. -/
def pad (flags : List Char) (width : Nat) (text : Bytes) : Bytes :=
  let blanks := List.replicate (width - text.length) 0x20
  if flags.contains '-' then text ++ blanks else blanks ++ text

/-- The sign that stands in front of a number. -/
def signText (flags : List Char) (negative : Bool) : List Char :=
  if negative then ['-'] else if flags.contains '+' then ['+']
  else if flags.contains ' ' then [' '] else []

/-- Digits behind a sign, filled with zeros or blanks up to a width. -/
def filled (flags : List Char) (width : Nat) (zeros : Bool) (front digits : List Char) : Bytes :=
  let zeros := if zeros && !flags.contains '-' then
    List.replicate (width - front.length - digits.length) '0' else []
  pad flags width (bytesOf (front ++ zeros ++ digits))

/-- A number in a base. -/
def integerDigits (base : Nat) (precision : Option Nat) (n : Nat) : List Char :=
  if n = 0 && precision = some 0 then []
  else (Nat.toDigits base n).leftpad (precision.getD 1) '0'

/-- An integer as a directive asks for it. -/
def integerText (directive : Directive) (width : Nat) (precision : Option Nat) (n : Int) : Bytes :=
  let flags := directive.flags
  let magnitude := n.natAbs
  let (front, digits) := match directive.conversion with
    | 'o' =>
      let digits := integerDigits 8 precision magnitude
      ([], if flags.contains '#' && digits.head? ≠ some '0' then '0' :: digits else digits)
    | 'x' | 'X' =>
      let digits := integerDigits 16 precision magnitude
      let front := if flags.contains '#' && magnitude ≠ 0 then ['0', 'x'] else []
      if directive.conversion = 'X' then (front.map Char.toUpper, digits.map Char.toUpper)
      else (front, digits)
    | 'u' => ([], integerDigits 10 precision magnitude)
    | _ => (signText flags (n < 0), integerDigits 10 precision magnitude)
  filled flags width (flags.contains '0' && precision.isNone) front digits

/-- A real number as a directive asks for it. -/
def realText (format : BinaryFormat) (directive : Directive) (width : Nat)
    (precision : Option Nat) (x : RealValue) : Bytes :=
  let flags := directive.flags
  let point := flags.contains '#'
  let places := precision.getD 6
  let capital := directive.conversion.isUpper
  let cased := fun (text : List Char) => if capital then text.map Char.toUpper else text
  match x with
  | .noNumber negative =>
    pad flags width (bytesOf (signText flags negative ++ cased ['n', 'a', 'n']))
  | .infinite negative =>
    pad flags width (bytesOf (signText flags negative ++ cased ['i', 'n', 'f']))
  | .finite negative digits exponent =>
    let fraction := Real.fractionOf negative digits exponent
    let front := signText flags negative
    let zeros := flags.contains '0'
    match directive.conversion.toLower with
    | 'a' =>
      filled flags width zeros (front ++ cased ['0', 'x'])
        (cased (Real.hexadecimal format digits exponent precision point))
    | 'f' => filled flags width zeros front (cased (Real.fixed fraction places point))
    | 'e' => filled flags width zeros front (cased (Real.scientific fraction places point))
    | _ => filled flags width zeros front (cased (Real.general fraction places point))

/-! ## Output -/

/-- What is wrong with an argument that should be a number. -/
inductive Flaw where
  | noNumber
  | notAsAWhole
  | outOfRange
  deriving DecidableEq, Repr

/-- The wording of a flaw. -/
def Flaw.message (argument : Bytes) : Flaw → Bytes
  | .noNumber => argument ++ utf8 ": expected numeric value"
  | .notAsAWhole => argument ++ utf8 ": not completely converted"
  | .outOfRange => argument ++ utf8 ": Numerical result out of range"

/-- What is wrong with an argument that was read as a number. -/
def flawOf? (present fits : Bool) (rest : List Char) : Option Flaw :=
  if !rest.isEmpty then some (if present then .notAsAWhole else .noNumber)
  else if !fits then some .outOfRange
  else none

/-- Output while a format is used. -/
structure Progress where
  /-- What was written, last piece first. -/
  output : List Bytes
  /-- Arguments with flaws, last first. -/
  flaws : List (Bytes × Flaw)
  arguments : List Bytes
  stopped : Bool
  /-- Why the format cannot be used. -/
  fault : Option Bytes

namespace Progress

/-- Write bytes. -/
def put (progress : Progress) (bytes : Bytes) : Progress :=
  { progress with output := bytes :: progress.output }

/-- Take the next argument. -/
def next (progress : Progress) : Option Bytes × Progress :=
  (progress.arguments.head?, { progress with arguments := progress.arguments.drop 1 })

/-- Note what is wrong with an argument that was read as a number. -/
def checked (progress : Progress) (argument : Bytes) (present fits : Bool) (rest : List Char) :
    Progress :=
  match flawOf? present fits rest with
  | some flaw => { progress with flaws := (argument, flaw) :: progress.flaws }
  | none => progress

/-- The integer that the next argument spells. -/
def nextInteger (progress : Progress) (signed : Bool) : Int × Progress :=
  let (argument, progress) := progress.next
  match argument with
  | none => (0, progress)
  | some (0x22 :: rest) | some (0x27 :: rest) => (Int.ofNat (rest.head?.getD 0).toNat, progress)
  | some argument =>
    let numeral := Numeral.read true signed (lettersOf argument)
    (numeral.value, progress.checked argument numeral.present numeral.fits numeral.rest)

/-- The real number that the next argument spells. -/
def nextReal (progress : Progress) : RealValue × Progress :=
  let (argument, progress) := progress.next
  match argument with
  | none => (.finite false 0 0, progress)
  | some (0x22 :: rest) | some (0x27 :: rest) =>
    (Real.ofByte .double (rest.head?.getD 0), progress)
  | some argument =>
    let numeral := Real.read .double (lettersOf argument)
    (numeral.value, progress.checked argument numeral.present numeral.fits numeral.rest)

/-- The value of a size; an argument counts in 32 bits. -/
def size (progress : Progress) : Size → Option Int × Progress
  | .absent => (none, progress)
  | .given n => (some (Int.ofNat n), progress)
  | .argument =>
    let (n, progress) := progress.nextInteger true
    (some (Int32.ofInt n).toInt, progress)

/-- Use a directive. -/
def convert (progress : Progress) (directive : Directive) : Progress :=
  let (width, progress) := progress.size directive.width
  let (precision, progress) := progress.size directive.precision
  let leftward := width.any (· < 0)
  let directive := if leftward then { directive with flags := '-' :: directive.flags }
    else directive
  let flags := directive.flags
  let width := (width.getD 0).natAbs
  let precision := (precision.filter fun n => 0 ≤ n).map Int.toNat
  let cut := fun (text : Bytes) => match precision with
    | some size => text.take size
    | none => text
  if (tooLarge ≤ Int.ofNat width || precision.any fun n => tooLarge ≤ Int.ofNat n) then
    { progress with stopped := true, fault := some (utf8 "xvsnprintf failed") }
  else match directive.conversion with
  | 's' =>
    let (argument, progress) := progress.next
    progress.put (pad flags width (cut (argument.getD [])))
  | 'c' =>
    let (argument, progress) := progress.next
    progress.put (pad flags width [((argument.getD []).head?.getD 0)])
  | 'b' =>
    let (argument, progress) := progress.next
    let text := argument.getD []
    let (out, stopped) := unescape (text.length + 1) text
    { progress.put (pad flags width (cut out)) with stopped }
  | 'd' | 'i' =>
    let (n, progress) := progress.nextInteger true
    progress.put (integerText directive width precision n)
  | 'o' | 'u' | 'x' | 'X' =>
    let (n, progress) := progress.nextInteger false
    progress.put (integerText directive width precision n)
  | 'a' | 'A' | 'e' | 'E' | 'f' | 'F' | 'g' | 'G' =>
    let (x, progress) := progress.nextReal
    progress.put (realText .double directive width precision x)
  | _ =>
    { progress with stopped := true
                    fault := some (bytesOf directive.text ++ utf8 ": invalid directive") }

/-- Use an item. -/
def step (progress : Progress) (item : Item) : Progress :=
  if progress.stopped then progress
  else
    match item with
    | .byte byte => progress.put [byte]
    | .directive directive => progress.convert directive
    | .unfinished =>
      { progress with stopped := true, fault := some (utf8 "missing format character") }

end Progress

/-- Use a format again and again until the arguments are used up. -/
def useFormat (items : List Item) : (fuel : Nat) → Progress → Progress
  | 0, progress => progress
  | fuel + 1, progress =>
    let next := items.foldl Progress.step progress
    if next.stopped || next.arguments.isEmpty || next.arguments.length = progress.arguments.length
    then next else useFormat items fuel next

/-- What a format with arguments gives. -/
structure Result where
  output : Bytes
  flaws : List (Bytes × Flaw)
  /-- Why the format could not be used to its end. -/
  fault : Option Bytes

/-- Use a format with arguments. -/
def run (format : Bytes) (arguments : List Bytes) : Result :=
  let progress := useFormat (items (format.length + 1) format) (arguments.length + 1)
    ⟨[], [], arguments, false, none⟩
  ⟨progress.output.reverse.flatten, progress.flaws.reverse, progress.fault⟩

end SpeechRom.Shell.Printf
