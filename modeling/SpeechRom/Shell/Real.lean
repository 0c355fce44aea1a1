import SpeechRom.Shell.Numeral

/-!
# Real numbers as text

Floating-point numbers with a given number of decimal places or digits.  A
number is read as an exact fraction, and the number of the format that is
nearest to it stands for it; written, it is again the exact fraction that it is.
A half goes to the even neighbour both times.
-/

namespace SpeechRom.Shell

/-- A finite number as a fraction, with its sign. -/
structure Fraction where
  negative : Bool
  numerator : Nat
  denominator : Nat

/-- A format of binary floating-point numbers. -/
structure BinaryFormat where
  /-- The number of binary digits. -/
  digits : Nat
  /-- The exponent of the last digit of the smallest numbers. -/
  least : Int
  /-- All numbers are smaller than two to this power. -/
  greatest : Int

/-- Numbers of 64 bits. -/
def BinaryFormat.double : BinaryFormat := ⟨53, -1074, 1024⟩

/-- Numbers of 80 bits, of which the first digit is written out. -/
def BinaryFormat.extended : BinaryFormat := ⟨64, -16445, 16384⟩

/-- What a floating-point number is. -/
inductive RealValue where
  /-- A whole number of digits and the power of two that they are multiplied by. -/
  | finite (negative : Bool) (digits : Nat) (exponent : Int)
  | infinite (negative : Bool)
  | noNumber (negative : Bool)
  deriving DecidableEq, Repr

namespace Real

/-- The quotient of two numbers, rounded to the nearest, a half to the even one. -/
def roundedQuotient (numerator denominator : Nat) : Nat :=
  let quotient := numerator / denominator
  let twice := 2 * (numerator % denominator)
  if twice > denominator || (twice = denominator && quotient % 2 = 1) then quotient + 1
  else quotient

/-- The quotient of two numbers times a power of two, rounded. -/
def scaledQuotient (numerator denominator : Nat) (exponent : Int) : Nat :=
  if 0 ≤ exponent then roundedQuotient (numerator * 1 <<< exponent.toNat) denominator
  else roundedQuotient numerator (denominator * 1 <<< exponent.natAbs)

/-- The greatest power of two that is not above a fraction. -/
def magnitudeOf (numerator denominator : Nat) : Int :=
  let shift := Int.ofNat numerator.log2 - Int.ofNat denominator.log2
  let reaches :=
    if 0 ≤ shift then denominator * 1 <<< shift.toNat ≤ numerator
    else denominator ≤ numerator * 1 <<< shift.natAbs
  if reaches then shift else shift - 1

/-- The number of a format that is nearest to a fraction, and whether it lies within the range: not
above it, and not below the numbers that have all their digits, unless it is exact. -/
def nearest (format : BinaryFormat) (fraction : Fraction) : RealValue × Bool :=
  let numerator := fraction.numerator
  let denominator := fraction.denominator
  if numerator = 0 then (.finite fraction.negative 0 0, true)
  else
    let free := magnitudeOf numerator denominator - Int.ofNat format.digits + 1
    let exponent := max free format.least
    let digits := scaledQuotient numerator denominator (-exponent)
    let (digits, exponent) :=
      if digits = 1 <<< format.digits then (1 <<< (format.digits - 1), exponent + 1)
      else (digits, exponent)
    if format.greatest < exponent + Int.ofNat format.digits then
      (.infinite fraction.negative, false)
    else
      let exact := if 0 ≤ exponent then digits * 1 <<< exponent.toNat * denominator = numerator
        else digits * denominator = numerator * 1 <<< exponent.natAbs
      (.finite fraction.negative digits exponent, exact || 1 <<< (format.digits - 1) ≤ digits)

/-- The number of a byte. -/
def ofByte (format : BinaryFormat) (byte : UInt8) : RealValue :=
  (nearest format ⟨false, byte.toNat, 1⟩).1

/-- A finite number as a fraction. -/
def fractionOf (negative : Bool) (digits : Nat) (exponent : Int) : Fraction :=
  if 0 ≤ exponent then ⟨negative, digits * 1 <<< exponent.toNat, 1⟩
  else ⟨negative, digits, 1 <<< exponent.natAbs⟩

/-- A number of decimal units as digits with a point. -/
def placed (places units : Nat) (point : Bool) : List Char :=
  let digits := (Nat.toDigits 10 units).leftpad (places + 1) '0'
  let whole := digits.take (digits.length - places)
  if places = 0 && !point then whole else whole ++ '.' :: digits.drop (digits.length - places)

/-- A fraction with a number of decimal places. -/
def fixed (fraction : Fraction) (places : Nat) (point : Bool) : List Char :=
  let units := roundedQuotient (fraction.numerator * Nat.pow 10 places) fraction.denominator
  placed places units point

/-- The digits of a fraction, one more than `places`, and its decimal exponent. -/
def digitsAndExponent (fraction : Fraction) (places : Nat) : Nat × Int :=
  let numerator := fraction.numerator
  let denominator := fraction.denominator
  if numerator = 0 then (0, 0)
  else
    let whole := (Nat.toDigits 10 (numerator / denominator)).length
    let exponent : Int :=
      if denominator ≤ numerator then Int.ofNat whole - 1
      else
        -- the least number of places at which a digit is not zero
        let scaled := (List.range 5000).find? fun shift =>
          denominator ≤ numerator * Nat.pow 10 shift
        Int.negOfNat (scaled.getD 0)
    let shift := Int.ofNat places - exponent
    let units :=
      if 0 ≤ shift then roundedQuotient (numerator * Nat.pow 10 shift.toNat) denominator
      else roundedQuotient numerator (denominator * Nat.pow 10 (-shift).toNat)
    if units = Nat.pow 10 (places + 1) then (Nat.pow 10 places, exponent + 1)
    else (units, exponent)

/-- A decimal exponent as text. -/
def exponentText (exponent : Int) : List Char :=
  'e' :: (if exponent < 0 then '-' else '+') ::
    (Nat.toDigits 10 exponent.natAbs).leftpad 2 '0'

/-- A fraction with one digit before the point and an exponent. -/
def scientific (fraction : Fraction) (places : Nat) (point : Bool) : List Char :=
  let (units, exponent) := digitsAndExponent fraction places
  placed places units point ++ exponentText exponent

/-- Remove zeros at the end of the places, and the point if none is left. -/
def withoutZeros (digits : List Char) : List Char :=
  if digits.contains '.' then
    ((digits.reverse.dropWhile (· == '0')).dropWhile (· == '.')).reverse
  else digits

/-- A fraction with a number of digits, in the shorter of both forms. -/
def general (fraction : Fraction) (digits : Nat) (point : Bool) : List Char :=
  let digits := max digits 1
  let exponent := (digitsAndExponent fraction (digits - 1)).2
  if -4 ≤ exponent && exponent < Int.ofNat digits then
    let text := fixed fraction (Int.ofNat digits - 1 - exponent).toNat point
    if point then text else withoutZeros text
  else
    let (units, exponent) := digitsAndExponent fraction (digits - 1)
    let front := placed (digits - 1) units point
    (if point then front else withoutZeros front) ++ exponentText exponent

/-- A finite number in hexadecimal digits, without its sign and its mark; without a number of
places it is exact.  The digits in front of the point are those that are left over when the others
are written in groups of four. -/
def hexadecimal (format : BinaryFormat) (digits : Nat) (exponent : Int)
    (precision : Option Nat) (point : Bool) : List Char :=
  let front := (format.digits - 1) % 4 + 1
  let full := (format.digits - front) / 4
  let places := precision.getD full
  let kept := min places full
  let unit := Nat.pow 16 kept
  let rounded := roundedQuotient digits (Nat.pow 16 (full - kept))
  let carried := rounded = 16 * unit
  let rounded := if carried then unit else rounded
  let behind := if kept = 0 then [] else (Nat.toDigits 16 (rounded % unit)).leftpad kept '0'
  let behind := match precision with
    | none => (behind.reverse.dropWhile (· == '0')).reverse
    | some _ => behind ++ List.replicate (places - kept) '0'
  let exponent := if digits = 0 then 0
    else exponent + Int.ofNat (format.digits - front) + if carried then 4 else 0
  let tail := if behind.isEmpty && !point then [] else '.' :: behind
  Nat.toDigits 16 (rounded / unit) ++ tail ++ 'p' :: (if exponent < 0 then '-' else '+') ::
    Nat.toDigits 10 exponent.natAbs

/-- A number read from the front of a text. -/
structure Numeral where
  value : RealValue
  present : Bool
  /-- Whether the number lies within the range. -/
  fits : Bool
  rest : List Char

/-- The exponent of a number behind its mark, if one follows. -/
def exponentOf (marks : Char → Bool) : List Char → Int × List Char
  | mark :: rest =>
    if marks mark then
      let (negative, unsigned) := signOf rest
      let digits := unsigned.takeWhile Char.isDigit
      if digits.isEmpty then (0, mark :: rest)
      else
        let n := Int.ofNat (digitsValue 10 digits)
        (if negative then -n else n, unsigned.drop digits.length)
    else (0, mark :: rest)
  | [] => (0, [])

/-- The digits of a number before and behind its point, and what follows them. -/
def digitsOf (isDigit : Char → Bool) (text : List Char) : List Char × List Char × List Char :=
  let whole := text.takeWhile isDigit
  match text.drop whole.length with
  | '.' :: more =>
    let places := more.takeWhile isDigit
    if whole.isEmpty && places.isEmpty then ([], [], text)
    else (whole, places, more.drop places.length)
  | after => (whole, [], after)

/-- An exponent within bounds beyond which nothing changes. -/
def bounded (exponent : Int) : Int := max (-100000) (min 100000 exponent)

/-- A number times a power of a base, as a fraction. -/
def scaled (negative : Bool) (mantissa base : Nat) (exponent : Int) : Fraction :=
  if 0 ≤ exponent then ⟨negative, mantissa * Nat.pow base exponent.toNat, 1⟩
  else ⟨negative, mantissa, Nat.pow base exponent.natAbs⟩

/-- A number of a base from its digits and what follows them. -/
def numeralOf (format : BinaryFormat) (negative : Bool) (base : Nat) (text : List Char) :
    Option Numeral :=
  let (whole, places, after) := digitsOf (isDigitOf base) text
  if whole.isEmpty && places.isEmpty then none
  else
    let mantissa := digitsValue base (whole ++ places)
    let (exponent, rest) := exponentOf (fun mark =>
      if base = 16 then mark == 'p' || mark == 'P' else mark == 'e' || mark == 'E') after
    let fraction :=
      if mantissa = 0 then ⟨negative, 0, 1⟩
      else if base = 16 then
        scaled negative mantissa 2 (bounded (exponent - 4 * Int.ofNat places.length))
      else scaled negative mantissa 10 (bounded (exponent - Int.ofNat places.length))
    let (value, fits) := nearest format fraction
    some ⟨value, true, fits, rest⟩

/-- What follows a word at the front of a text, in letters of any case. -/
def afterWord? (word : String) (text : List Char) : Option (List Char) :=
  if (text.take word.length).map Char.toLower = word.toList then some (text.drop word.length)
  else none

/-- A word for what is no finite number. -/
def wordNumeral? (negative : Bool) (text : List Char) : Option Numeral :=
  match afterWord? "inf" text, afterWord? "nan" text with
  | some rest, _ => some ⟨.infinite negative, true, true, (afterWord? "inity" rest).getD rest⟩
  | none, some rest => some ⟨.noNumber negative, true, true, rest⟩
  | none, none => none

/-- Read a number: decimal, hexadecimal, or a word. -/
def read (format : BinaryFormat) (text : List Char) : Numeral :=
  let (negative, unsigned) := signOf (text.dropWhile isSpaceLetter)
  let hexadecimal := match unsigned with
    | '0' :: x :: rest =>
      if x == 'x' || x == 'X' then numeralOf format negative 16 rest else none
    | _ => none
  (hexadecimal <|> numeralOf format negative 10 unsigned <|>
    wordNumeral? negative unsigned).getD ⟨.finite false 0 0, false, true, text⟩

end Real

end SpeechRom.Shell
