import SpeechRom.Shell.Bytes

/-!
# Numerals

How text is read as an integer of 64 bits: blanks, a sign, digits of a base,
and whatever follows.  A number beyond the range becomes the nearest one within
it, and the reader is told.
-/

namespace SpeechRom.Shell

/-- The value of a digit in any base up to sixteen. -/
def digitValue? (c : Char) : Option Nat :=
  if c.isDigit then some (c.toNat - 48)
  else if 'a' ≤ c && c ≤ 'f' then some (c.toNat - 87)
  else if 'A' ≤ c && c ≤ 'F' then some (c.toNat - 55)
  else none

/-- Whether a letter is a digit of a base. -/
def isDigitOf (base : Nat) (c : Char) : Bool := (digitValue? c).any (· < base)

/-- The number that digits spell. -/
def digitsValue (base : Nat) (digits : List Char) : Nat :=
  digits.foldl (fun n c => n * base + (digitValue? c).getD 0) 0

/-- The base of a numeral by its start, and what comes after the mark of the base. -/
def baseOf : List Char → Nat × List Char
  | '0' :: x :: digit :: rest =>
    if (x == 'x' || x == 'X') && isDigitOf 16 digit then (16, digit :: rest)
    else (8, '0' :: x :: digit :: rest)
  | '0' :: rest => (8, '0' :: rest)
  | text => (10, text)

/-- The least integer of 64 bits. -/
def leastInteger : Int := -9223372036854775808

/-- The greatest integer of 64 bits. -/
def greatestInteger : Int := 9223372036854775807

/-- The greatest number of 64 bits without a sign. -/
def greatestUnsigned : Int := 18446744073709551615

/-- A number read from the front of a text. -/
structure Numeral where
  value : Int
  /-- Whether there are digits; without them nothing is taken. -/
  present : Bool
  /-- Whether the number lies within the range. -/
  fits : Bool
  rest : List Char
  deriving Repr

/-- The sign of a number, and what follows it. -/
def signOf : List Char → Bool × List Char
  | '-' :: rest => (true, rest)
  | '+' :: rest => (false, rest)
  | rest => (false, rest)

namespace Numeral

/-- Read a number: `anyBase` heeds the marks of octal and hexadecimal numbers, `signed` has the
range of integers with a sign. -/
def read (anyBase signed : Bool) (text : List Char) : Numeral :=
  let (negative, unsigned) := signOf (text.dropWhile isSpaceLetter)
  let (base, start) := if anyBase then baseOf unsigned else (10, unsigned)
  let digits := start.takeWhile (isDigitOf base)
  if digits.isEmpty then ⟨0, false, true, text⟩
  else
    let magnitude := digitsValue base digits
    let rest := start.drop digits.length
    if signed then
      let n : Int := if negative then -(Int.ofNat magnitude) else Int.ofNat magnitude
      if n < leastInteger then ⟨leastInteger, true, false, rest⟩
      else if n > greatestInteger then ⟨greatestInteger, true, false, rest⟩
      else ⟨n, true, true, rest⟩
    else if (Int.ofNat magnitude) > greatestUnsigned then ⟨greatestUnsigned, true, false, rest⟩
    else
      ⟨if negative && magnitude ≠ 0 then greatestUnsigned + 1 - Int.ofNat magnitude
        else Int.ofNat magnitude, true, true, rest⟩

end Numeral

/-- The integer that a whole text spells, blanks at its ends aside. -/
def integerOf? (anyBase : Bool) (text : Bytes) : Option Int :=
  let numeral := Numeral.read anyBase true (lettersOf text)
  if numeral.present && numeral.fits && numeral.rest.all isSpaceLetter then some numeral.value
  else none

/-- The greatest number that a command takes as an operand. -/
def greatestOperand : Int := 2147483647

/-- The number that an operand of a command spells: decimal and not negative. -/
def operandOf? (text : Bytes) : Option Nat :=
  match integerOf? false text with
  | some n => if n < 0 || n > greatestOperand then none else some n.toNat
  | none => none

end SpeechRom.Shell
