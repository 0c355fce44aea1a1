import SpeechRom.Text.Scan
import SpeechRom.Toml.Value

/-!
# TOML scalars

Strings in their four forms, integers, floats, truth values and date-times, as
version 1.0 of the format writes them.
-/

namespace SpeechRom.Toml

open Text Text.Scan

/-! ## Blanks, comments and ends of lines -/

/-- A blank inside a line. -/
def isBlank (c : Char) : Bool := c == ' ' || c == '\t'

/-- A character that no class of text excludes: printable or beyond ASCII, or a tab. -/
def isTextChar (c : Char) : Bool :=
  c == '\t' || (' ' ≤ c && c ≤ '~') || '\x80' ≤ c

/-- An end of line. -/
def newline : Scan Unit := exactly ['\n'] <|> exactly ['\r', '\n']

/-- A comment up to the end of its line. -/
def comment : Scan Unit := do
  exactly ['#']
  let _ ← run isTextChar

/-- What may follow on a line: blanks, a comment, and the end of the line or of the text. -/
def lineRest : Scan Unit := do
  let _ ← run isBlank
  let _ ← optional comment
  newline <|> ended

/-- Blanks, ends of lines, and comments with their ends of lines. -/
def filler : Scan Unit := do
  let _ ← many ((discard (run1 isBlank)) <|> newline <|> (do comment; newline))

/-! ## Strings -/

/-- The number that digits of a base stand for. -/
def numberOf (base : Nat) (digits : List Char) : Nat :=
  digits.foldl (fun n c =>
    let digit := if c.isDigit then c.toNat - '0'.toNat
      else if c.isLower then c.toNat - 'a'.toNat + 10 else c.toNat - 'A'.toNat + 10
    n * base + digit) 0

/-- A digit of base 16. -/
def isHexDigit (c : Char) : Bool := c.isDigit || ('a' ≤ c && c ≤ 'f') || ('A' ≤ c && c ≤ 'F')

/-- A character given by its code point in a fixed number of digits. -/
def codePoint (digits : Nat) : Scan Char := do
  let n := numberOf 16 (← count digits isHexDigit)
  if n.isValidChar then return Char.ofNat n else failure

/-- An escaped character. -/
def escape : Scan Char := do
  exactly ['\\']
  match ← one fun _ => true with
  | 'b' => return '\x08'
  | 't' => return '\t'
  | 'n' => return '\n'
  | 'f' => return '\x0c'
  | 'r' => return '\r'
  | '"' => return '"'
  | '\\' => return '\\'
  | 'u' => codePoint 4
  | 'U' => codePoint 8
  | _ => failure

/-- A character that stands for itself between double quotes. -/
def isBasicChar (c : Char) : Bool := isTextChar c && c != '"' && c != '\\'

/-- A character that stands for itself between single quotes. -/
def isLiteralChar (c : Char) : Bool := isTextChar c && c != '\''

/-- A string between double quotes on one line. -/
def basicString : Scan String := do
  exactly ['"']
  let parts ← many (run1 isBasicChar <|> (return [← escape]))
  exactly ['"']
  return String.ofList parts.flatten

/-- A string between single quotes on one line. -/
def literalString : Scan String := do
  exactly ['\'']
  let text ← run isLiteralChar
  exactly ['\'']
  return String.ofList text

/-- One or two quotes inside a string that three quotes end. -/
def innerQuotes (quote : Char) : Scan (List Char) := do
  let quotes ← run1 (· == quote)
  if quotes.length ≤ 2 then return quotes else failure

/-- The three quotes that end a string, after up to two that belong to it. -/
def closingQuotes (quote : Char) : Scan (List Char) := do
  let quotes ← run (· == quote)
  if 3 ≤ quotes.length ∧ quotes.length ≤ 5 then return quotes.drop 3 else failure

/-- A backslash at the end of a line, and all blanks and ends of lines after it. -/
def continuation : Scan (List Char) := do
  exactly ['\\']
  let _ ← run isBlank
  newline
  let _ ← many (newline <|> discard (run1 isBlank))
  return []

/-- An end of line inside a string. -/
def innerNewline : Scan (List Char) := do
  newline
  return ['\n']

/-- A string between three double quotes, over any number of lines. -/
def longBasicString : Scan String := do
  exactly ['"', '"', '"']
  let _ ← optional newline
  let parts ← many (run1 isBasicChar <|> continuation <|> (return [← escape]) <|> innerNewline <|>
    innerQuotes '"')
  let last ← closingQuotes '"'
  return String.ofList (parts.flatten ++ last)

/-- A string between three single quotes, over any number of lines. -/
def longLiteralString : Scan String := do
  exactly ['\'', '\'', '\'']
  let _ ← optional newline
  let parts ← many (run1 isLiteralChar <|> innerNewline <|> innerQuotes '\'')
  let last ← closingQuotes '\''
  return String.ofList (parts.flatten ++ last)

/-- A string in any form. -/
def stringValue : Scan String :=
  longBasicString <|> longLiteralString <|> basicString <|> literalString

/-! ## Numbers -/

/-- Digits of a class, single underscores allowed between them. -/
def grouped (isDigit : Char → Bool) : Scan (List Char) := do
  let first ← one isDigit
  let rest ← many (one isDigit <|> (do exactly ['_']; one isDigit))
  return first :: rest

/-- A sign; without one the number is positive. -/
def sign : Scan Bool :=
  (do exactly ['-']; return true) <|> (do exactly ['+']; return false) <|> return false

/-- Decimal digits without a leading zero, unless zero is all. -/
def decimal : Scan (List Char) := do
  let digits ← grouped Char.isDigit
  if digits.head? = some '0' ∧ 1 < digits.length then failure else return digits

/-- Whether an integer has no more than 64 bits, the sign included. -/
def inRange (n : Int) : Bool := -9223372036854775808 ≤ n && n ≤ 9223372036854775807

/-- An integer with a base in front. -/
def basedInteger (letter : Char) (base : Nat) (isDigit : Char → Bool) : Scan Int := do
  exactly ['0', letter]
  return Int.ofNat (numberOf base (← grouped isDigit))

/-- A decimal integer. -/
def decimalInteger : Scan Int := do
  let negative ← sign
  let n := Int.ofNat (numberOf 10 (← decimal))
  return if negative then -n else n

/-- An integer in any base. -/
def integerValue : Scan Int := do
  let n ← basedInteger 'x' 16 isHexDigit <|>
    basedInteger 'o' 8 (fun c => '0' ≤ c && c ≤ '7') <|>
    basedInteger 'b' 2 (fun c => c == '0' || c == '1') <|> decimalInteger
  if inRange n then return n else failure

/-- Whether `digits * 10 ^ power` rounds to no finite number of double precision.  With more
than 310 digits before the point it does, with fewer than 300 it does not. -/
def overflows (digits : Nat) (power : Int) : Bool :=
  if digits = 0 then false
  else
    let magnitude := Int.ofNat (Nat.toDigits 10 digits).length + power
    if magnitude > 310 then true
    else if magnitude < 300 then false
    else
      -- halfway between the largest finite number and the next power of two
      let bound := 1 <<< 1024 - 1 <<< 970
      if 0 ≤ power then bound ≤ digits * Nat.pow 10 power.toNat
      else bound * Nat.pow 10 (-power).toNat ≤ digits

/-- A float with a fraction, an exponent or both; too large a positive one is refused. -/
def floatNumber : Scan Unit := do
  let negative ← sign
  let whole ← decimal
  let fraction ← optional (do exactly ['.']; grouped Char.isDigit)
  let exponent ← optional (do
    let _ ← one fun c => c == 'e' || c == 'E'
    let negative ← sign
    let n := Int.ofNat (numberOf 10 (← grouped Char.isDigit))
    return if negative then -n else n)
  if fraction.isNone && exponent.isNone then failure
  let decimals := fraction.getD []
  let power := exponent.getD 0 - Int.ofNat decimals.length
  if !negative && overflows (numberOf 10 (whole ++ decimals)) power then failure

/-- Infinity or no number. -/
def specialFloat : Scan Unit := do
  let _ ← sign
  exactly ['i', 'n', 'f'] <|> exactly ['n', 'a', 'n']

/-- A float. -/
def floatValue : Scan String := taken (floatNumber <|> specialFloat)

/-- A truth value. -/
def booleanValue : Scan Bool :=
  (do exactly ['t', 'r', 'u', 'e']; return true) <|>
    (do exactly ['f', 'a', 'l', 's', 'e']; return false)

/-! ## Date-times -/

/-- A number of a fixed count of digits within bounds. -/
def numberWithin (digits low high : Nat) : Scan Nat := do
  let n := numberOf 10 (← count digits Char.isDigit)
  if low ≤ n ∧ n ≤ high then return n else failure

/-- The number of days of a month. -/
def daysOfMonth (year month : Nat) : Nat :=
  if month = 2 then
    if year % 4 = 0 ∧ (year % 100 ≠ 0 ∨ year % 400 = 0) then 29 else 28
  else if month = 4 ∨ month = 6 ∨ month = 9 ∨ month = 11 then 30 else 31

/-- A date. -/
def date : Scan Unit := do
  let year ← numberWithin 4 0 9999
  exactly ['-']
  let month ← numberWithin 2 1 12
  exactly ['-']
  let _ ← numberWithin 2 1 (daysOfMonth year month)

/-- A time of day; the second 60 is a leap second. -/
def timeOfDay : Scan Unit := do
  let _ ← numberWithin 2 0 23
  exactly [':']
  let _ ← numberWithin 2 0 59
  exactly [':']
  let _ ← numberWithin 2 0 60
  let _ ← optional (do exactly ['.']; run1 Char.isDigit)

/-- A distance from universal time. -/
def timeOffset : Scan Unit :=
  (discard (one fun c => c == 'Z' || c == 'z')) <|> (do
    let _ ← one fun c => c == '+' || c == '-'
    let _ ← numberWithin 2 0 23
    exactly [':']
    let _ ← numberWithin 2 0 59)

/-- A date, a time, or both. -/
def dateTimeValue : Scan String :=
  taken ((do
    date
    let _ ← optional (do
      let _ ← one fun c => c == 'T' || c == 't' || c == ' '
      timeOfDay
      optional timeOffset)) <|> timeOfDay)

/-- A value that holds no others. -/
def scalar : Scan Value :=
  (return .string (← stringValue)) <|> (return .boolean (← booleanValue)) <|>
    (return .dateTime (← dateTimeValue)) <|> (return .float (← floatValue)) <|>
    (return .integer (← integerValue))

end SpeechRom.Toml
