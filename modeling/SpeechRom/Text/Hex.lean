/-!
# Hexadecimal numbers
-/

namespace SpeechRom.Text

/-- A number in base 16 with small letters, filled up with zeros to at least `width` digits. -/
def hexLower (width n : Nat) : String := String.ofList ((Nat.toDigits 16 n).leftpad width '0')

/-- A number in base 16 with capital letters, filled up with zeros to at least `width` digits. -/
def hexUpper (width n : Nat) : String :=
  String.ofList (((Nat.toDigits 16 n).leftpad width '0').map Char.toUpper)

end SpeechRom.Text
