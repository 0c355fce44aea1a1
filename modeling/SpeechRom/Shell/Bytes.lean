/-!
# Bytes and letters

The shell takes text for bytes, and every byte for a letter.  Scripts, values
and files are bytes; where the rules speak of characters, each byte stands for
the character of its number.
-/

namespace SpeechRom.Shell

/-- Text of a shell. -/
abbrev Bytes := List UInt8

/-- The bytes of a text. -/
def utf8 (text : String) : Bytes := text.toUTF8.toList

/-- The letters of bytes, one for each. -/
def lettersOf (bytes : Bytes) : List Char := bytes.map fun byte => Char.ofNat byte.toNat

/-- The byte that a letter stands for. -/
def byteOf (letter : Char) : UInt8 := UInt8.ofNat letter.toNat

/-- The bytes of letters, one for each. -/
def bytesOf (letters : List Char) : Bytes := letters.map byteOf

/-- The text of letters that bytes spell. -/
def asciiText (bytes : Bytes) : String := String.ofList (lettersOf bytes)

/-- The path that bytes spell. -/
def pathOf (bytes : Bytes) : String := (String.fromUTF8? ⟨bytes.toArray⟩).getD (asciiText bytes)

/-- A number as decimal text. -/
def decimalText (n : Nat) : Bytes := utf8 (toString n)

/-- A number with its sign as decimal text. -/
def integerText (n : Int) : Bytes := utf8 (toString n)

/-- Texts with a separator between. -/
def joinWith (separator : Bytes) : List Bytes → Bytes
  | [] => []
  | [last] => last
  | first :: rest => first ++ separator ++ joinWith separator rest

/-- Texts with blanks between. -/
def joinWords (words : List Bytes) : Bytes := joinWith [0x20] words

/-- Remove the line ends at the end of a text. -/
def dropLineEnds (bytes : Bytes) : Bytes := (bytes.reverse.dropWhile (· == 0x0a)).reverse

/-! ## Names -/

/-- A letter that a name may start with. -/
def startsName (c : Char) : Bool := c.isAlpha || c == '_'

/-- A letter that a name may go on with. -/
def continuesName (c : Char) : Bool := c.isAlphanum || c == '_'

/-- Whether letters are the name of a variable. -/
def isVariableName : List Char → Bool
  | [] => false
  | first :: rest => startsName first && rest.all continuesName

/-- Whether a letter names a special parameter. -/
def isSpecialName (c : Char) : Bool :=
  c == '#' || c == '?' || c == '$' || c == '!' || c == '-' || c == '*' || c == '@' || c.isDigit

/-- A letter that separates: space, tab, line feed, vertical tab, form feed, carriage return. -/
def isSpaceLetter (c : Char) : Bool := c == ' ' || ('\x09' ≤ c && c ≤ '\x0d')

/-! ## Letters give back their bytes -/

@[simp]
theorem byteOf_ofNat (byte : UInt8) : byteOf (Char.ofNat byte.toNat) = byte := by
  have hlt : byte.toNat < 256 := byte.toNat_lt
  have hvalid : byte.toNat.isValidChar := Or.inl (by omega)
  have hchar : (Char.ofNat byte.toNat).toNat = byte.toNat := by
    rw [Char.ofNat, dif_pos hvalid]
    rfl
  rw [byteOf, hchar, UInt8.ofNat_toNat]

@[simp]
theorem bytesOf_lettersOf (bytes : Bytes) : bytesOf (lettersOf bytes) = bytes := by
  induction bytes with
  | nil => rfl
  | cons byte rest ih =>
    simp only [bytesOf, lettersOf, List.map_cons, byteOf_ofNat] at ih ⊢
    rw [ih]

end SpeechRom.Shell
